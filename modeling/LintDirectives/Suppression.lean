import LintDirectives.Config
import LintDirectives.Span

/-!
# Suppressed ranges

A disable directive opens a range for each of its rules, or one range for every
rule.  An enable directive closes ranges, and the end of the document closes the
rest.

* `Record` is a range that has been opened; it is open as long as it has no end.
* `Tracker` holds the records in the order in which they were opened.  A record
  keeps its place when it is closed.
* `SuppressedRange` is what is left of a record when the document ends.
-/

namespace LintDirectives

/-- A range in which a rule, or every rule, is not reported. -/
structure SuppressedRange where
  span : Span
  /-- The rule; `none` stands for every rule. -/
  rule : Option String
deriving DecidableEq, Repr

namespace SuppressedRange

/-- A report of `rule` at byte `offset` is suppressed. -/
def suppresses (range : SuppressedRange) (offset : Nat) (rule : String) : Bool :=
  range.span.contains offset && range.rule.all (· = rule)

end SuppressedRange

namespace Suppression

/-- A range that a disable directive opened. -/
structure Record where
  start : Nat
  /-- The rule; `none` stands for every rule. -/
  rule : Option String
  /-- Where the range was closed; `none` while it is open. -/
  stop : Option Nat := none
deriving DecidableEq, Repr

namespace Record

/-- The range has not been closed. -/
def isOpen (record : Record) : Bool :=
  record.stop.isNone

/-- Closes an open range at `offset`, or at its own start if that comes later. -/
def close (offset : Nat) (record : Record) : Record :=
  if record.isOpen then { record with stop := some (max offset record.start) } else record

/-- The range of a record in a document that ends at `offset`. -/
def toRange (offset : Nat) (record : Record) : SuppressedRange :=
  ⟨⟨record.start, record.stop.getD (max offset record.start)⟩, record.rule⟩

end Record

/-- The ranges opened so far, in the order in which they were opened. -/
structure Tracker where
  policy : BareEnable := .trailingRun
  records : List Record := []
deriving DecidableEq, Repr

/-! ## Closing -/

/-- Closes, among records listed latest first, the first open one of `rule`. -/
def closeLatest (offset : Nat) (rule : String) : List Record → List Record
  | [] => []
  | record :: earlier =>
    if record.isOpen && record.rule = some rule then record.close offset :: earlier
    else record :: closeLatest offset rule earlier

/-- Closes the records at the head of a list that start at `marker`. -/
def closeRun (offset marker : Nat) : List Record → List Record
  | [] => []
  | record :: earlier =>
    if record.start = marker then record.close offset :: closeRun offset marker earlier
    else record :: earlier

/-- Closes, among records listed latest first, the run of those that start where the
first open one starts. -/
def closeTrailing (offset : Nat) : List Record → List Record
  | [] => []
  | record :: earlier =>
    if record.isOpen then closeRun offset record.start (record :: earlier)
    else record :: closeTrailing offset earlier

namespace Tracker

/-- Applies a change that is stated on the records listed latest first. -/
def mapLatestFirst (f : List Record → List Record) (tracker : Tracker) : Tracker :=
  { tracker with records := (f tracker.records.reverse).reverse }

/-- Opens a range at `offset` for each of `rules`, or one for every rule. -/
def disable (offset : Nat) (rules : List String) (tracker : Tracker) : Tracker :=
  let opened : List Record :=
    if rules.isEmpty then [⟨offset, none, none⟩] else rules.map fun rule => ⟨offset, some rule, none⟩
  { tracker with records := tracker.records ++ opened }

/-- Closes ranges at `offset`: the latest open one of each of `rules`, or without rules
those that the policy names. -/
def enable (offset : Nat) (rules : List String) (tracker : Tracker) : Tracker :=
  if rules.isEmpty then
    match tracker.policy with
    | .all => { tracker with records := tracker.records.map (Record.close offset) }
    | .trailingRun => tracker.mapLatestFirst (closeTrailing offset)
  else
    rules.foldl (fun tracker rule => tracker.mapLatestFirst (closeLatest offset rule)) tracker

/-- The number of open ranges. -/
def openCount (tracker : Tracker) : Nat :=
  tracker.records.countP Record.isOpen

/-- The ranges of a document that ends at `offset`, in the order in which they were opened. -/
def finish (offset : Nat) (tracker : Tracker) : List SuppressedRange :=
  tracker.records.map (Record.toRange offset)

end Tracker

end Suppression

end LintDirectives
