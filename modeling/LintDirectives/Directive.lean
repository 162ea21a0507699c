import LintDirectives.Config
import LintDirectives.Text.Search

/-!
# Directives

One line of a comment, read as a directive: a keyword, an optional list of rule
ids separated by commas, and an optional reason after a standalone run of two or
more dashes.

* `parse?` finds the keyword.  The keywords are tried in the order enabling,
  disabling, expecting; the first that the line holds decides, and only what
  follows its first occurrence is read.
* `splitReason` separates the list from the reason.
* `ruleIds` reads the list.
-/

namespace LintDirectives

/-- What a directive asks for. -/
inductive DirectiveKind where
  /-- Stop reporting. -/
  | disable
  /-- Report again. -/
  | enable
  /-- The next node must be reported. -/
  | expectError
deriving DecidableEq, Repr

/-- A directive.  No rule ids means every rule. -/
structure Directive where
  kind : DirectiveKind
  rules : List String
  reason : Option String
deriving DecidableEq, Repr

namespace Directive

open Text

/-- The directive is about every rule. -/
def appliesToAll (directive : Directive) : Bool :=
  directive.rules.isEmpty

/-! ## The list of rule ids -/

/-- The members of a list without the repetitions of earlier members. -/
def firstOccurrences (items : List (List Char)) : List (List Char) :=
  items.foldl (fun seen item => if item ∈ seen then seen else seen ++ [item]) []

/-- The rule ids of a comma-separated list: trimmed, without empty ones and without
repetitions. -/
def ruleIds (list : List Char) : List (List Char) :=
  firstOccurrences (((pieces ',' list).map trim).filter (· ≠ []))

/-! ## The reason -/

/-- What follows a run of two or more dashes at the start of `text`, when a blank or
the end comes next. -/
def afterDashes? (text : List Char) : Option (List Char) :=
  let rest := text.dropWhile (· = '-')
  if rest.length + 2 ≤ text.length then
    match rest with
    | [] => some []
    | c :: _ => if isBlank c then some rest else none
  else none

/-- The text around the first separator, a run of two or more dashes between blanks or
the ends.  `fresh` says that the text starts where a separator may start. -/
def cutReason? (fresh : Bool) : List Char → Option (List Char × List Char)
  | [] => none
  | c :: cs =>
    match if fresh then afterDashes? (c :: cs) else none with
    | some after => some ([], after)
    | none => (cutReason? (isBlank c) cs).map fun (before, after) => (c :: before, after)

/-- The list of rule ids and the reason of a directive's argument.  A blank reason is
no reason. -/
def splitReason (argument : List Char) : List Char × Option (List Char) :=
  match cutReason? true argument with
  | none => (argument, none)
  | some (list, after) =>
    let reason := trim after
    (list, if reason.isEmpty then none else some reason)

/-! ## The line -/

/-- The keywords of a configuration, in the order in which they are looked for. -/
def keywords (config : Config) : List (String × DirectiveKind) :=
  [(config.enablingKeyword, .enable),
   (config.disablingKeyword, .disable),
   (config.expectingKeyword, .expectError)]

/-- The directive that `argument`, the text after the keyword, belongs to. -/
def ofArgument (kind : DirectiveKind) (argument : List Char) : Directive :=
  let (list, reason) := splitReason argument
  ⟨kind, (ruleIds list).map String.ofList, reason.map String.ofList⟩

/-- Reads one line of a comment. -/
def parse? (config : Config) (line : List Char) : Option Directive :=
  (keywords config).findSome? fun (keyword, kind) =>
    (cut? keyword.toList line).map fun (_, argument) => ofArgument kind argument

end Directive

end LintDirectives
