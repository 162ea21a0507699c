import LintDirectives.Json.Fault

/-!
# Decoding JSON

Readers of drafts.  Each takes what it asks for or says what it met instead, and
all of them go from left to right, so that the first fault of a text is the one
that is reported.

A draft comes from a text or from a value that was read before.  The two differ
in what is said of a list that is too long, and in how a variant may be written.
-/

namespace LintDirectives.Json

/-- Where a draft comes from. -/
inductive Origin where
  /-- A text that is being read. -/
  | text
  /-- A value that has been read. -/
  | value
deriving DecidableEq, Repr

/-- A reader of drafts. -/
abbrev Decoder (α : Type) := Draft → Except Fault α

namespace Decode

/-- Reads a string, which is asked for as `asked`. -/
def stringAs (asked : Asked) : Decoder String
  | .string s => .ok s
  | draft => .error (.mismatch draft asked)

/-- Reads a string. -/
def string : Decoder String :=
  stringAs .string

/-- Reads a whole number up to `greatest`, which is asked for as `asked`. -/
def naturalAs (greatest : Nat) (asked : Asked) : Decoder Nat
  | .number (.integer n) =>
    if 0 ≤ n ∧ n ≤ greatest then .ok n.toNat
    else .error (.wrongValue (.number (.integer n)) asked)
  | draft => .error (.mismatch draft asked)

/-- Reads a whole number of 32 bits. -/
def word : Decoder Nat :=
  naturalAs (Nat.pow 2 32 - 1) .word

/-- Reads a whole number of 8 bits. -/
def byte : Decoder Nat :=
  naturalAs (Nat.pow 2 8 - 1) .byte

/-- Reads null, or what `decode` reads. -/
def optional {α : Type} (decode : Decoder α) : Decoder (Option α)
  | .null => .ok none
  | draft => (decode draft).map some

/-- Reads the items of a list, to its end. -/
def items {α : Type} (decode : Decoder α) (complete : Bool) : List Draft → Except Fault (List α)
  | [] => if complete then .ok [] else .error .malformed
  | item :: rest =>
    match decode item with
    | .error fault => .error fault
    | .ok a => (items decode complete rest).map (a :: ·)

/-- Reads a list. -/
def list {α : Type} (decode : Decoder α) : Decoder (List α)
  | .list drafts complete => items decode complete drafts
  | draft => .error (.mismatch draft .list)

/-- The fault of a list of two that ends after `length` items. -/
def endsAfter (length : Nat) (complete : Bool) : Fault :=
  if complete then .tooShort length else .malformed

/-- Reads a list of two. -/
def pair {α : Type} (origin : Origin) (decode : Decoder α) : Decoder (α × α)
  | .list [] complete => .error (endsAfter 0 complete)
  | .list [first] complete =>
    match decode first with
    | .error fault => .error fault
    | .ok _ => .error (endsAfter 1 complete)
  | .list (first :: second :: rest) complete =>
    match decode first with
    | .error fault => .error fault
    | .ok a =>
      match decode second with
      | .error fault => .error fault
      | .ok b =>
        if rest.isEmpty && complete then .ok (a, b)
        else match origin with
          | .text => .error .malformed
          | .value => .error (.tooLong (rest.length + 2))
  | draft => .error (.mismatch draft .pair)

/-- Takes any value as it is. -/
def whole : Decoder Draft := fun draft =>
  if draft.isWhole then .ok draft else .error .malformed

/-- The variant that a name stands for. -/
def variantNamed {α : Type} (known : List (String × α)) (name : String) : Except Fault α :=
  match known.lookup name with
  | some a => .ok a
  | none => .error (.unknownVariant name (known.map (·.1)))

/-- Reads a variant: its name, or a record whose only field has that name and holds null. -/
def variant {α : Type} (origin : Origin) (known : List (String × α)) : Decoder α
  | .string name => variantNamed known name
  | .record ((name, content) :: rest) complete =>
    if origin = .value && !rest.isEmpty then .error (.wrongValue .record .singleField)
    else
      match variantNamed known name with
      | .error fault => .error fault
      | .ok a =>
        match content with
        | .null => if rest.isEmpty && complete then .ok a else .error .malformed
        | draft => .error (.mismatch draft .nothing)
  | draft =>
    match origin, Found.ofDraft? draft with
    | .text, _ => .error .malformed
    | .value, some .record => .error (.wrongValue .record .singleField)
    | .value, some found => .error (.wrongKind found .variant)
    | .value, none => .error .malformed

/-- Reads a whole text. -/
def run {α : Type} (decode : Decoder α) (text : String) : Except Fault α :=
  let (draft, followed) := Draft.read text
  match decode draft with
  | .error fault => .error fault
  | .ok a => if followed then .error .malformed else .ok a

end Decode

end LintDirectives.Json
