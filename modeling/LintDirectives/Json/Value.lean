import LintDirectives.Json.Number

/-!
# JSON values

A value holds its fields in a list.  The fields that `Fields.insert` builds are
sorted by the code points of their names and hold each name once; the last value
given to a name wins.
-/

namespace LintDirectives.Json

/-- A JSON value. -/
inductive Value where
  | null
  | bool (value : Bool)
  | number (value : Number)
  | string (value : String)
  | list (items : List Value)
  | record (fields : List (String × Value))
deriving Inhabited

/-- Fields of a value, by name. -/
abbrev Fields := List (String × Value)

namespace Fields

/-- Gives `value` to `name`. -/
def insert (name : String) (value : Value) : Fields → Fields
  | [] => [(name, value)]
  | (other, kept) :: rest =>
    if name = other then (name, value) :: rest
    else if name < other then (name, value) :: (other, kept) :: rest
    else (other, kept) :: insert name value rest

/-- The value of `name`. -/
def get? (name : String) (fields : Fields) : Option Value :=
  fields.lookup name

/-- Fields in the order of their names, given in any order. -/
def ofList (fields : List (String × Value)) : Fields :=
  fields.foldl (fun sorted (name, value) => insert name value sorted) []

end Fields

namespace Value

/-- An integer as a value. -/
def int (n : Int) : Value :=
  .number (.integer n)

/-- A natural number as a value. -/
def nat (n : Nat) : Value :=
  int n

/-- A value, or null. -/
def ofOption {α : Type} (f : α → Value) : Option α → Value
  | none => .null
  | some a => f a

/-- The value of a field, when the value is a record that has it. -/
def field? (name : String) : Value → Option Value
  | .record fields => Fields.get? name fields
  | _ => none

end Value

end LintDirectives.Json
