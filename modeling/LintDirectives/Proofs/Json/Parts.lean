import LintDirectives.Json.Value

/-!
# The parts of a value

A condition on a value is mostly a condition on everything in it: `Value.Every`
says that it holds of the value and of all values within it.  `Value.depth` is the
number of lists and records around the innermost value.

`Value.inductionOn` is the induction that later modules use: what holds of a list
or record follows from what holds of each of its items or fields.
-/

namespace LintDirectives.Json.Value

mutual

/-- A value and the values within it. -/
def parts : Value → List Value
  | list items => list items :: partsOfItems items
  | record fields => record fields :: partsOfFields fields
  | value => [value]

/-- The parts of all items. -/
def partsOfItems : List Value → List Value
  | [] => []
  | item :: items => parts item ++ partsOfItems items

/-- The parts of the values of all fields. -/
def partsOfFields : List (String × Value) → List Value
  | [] => []
  | (_, value) :: fields => parts value ++ partsOfFields fields

end

mutual

/-- How deep lists and records nest in a value. -/
def depth : Value → Nat
  | list items => depthOfItems items + 1
  | record fields => depthOfFields fields + 1
  | _ => 0

/-- The depth of the deepest item. -/
def depthOfItems : List Value → Nat
  | [] => 0
  | item :: items => max (depth item) (depthOfItems items)

/-- The depth of the deepest value of a field. -/
def depthOfFields : List (String × Value) → Nat
  | [] => 0
  | (_, value) :: fields => max (depth value) (depthOfFields fields)

end

/-- `P` holds of every part of a value. -/
def Every (P : Value → Prop) (value : Value) : Prop :=
  ∀ part ∈ value.parts, P part

@[elab_as_elim]
theorem inductionOn {motive : Value → Prop} (value : Value) (null : motive .null)
    (bool : ∀ b, motive (.bool b)) (number : ∀ n, motive (.number n))
    (string : ∀ s, motive (.string s))
    (list : ∀ items, (∀ item ∈ items, motive item) → motive (.list items))
    (record : ∀ fields, (∀ field ∈ fields, motive field.2) → motive (.record fields)) :
    motive value := by
  match value with
  | .null => exact null
  | .bool b => exact bool b
  | .number n => exact number n
  | .string s => exact string s
  | .list items =>
    exact list items fun item _ => inductionOn item null bool number string list record
  | .record fields =>
    exact record fields fun (_, item) _ => inductionOn item null bool number string list record
termination_by sizeOf value
decreasing_by
  · next hitem =>
    have := List.sizeOf_lt_of_mem hitem
    simp only [Value.list.sizeOf_spec]
    omega
  · next hfield =>
    have := List.sizeOf_lt_of_mem hfield
    simp only [Value.record.sizeOf_spec, Prod.mk.sizeOf_spec] at this ⊢
    omega

variable {P Q : Value → Prop} {items : List Value} {fields : List (String × Value)}

theorem Every.mono {value : Value} (h : value.Every P) (hsub : ∀ part, P part → Q part) :
    value.Every Q :=
  fun part hpart => hsub part (h part hpart)

theorem Every.and {value : Value} (hp : value.Every P) (hq : value.Every Q) :
    value.Every fun part => P part ∧ Q part :=
  fun part hpart => ⟨hp part hpart, hq part hpart⟩

theorem forall_mem_partsOfItems :
    (∀ part ∈ partsOfItems items, P part) ↔ ∀ item ∈ items, item.Every P := by
  induction items with
  | nil => simp [partsOfItems]
  | cons item items ih =>
    rw [partsOfItems, List.forall_mem_append, List.forall_mem_cons, ih]
    rfl

theorem forall_mem_partsOfFields :
    (∀ part ∈ partsOfFields fields, P part) ↔ ∀ field ∈ fields, field.2.Every P := by
  induction fields with
  | nil => simp [partsOfFields]
  | cons field fields ih =>
    rw [partsOfFields, List.forall_mem_append, List.forall_mem_cons, ih]
    rfl

theorem every_list :
    (list items).Every P ↔ P (list items) ∧ ∀ item ∈ items, item.Every P := by
  rw [Every, parts, List.forall_mem_cons, forall_mem_partsOfItems]

theorem every_record :
    (record fields).Every P ↔ P (record fields) ∧ ∀ field ∈ fields, field.2.Every P := by
  rw [Every, parts, List.forall_mem_cons, forall_mem_partsOfFields]

@[simp] theorem every_null : null.Every P ↔ P null := by simp [Every, parts]

@[simp] theorem every_bool {b : Bool} : (bool b).Every P ↔ P (bool b) := by simp [Every, parts]

@[simp] theorem every_number {n : Number} : (number n).Every P ↔ P (number n) := by
  simp [Every, parts]

@[simp] theorem every_string {s : String} : (string s).Every P ↔ P (string s) := by
  simp [Every, parts]

theorem depthOfItems_le_iff {bound : Nat} :
    depthOfItems items ≤ bound ↔ ∀ item ∈ items, item.depth ≤ bound := by
  induction items with
  | nil => simp [depthOfItems]
  | cons item items ih => rw [depthOfItems, Nat.max_le, List.forall_mem_cons, ih]

theorem depthOfFields_le_iff {bound : Nat} :
    depthOfFields fields ≤ bound ↔ ∀ field ∈ fields, field.2.depth ≤ bound := by
  induction fields with
  | nil => simp [depthOfFields]
  | cons field fields ih => rw [depthOfFields, Nat.max_le, List.forall_mem_cons, ih]

end LintDirectives.Json.Value
