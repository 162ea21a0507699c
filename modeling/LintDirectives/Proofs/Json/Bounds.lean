import LintDirectives.Json.Draft
import Mathlib.Algebra.Ring.Int.Defs
import Mathlib.Tactic.SplitIfs

/-!
# The numbers of a text

An integer that is read from a text fits 64 bits (`isBounded_read`).  This holds of
the tokens of the text, and reading tokens puts no other numbers into a draft.
-/

namespace LintDirectives.Json

/-- The number fits 64 bits, if it is an integer. -/
def Number.IsBounded (number : Number) : Prop :=
  ∀ n : Int, number = .integer n → -(2 ^ 63 : Int) ≤ n ∧ n < 2 ^ 64

/-! ## Tokens -/

namespace Token

theorem isBounded_of_number? {text : NumberText} {number : Number}
    (h : text.number? = some number) : number.IsBounded := by
  have hlimit : NumberText.limit = 2 ^ 64 - 1 := rfl
  have hlow : Nat.pow 2 63 = 2 ^ 63 := rfl
  rintro n rfl
  simp only [NumberText.number?] at h
  split_ifs at h with hnatural hnegative
  · simp only [Option.some.injEq, Number.integer.injEq, Bool.and_eq_true,
      decide_eq_true_eq] at h hnatural
    omega
  · simp only [Option.some.injEq, Number.integer.injEq, Bool.and_eq_true,
      decide_eq_true_eq] at h hnegative
    omega
  · obtain ⟨x, -, hfloat⟩ := Option.map_eq_some_iff.1 h
    contradiction

theorem isBounded_of_unsigned? {negative : Bool} {text after : List Char} {number : Number}
    (h : unsigned? negative text = some (number, after)) : number.IsBounded := by
  unfold unsigned? at h
  dsimp only at h
  split at h
  · contradiction
  · obtain ⟨_, -, h⟩ := Option.bind_eq_some_iff.1 h
    obtain ⟨_, -, h⟩ := Option.bind_eq_some_iff.1 h
    obtain ⟨found, hfound, heq⟩ := Option.map_eq_some_iff.1 h
    obtain ⟨rfl, -⟩ := Prod.mk.inj heq
    exact isBounded_of_number? hfound

theorem isBounded_of_start? {c : Char} {rest after : List Char} {n : Number}
    (h : start? c rest = some (number n, after)) : n.IsBounded := by
  unfold start? at h
  split at h
  all_goals first
    | cases h
    | (obtain ⟨found, hfound, heq⟩ := Option.map_eq_some_iff.1 h
       cases heq <;> exact isBounded_of_unsigned? hfound)

/-- The token is no number that is out of bounds. -/
def IsBounded : Token → Prop
  | number n => n.IsBounded
  | _ => True

theorem isBounded_of_mem_tokens {text : List Char} : ∀ token ∈ tokens text, token.IsBounded := by
  fun_induction tokens text with
  | case1 => simp
  | case2 c rest hspace ih => exact ih
  | case3 c rest hspace hnone => simp [IsBounded]
  | case4 c rest hspace token after hsome hlt ih =>
    refine List.forall_mem_cons.2 ⟨?_, ih⟩
    cases token with
    | number n => exact isBounded_of_start? hsome
    | _ => trivial

end Token

/-! ## Drafts -/

/-- No number of the draft is out of bounds. -/
inductive Draft.IsBounded : Draft → Prop
  | null : null.IsBounded
  | bool (b : Bool) : (bool b).IsBounded
  | number {n : Number} (h : n.IsBounded) : (number n).IsBounded
  | string (s : String) : (string s).IsBounded
  | list {items : List Draft} (complete : Bool) (h : ∀ item ∈ items, item.IsBounded) :
    (list items complete).IsBounded
  | record {fields : List (String × Draft)} (complete : Bool)
    (h : ∀ field ∈ fields, field.2.IsBounded) : (record fields complete).IsBounded
  | broken : broken.IsBounded

namespace OpenDraft

/-- No number of what has been read is out of bounds. -/
def IsBounded : OpenDraft → Prop
  | list items => ∀ item ∈ items, item.IsBounded
  | record fields _ => ∀ field ∈ fields, field.2.IsBounded

variable {opened : OpenDraft}

theorem IsBounded.add (h : opened.IsBounded) {value : Draft} (hvalue : value.IsBounded) :
    (opened.add value).IsBounded := by
  cases opened with
  | list items => exact List.forall_mem_cons.2 ⟨hvalue, h⟩
  | record fields name =>
    cases name with
    | none => exact h
    | some name => exact List.forall_mem_cons.2 ⟨hvalue, h⟩

theorem IsBounded.toDraft (h : opened.IsBounded) (complete : Bool) :
    (opened.toDraft complete).IsBounded := by
  cases opened with
  | list items => exact .list complete fun item hitem => h item (List.mem_reverse.1 hitem)
  | record fields name =>
    cases name with
    | none => exact .record complete fun field hfield => h field (List.mem_reverse.1 hfield)
    | some name =>
      refine .record complete fun field hfield => ?_
      rcases List.mem_cons.1 (List.mem_reverse.1 hfield) with rfl | hfield
      · exact .broken
      · exact h field hfield

end OpenDraft

namespace Reader

/-- No number of what has been read is out of bounds. -/
def IsBounded : Reader → Prop
  | reading outer _ => ∀ opened ∈ outer, opened.IsBounded
  | finished draft _ => draft.IsBounded
  | failed draft => draft.IsBounded

variable {outer : List OpenDraft}

/-- What is left of a text that is given up is put together from the innermost part outwards. -/
theorem abandon_induction {P : Draft → Prop} (hbroken : P .broken)
    (hinner : ∀ opened ∈ outer, P (opened.toDraft false))
    (hstep : ∀ opened ∈ outer, ∀ draft, P draft → P ((opened.add draft).toDraft false)) :
    P (abandon outer) := by
  cases outer with
  | nil => exact hbroken
  | cons innermost outer =>
    rw [abandon]
    have hpart : P (innermost.toDraft false) := hinner innermost List.mem_cons_self
    have houter := (List.forall_mem_cons.1 hstep).2
    generalize innermost.toDraft false = draft at hpart ⊢
    clear hinner hstep
    induction outer generalizing draft with
    | nil => exact hpart
    | cons next outer ih =>
      obtain ⟨hnext, houter⟩ := List.forall_mem_cons.1 houter
      exact ih houter _ (hnext draft hpart)

theorem isBounded_abandon (h : ∀ opened ∈ outer, opened.IsBounded) : (abandon outer).IsBounded :=
  abandon_induction .broken (fun opened hopened => (h opened hopened).toDraft false)
    fun opened hopened _ hdraft => ((h opened hopened).add hdraft).toDraft false

theorem isBounded_afterValue (h : ∀ opened ∈ outer, opened.IsBounded) {draft : Draft}
    (hdraft : draft.IsBounded) : (afterValue draft outer).IsBounded := by
  cases outer with
  | nil => exact hdraft
  | cons innermost outer =>
    obtain ⟨hinner, houter⟩ := List.forall_mem_cons.1 h
    exact List.forall_mem_cons.2 ⟨hinner.add hdraft, houter⟩

theorem isBounded_push (h : ∀ opened ∈ outer, opened.IsBounded) {opened : OpenDraft}
    (hopened : opened.IsBounded) (awaited : Awaited) : (push outer opened awaited).IsBounded := by
  unfold push
  split
  · exact List.forall_mem_cons.2 ⟨hopened, h⟩
  · exact isBounded_abandon h

theorem isBounded_value (h : ∀ opened ∈ outer, opened.IsBounded) {token : Token}
    (htoken : token.IsBounded) : (value outer token).IsBounded := by
  cases token with
  | null => exact isBounded_afterValue h .null
  | bool b => exact isBounded_afterValue h (.bool b)
  | number n => exact isBounded_afterValue h (.number htoken)
  | string s => exact isBounded_afterValue h (.string s)
  | openList => exact isBounded_push h (by simp [OpenDraft.IsBounded]) _
  | openRecord => exact isBounded_push h (by simp [OpenDraft.IsBounded]) _
  | _ => exact isBounded_abandon h

theorem isBounded_name (h : ∀ opened ∈ outer, opened.IsBounded) (token : Token) :
    (name outer token).IsBounded := by
  unfold name
  split
  · obtain ⟨hinner, houter⟩ := List.forall_mem_cons.1 h
    exact List.forall_mem_cons.2 ⟨hinner, houter⟩
  · exact isBounded_abandon h

/-- The innermost list or record is closed. -/
theorem isBounded_close {opened : OpenDraft} (h : ∀ other ∈ opened :: outer, other.IsBounded) :
    (afterValue (opened.toDraft true) outer).IsBounded := by
  obtain ⟨hinner, houter⟩ := List.forall_mem_cons.1 h
  exact isBounded_afterValue houter (hinner.toDraft true)

theorem isBounded_step {reader : Reader} (h : reader.IsBounded) {token : Token}
    (htoken : token.IsBounded) : (reader.step token).IsBounded := by
  cases reader with
  | finished draft followed => exact h
  | failed draft => exact h
  | reading outer awaited =>
    cases awaited with
    | value => exact isBounded_value h htoken
    | name => exact isBounded_name h token
    | firstItem =>
      unfold step
      dsimp only
      split
      · exact isBounded_close h
      · exact isBounded_value h htoken
    | firstName =>
      unfold step
      dsimp only
      split
      · exact isBounded_close h
      · exact isBounded_name h token
    | colon =>
      unfold step
      dsimp only
      split
      · exact h
      · exact isBounded_abandon h
    | separator =>
      unfold step
      dsimp only
      split
      · exact h
      · exact h
      · exact isBounded_close h
      · exact isBounded_close h
      · exact isBounded_abandon h

theorem isBounded_foldl_step {reader : Reader} (h : reader.IsBounded) {ts : List Token}
    (hts : ∀ token ∈ ts, token.IsBounded) : (ts.foldl step reader).IsBounded := by
  induction ts generalizing reader with
  | nil => exact h
  | cons token ts ih =>
    obtain ⟨htoken, hts⟩ := List.forall_mem_cons.1 hts
    exact ih (isBounded_step h htoken) hts

theorem isBounded_result {reader : Reader} (h : reader.IsBounded) :
    reader.result.1.IsBounded := by
  cases reader with
  | reading outer awaited => exact isBounded_abandon h
  | finished draft followed => exact h
  | failed draft => exact h

end Reader

theorem Draft.isBounded_read (text : String) : (Draft.read text).1.IsBounded :=
  Reader.isBounded_result
    (Reader.isBounded_foldl_step (by simp [Reader.start, Reader.IsBounded])
      Token.isBounded_of_mem_tokens)

end LintDirectives.Json
