import LintDirectives.Json.Decode
import LintDirectives.Proofs.Json.Rereading
import Mathlib.Data.List.Forall2

/-!
# What a decoder takes

For every decoder, the drafts that it takes and what it gives for them.  All decoders
are strict: they take only drafts that were read to their end (`Decode.IsStrict`).

The fields of a record are taken up one after the other; what holds of all of them is
shown by `foldlM_induction`.
-/

namespace LintDirectives.Json

/-! ## One after the other -/

theorem map_eq_ok_iff {α β : Type} {read : Except Fault α} {f : α → β} {b : β} :
    read.map f = .ok b ↔ ∃ a, read = .ok a ∧ f a = b := by
  cases read <;> simp [Except.map]

theorem map_eq_error_iff {α β : Type} {read : Except Fault α} {f : α → β} {fault : Fault} :
    read.map f = .error fault ↔ read = .error fault := by
  cases read <;> simp [Except.map]

theorem bind_eq_ok_iff {α β : Type} {read : Except Fault α} {f : α → Except Fault β} {b : β} :
    read.bind f = .ok b ↔ ∃ a, read = .ok a ∧ f a = .ok b := by
  cases read <;> simp [Except.bind]

theorem mapM_eq_ok_iff {α β : Type} {f : α → Except Fault β} {as : List α} {bs : List β} :
    as.mapM f = .ok bs ↔ List.Forall₂ (fun a b => f a = .ok b) as bs := by
  induction as generalizing bs with
  | nil => cases bs <;> simp [pure, Except.pure]
  | cons a as ih =>
    rw [List.mapM_cons]
    cases hfirst : f a with
    | error fault => cases bs <;> simp [bind, Except.bind, hfirst]
    | ok first =>
      cases hrest : as.mapM f <;> cases bs <;>
        simp [bind, Except.bind, pure, Except.pure, ← ih, hrest, hfirst]

/-- What can be read only as it was is so, one after the other. -/
theorem mapM_map_eq_ok_iff {α β : Type} {f : β → Except Fault α} {g : α → β} {P : α → Prop}
    {as bs : List α} (h : ∀ a ∈ as, ∀ b, f (g a) = .ok b ↔ b = a ∧ P a) :
    (as.map g).mapM f = .ok bs ↔ bs = as ∧ ∀ a ∈ as, P a := by
  rw [mapM_eq_ok_iff]
  induction as generalizing bs with
  | nil => simp
  | cons a as ih =>
    obtain ⟨hfirst, hrest⟩ := List.forall_mem_cons.1 h
    cases bs with
    | nil => simp
    | cons b bs =>
      rw [List.map_cons, List.forall₂_cons, hfirst, ih hrest, List.cons.injEq,
        List.forall_mem_cons]
      tauto

theorem exists_mem_of_forall₂ {α β : Type} {R : α → β → Prop} {as : List α} {bs : List β}
    (h : List.Forall₂ R as bs) {b : β} (hb : b ∈ bs) : ∃ a ∈ as, R a b := by
  induction h with
  | nil => simp at hb
  | cons hfirst _ ih => grind

section Fold

variable {α σ : Type} {f : σ → α → Except Fault σ} {as : List α} {s s' : σ}

theorem foldlM_cons_eq_ok_iff {a : α} :
    (a :: as).foldlM f s = .ok s' ↔ ∃ next, f s a = .ok next ∧ as.foldlM f next = .ok s' := by
  rw [List.foldlM_cons]
  cases f s a <;> simp [bind, Except.bind]

/-- What every step keeps holds in the end. -/
theorem foldlM_induction {P : σ → Prop} (h : as.foldlM f s = .ok s') (hs : P s)
    (hstep : ∀ a ∈ as, ∀ s next, P s → f s a = .ok next → P next) : P s' := by
  induction as generalizing s with
  | nil =>
    cases h
    exact hs
  | cons a as ih =>
    obtain ⟨next, hfirst, hrest⟩ := foldlM_cons_eq_ok_iff.1 h
    obtain ⟨hhere, hlater⟩ := List.forall_mem_cons.1 hstep
    exact ih hrest (hhere s next hs hfirst) hlater

/-- What every step asks of its item holds of all items. -/
theorem forall_mem_of_foldlM {Q : α → Prop} (h : as.foldlM f s = .ok s')
    (hstep : ∀ a s next, f s a = .ok next → Q a) : ∀ a ∈ as, Q a := by
  induction as generalizing s with
  | nil => simp
  | cons a as ih =>
    obtain ⟨next, hfirst, hrest⟩ := foldlM_cons_eq_ok_iff.1 h
    exact List.forall_mem_cons.2 ⟨hstep a s next hfirst, ih hrest⟩

end Fold

namespace Decode

variable {α : Type} {decode : Decoder α} {draft : Draft}

/-- Only drafts that were read to their end are taken. -/
def IsStrict (decode : Decoder α) : Prop :=
  ∀ draft a, decode draft = .ok a → draft.isWhole = true

theorem run_eq_ok_iff {α : Type} {decode : Decoder α} {source : String} {a : α} :
    run decode source = .ok a ↔
      (Draft.read source).2 = false ∧ decode (Draft.read source).1 = .ok a := by
  unfold run
  cases hdecode : decode (Draft.read source).1 with
  | error fault => simp [hdecode]
  | ok b => cases hfollowed : (Draft.read source).2 <;> simp [hdecode, hfollowed]

theorem stringAs_eq_ok_iff {asked : Asked} {s : String} :
    stringAs asked draft = .ok s ↔ draft = .string s := by
  cases draft <;> simp [stringAs]

theorem naturalAs_eq_ok_iff {greatest n : Nat} {asked : Asked} :
    naturalAs greatest asked draft = .ok n ↔ draft = .number (.integer n) ∧ n ≤ greatest := by
  unfold naturalAs
  split
  · next i =>
    split_ifs with hrange
    · simp only [Except.ok.injEq, Draft.number.injEq, Number.integer.injEq]
      omega
    · simp only [Draft.number.injEq, Number.integer.injEq, false_iff]
      omega
  · next hnot =>
    simp only [reduceCtorEq, false_iff, not_and]
    intro heq
    exact absurd heq (hnot n)

theorem word_eq_ok_iff {n : Nat} :
    word draft = .ok n ↔ draft = .number (.integer n) ∧ n < 2 ^ 32 := by
  have hgreatest : Nat.pow 2 32 - 1 = 2 ^ 32 - 1 := rfl
  rw [word, naturalAs_eq_ok_iff]
  exact and_congr_right fun _ => by omega

theorem optional_eq_ok_iff {o : Option α} :
    optional decode draft = .ok o ↔
      draft = .null ∧ o = none ∨ draft ≠ .null ∧ ∃ a, decode draft = .ok a ∧ o = some a := by
  cases draft <;> simp [optional, map_eq_ok_iff, @eq_comm _ o]

theorem pair_eq_ok_iff {origin : Origin} {a b : α} :
    pair origin decode draft = .ok (a, b) ↔
      ∃ first second, draft = .list [first, second] true ∧
        decode first = .ok a ∧ decode second = .ok b := by
  constructor
  · intro h
    unfold pair at h
    split at h
    · cases h
    · split at h <;> cases h
    · next first second rest complete =>
      split at h
      · cases h
      · next hfirst =>
        split at h
        · cases h
        · next hsecond =>
          split_ifs at h with hend
          · cases h
            simp only [Bool.and_eq_true, List.isEmpty_iff] at hend
            obtain ⟨rfl, rfl⟩ := hend
            exact ⟨first, second, rfl, hfirst, hsecond⟩
          · cases origin <;> cases h
    · cases h
  · rintro ⟨first, second, rfl, hfirst, hsecond⟩
    simp [pair, hfirst, hsecond]

theorem items_eq_ok_iff {complete : Bool} {drafts : List Draft} {as : List α} :
    items decode complete drafts = .ok as ↔ complete = true ∧ drafts.mapM decode = .ok as := by
  rw [mapM_eq_ok_iff]
  induction drafts generalizing as with
  | nil => cases complete <;> simp [items, eq_comm]
  | cons draft drafts ih =>
    rw [items]
    cases hfirst : decode draft with
    | error fault => cases as <;> simp [hfirst]
    | ok a =>
      simp only [map_eq_ok_iff, ih]
      cases as <;> simp [hfirst]
      tauto

theorem list_eq_ok_iff {as : List α} :
    list decode draft = .ok as ↔
      ∃ items, draft = .list items true ∧ items.mapM decode = .ok as := by
  cases draft <;> simp [list, items_eq_ok_iff, and_assoc]

/-- A written list is read as it was, if each of its items can be read. -/
theorem list_ofValue_eq_ok_iff {toValue : α → Value} {P : α → Prop} {given again : List α}
    (h : ∀ a ∈ given, ∀ b, decode (Draft.ofValue (toValue a)) = .ok b ↔ b = a ∧ P a) :
    list decode (Draft.ofValue (.list (given.map toValue))) = .ok again ↔
      again = given ∧ ∀ a ∈ given, P a := by
  rw [← mapM_map_eq_ok_iff h, list_eq_ok_iff, Draft.ofValue, Draft.ofItems_eq_map, List.map_map]
  simp [Function.comp_def]

/-- In a text a variant is its name, or a record whose only field has that name and holds
null. -/
theorem variant_text_eq_ok_iff {known : List (String × α)} {a : α} :
    variant .text known draft = .ok a ↔
      ∃ name, known.lookup name = some a ∧
        (draft = .string name ∨ draft = .record [(name, .null)] true) := by
  have hnamed (name : String) :
      variantNamed known name = .ok a ↔ known.lookup name = some a := by
    unfold variantNamed
    cases known.lookup name <;> simp
  constructor
  · intro h
    unfold variant at h
    split at h
    · next name => exact ⟨name, (hnamed name).1 h, .inl rfl⟩
    · next name content rest complete =>
      rw [if_neg (by simp)] at h
      split at h
      · cases h
      · next hread =>
        split at h
        · split_ifs at h with hend
          simp only [Bool.and_eq_true, List.isEmpty_iff] at hend
          obtain ⟨rfl, rfl⟩ := hend
          exact ⟨name, (hnamed name).1 (hread.trans h), .inr rfl⟩
        · cases h
    · cases h
  · rintro ⟨name, hname, rfl | rfl⟩
    · exact (hnamed name).2 hname
    · simp [variant, (hnamed name).2 hname]

theorem whole_eq_ok_iff {found : Draft} :
    whole draft = .ok found ↔ found = draft ∧ draft.isWhole = true := by
  unfold whole
  split_ifs with h <;> simp [h, eq_comm]

/-! ## Strictness -/

theorem isStrict_stringAs (asked : Asked) : IsStrict (stringAs asked) := by
  intro draft s h
  rw [stringAs_eq_ok_iff.1 h]
  rfl

theorem isStrict_naturalAs (greatest : Nat) (asked : Asked) :
    IsStrict (naturalAs greatest asked) := by
  intro draft n h
  rw [(naturalAs_eq_ok_iff.1 h).1]
  rfl

theorem isStrict_variant_text {known : List (String × α)} : IsStrict (variant .text known) := by
  intro draft a h
  obtain ⟨name, -, rfl | rfl⟩ := variant_text_eq_ok_iff.1 h <;> rfl

theorem IsStrict.optional (h : IsStrict decode) : IsStrict (Decode.optional decode) := by
  intro draft o hread
  rcases optional_eq_ok_iff.1 hread with ⟨rfl, -⟩ | ⟨-, a, ha, -⟩
  · rfl
  · exact h draft a ha

theorem IsStrict.pair (h : IsStrict decode) (origin : Origin) :
    IsStrict (Decode.pair origin decode) := by
  rintro draft ⟨a, b⟩ hread
  obtain ⟨first, second, rfl, hfirst, hsecond⟩ := pair_eq_ok_iff.1 hread
  simp [Draft.isWhole_list, h first a hfirst, h second b hsecond]

theorem IsStrict.list (h : IsStrict decode) : IsStrict (Decode.list decode) := by
  intro draft as hread
  obtain ⟨items, rfl, hitems⟩ := list_eq_ok_iff.1 hread
  rw [mapM_eq_ok_iff] at hitems
  rw [Draft.isWhole_list, Bool.true_and, List.all_eq_true]
  clear hread
  induction hitems with
  | nil => simp
  | cons hfirst _ ih => exact List.forall_mem_cons.2 ⟨h _ _ hfirst, ih⟩

end Decode

end LintDirectives.Json
