import LintDirectives.Expectation.Store

/-!
# The store as a finite map

A store is read through `stored?`: the expectations stored for a document, if it
has any entry.  `get_eq` says what is taken out for a document in these terms,
and `stored?_insert` and `stored?_erase` what the operations do to them.

* Records.  `record` stores what a walk has found for a document, which may be
  nothing.  Of several records for one document the last is kept
  (`stored?_foldl_record`), and `erase_record` says that forgetting the document
  undoes a record.
* Stores side by side.  An operation on a document of which the first of two
  appended stores holds nothing is the operation on the second one.
* The keys.  No operation gives a document a second entry (`nodup_keys_insert`,
  `nodup_keys_erase`), so the size of a store counts documents.
-/

namespace LintDirectives.Expectation.Store

/-- What is stored for a document; `none` when it has no entry. -/
def stored? (store : Store) (key : DocumentKey) : Option (List Expectation) :=
  store.entries.lookup key

theorem get_eq (store : Store) (key : DocumentKey) :
    store.get key = (store.stored? key).getD [] := rfl

private theorem lookup_cons_eq (key : DocumentKey) (entry : DocumentKey × List Expectation)
    (entries : List (DocumentKey × List Expectation)) :
    (entry :: entries).lookup key = if key = entry.1 then some entry.2 else entries.lookup key := by
  rw [List.lookup_cons]
  by_cases h : key = entry.1
  · rw [if_pos h, beq_iff_eq.2 h]
  · rw [if_neg h, beq_eq_false_iff_ne.2 h]

private theorem lookup_put (key other : DocumentKey) (expectations : List Expectation)
    (entries : List (DocumentKey × List Expectation)) :
    (put key expectations entries).lookup other =
      if other = key then some expectations else entries.lookup other := by
  induction entries with
  | nil => rw [put, lookup_cons_eq]
  | cons entry entries ih =>
    unfold put
    split
    · next hkey =>
      rw [lookup_cons_eq, lookup_cons_eq, hkey]
      split <;> rfl
    · next hkey =>
      rw [lookup_cons_eq, lookup_cons_eq, ih]
      by_cases h : other = entry.1
      · rw [if_pos h, if_pos h, if_neg (h ▸ hkey)]
      · rw [if_neg h, if_neg h]

/-- An insertion replaces the entry of its own document and touches no other. -/
theorem stored?_insert (store : Store) (key other : DocumentKey)
    (expectations : List Expectation) :
    (store.insert key expectations).stored? other =
      if other = key then some expectations else store.stored? other :=
  lookup_put key other expectations store.entries

private theorem lookup_filter_ne (key other : DocumentKey)
    (entries : List (DocumentKey × List Expectation)) :
    (entries.filter (·.1 ≠ key)).lookup other =
      if other = key then none else entries.lookup other := by
  induction entries with
  | nil => simp
  | cons entry entries ih =>
    rw [lookup_cons_eq]
    by_cases hentry : entry.1 = key
    · rw [List.filter_cons_of_neg (by simpa using hentry), ih, hentry]
      split <;> rfl
    · rw [List.filter_cons_of_pos (by simpa using hentry), lookup_cons_eq, ih]
      by_cases hother : other = entry.1
      · rw [if_pos hother, if_pos hother, if_neg (hother ▸ hentry)]
      · rw [if_neg hother, if_neg hother]

/-- Forgetting a document removes its own entry and touches no other. -/
theorem stored?_erase (store : Store) (key other : DocumentKey) :
    (store.erase key).stored? other = if other = key then none else store.stored? other :=
  lookup_filter_ne key other store.entries

/-- A store that holds nothing for a document has no entry with its key. -/
theorem fst_ne_of_stored?_eq_none {store : Store} {key : DocumentKey}
    (h : store.stored? key = none) : ∀ entry ∈ store.entries, entry.1 ≠ key := by
  intro entry hentry heq
  have hnone := List.lookup_eq_none_iff.1 h entry hentry
  simp [heq] at hnone

/-- A store that holds nothing for any document is empty. -/
theorem eq_empty_of_stored? {store : Store} (h : ∀ key, store.stored? key = none) :
    store = .empty := by
  obtain ⟨entries⟩ := store
  cases entries with
  | nil => rfl
  | cons entry entries =>
    exact absurd rfl (fst_ne_of_stored?_eq_none (h entry.1) entry List.mem_cons_self)

theorem erase_eq_self {store : Store} {key : DocumentKey} (h : store.stored? key = none) :
    store.erase key = store := by
  obtain ⟨entries⟩ := store
  have hkept : ∀ entry ∈ entries, decide (entry.1 ≠ key) = true :=
    fun entry hentry => decide_eq_true (fst_ne_of_stored?_eq_none h entry hentry)
  rw [erase, List.filter_eq_self.2 hkept]

private theorem put_put (key : DocumentKey) (earlier later : List Expectation)
    (entries : List (DocumentKey × List Expectation)) :
    put key later (put key earlier entries) = put key later entries := by
  induction entries with
  | nil => simp [put]
  | cons entry entries ih =>
    by_cases hkey : entry.1 = key
    · simp [put, hkey]
    · simp [put, hkey, ih]

/-- The later of two insertions for a document wins. -/
theorem insert_insert (store : Store) (key : DocumentKey) (earlier later : List Expectation) :
    (store.insert key earlier).insert key later = store.insert key later :=
  congrArg Store.mk (put_put key earlier later store.entries)

private theorem filter_put (key : DocumentKey) (expectations : List Expectation)
    (entries : List (DocumentKey × List Expectation)) :
    (put key expectations entries).filter (·.1 ≠ key) = entries.filter (·.1 ≠ key) := by
  induction entries with
  | nil => simp [put]
  | cons entry entries ih =>
    unfold put
    split
    · next hkey => simp [hkey]
    · rw [List.filter_cons, List.filter_cons, ih]

theorem erase_insert (store : Store) (key : DocumentKey) (expectations : List Expectation) :
    (store.insert key expectations).erase key = store.erase key :=
  congrArg Store.mk (filter_put key expectations store.entries)

/-! ## Records -/

/-- Stores what has been found for a document, if anything. -/
def record (store : Store) (key : DocumentKey) : Option (List Expectation) → Store
  | none => store
  | some expectations => store.insert key expectations

theorem stored?_record (store : Store) (key other : DocumentKey)
    (found : Option (List Expectation)) :
    (store.record key found).stored? other =
      if other = key then found.or (store.stored? key) else store.stored? other := by
  cases found with
  | none =>
    rw [record, Option.none_or]
    split
    · next h => rw [h]
    · rfl
  | some expectations => rw [record, stored?_insert, Option.some_or]

/-- Of what is recorded under one key the last is kept. -/
theorem stored?_foldl_record {α : Type} (find : α → Option (List Expectation)) (items : List α)
    (store : Store) (key other : DocumentKey) :
    (items.foldl (fun store item => store.record key (find item)) store).stored? other =
      if other = key then (items.filterMap find).getLast?.or (store.stored? key)
      else store.stored? other := by
  induction items generalizing store with
  | nil =>
    by_cases hkey : other = key
    · simp [hkey]
    · simp [hkey]
  | cons item items ih =>
    rw [List.foldl_cons, ih, stored?_record, stored?_record, if_pos rfl]
    by_cases hkey : other = key
    · rw [if_pos hkey, if_pos hkey, ← Option.or_assoc]
      cases hitem : find item with
      | none => rw [List.filterMap_cons_none hitem, Option.or_none]
      | some found =>
        rw [List.filterMap_cons_some hitem, List.getLast?_cons]
        cases (items.filterMap find).getLast? <;> rfl
    · rw [if_neg hkey, if_neg hkey, if_neg hkey]

theorem erase_record (store : Store) (key : DocumentKey) (found : Option (List Expectation)) :
    (store.record key found).erase key = store.erase key := by
  cases found with
  | none => rfl
  | some expectations => exact erase_insert store key expectations

/-! ## Stores side by side -/

/-- The entries of one store and then those of another. -/
instance : Append Store :=
  ⟨fun store other => ⟨store.entries ++ other.entries⟩⟩

theorem append_empty (store : Store) : store ++ (.empty : Store) = store :=
  congrArg Store.mk (List.append_nil store.entries)

section Append

variable {store other : Store} {key : DocumentKey}

theorem stored?_append (h : store.stored? key = none) :
    (store ++ other).stored? key = other.stored? key := by
  have hlookup : (store.entries ++ other.entries).lookup key =
      (store.entries.lookup key).or (other.entries.lookup key) := List.lookup_append
  have hnone : store.entries.lookup key = none := h
  rw [hnone, Option.none_or] at hlookup
  exact hlookup

private theorem put_append {entries : List (DocumentKey × List Expectation)}
    (h : ∀ entry ∈ entries, entry.1 ≠ key) (expectations : List Expectation)
    (others : List (DocumentKey × List Expectation)) :
    put key expectations (entries ++ others) = entries ++ put key expectations others := by
  induction entries with
  | nil => rfl
  | cons entry entries ih =>
    rw [List.forall_mem_cons] at h
    rw [List.cons_append, put, if_neg h.1, ih h.2, List.cons_append]

theorem insert_append (h : store.stored? key = none) (expectations : List Expectation) :
    (store ++ other).insert key expectations = store ++ other.insert key expectations :=
  congrArg Store.mk (put_append (fst_ne_of_stored?_eq_none h) expectations other.entries)

theorem record_append (h : store.stored? key = none) (found : Option (List Expectation)) :
    (store ++ other).record key found = store ++ other.record key found := by
  cases found with
  | none => rfl
  | some expectations => exact insert_append h expectations

theorem erase_append (h : store.stored? key = none) :
    (store ++ other).erase key = store ++ other.erase key := by
  have hsplit : (store ++ other).erase key = store.erase key ++ other.erase key :=
    congrArg Store.mk (List.filter_append store.entries other.entries)
  rw [hsplit, erase_eq_self h]

end Append

/-! ## The keys -/

/-- The keys of the entries. -/
def keys (store : Store) : List DocumentKey :=
  store.entries.map Prod.fst

theorem length_keys (store : Store) : store.keys.length = store.size :=
  List.length_map _

theorem mem_keys_iff {store : Store} {key : DocumentKey} :
    key ∈ store.keys ↔ (store.stored? key).isSome := by
  rw [Option.isSome_iff_ne_none, ne_eq, stored?, List.lookup_eq_none_iff]
  simp [keys]

private theorem mem_map_fst_put {key other : DocumentKey} {expectations : List Expectation}
    {entries : List (DocumentKey × List Expectation)}
    (h : other ∈ (put key expectations entries).map Prod.fst) :
    other = key ∨ other ∈ entries.map Prod.fst := by
  induction entries with
  | nil => exact .inl (by simpa [put] using h)
  | cons entry entries ih =>
    rw [put] at h
    split at h
    · next hkey => simpa [hkey] using h
    · rw [List.map_cons, List.mem_cons] at h ⊢
      rcases h with h | h
      · exact .inr (.inl h)
      · exact (ih h).imp_right .inr

/-- An insertion repeats no key. -/
theorem nodup_keys_insert {store : Store} (h : store.keys.Nodup) (key : DocumentKey)
    (expectations : List Expectation) : (store.insert key expectations).keys.Nodup := by
  obtain ⟨entries⟩ := store
  simp only [keys, insert] at h ⊢
  induction entries with
  | nil => simp [put]
  | cons entry entries ih =>
    rw [List.map_cons, List.nodup_cons] at h
    rw [put]
    split
    · next hkey => rw [List.map_cons, List.nodup_cons]; exact hkey ▸ h
    · next hkey =>
      rw [List.map_cons, List.nodup_cons]
      refine ⟨fun hmem => ?_, ih h.2⟩
      rcases mem_map_fst_put hmem with heq | hmem
      · exact hkey heq
      · exact h.1 hmem

/-- Forgetting a document repeats no key. -/
theorem nodup_keys_erase {store : Store} (h : store.keys.Nodup) (key : DocumentKey) :
    (store.erase key).keys.Nodup :=
  h.sublist (List.filter_sublist.map Prod.fst)

theorem isEmpty_iff (store : Store) : store.isEmpty = true ↔ store.size = 0 :=
  List.isEmpty_iff_length_eq_zero

end LintDirectives.Expectation.Store
