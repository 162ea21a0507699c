import LintDirectives.Json.Value
import Mathlib.Data.List.Induction
import Mathlib.Data.String.Basic

/-!
# Fields in order

The fields that `Fields.ofList` gives stand in the order of their names
(`isSorted_ofList`).  They are among the given fields (`mem_of_mem_ofList`) and have
the same names (`mem_names_ofList`).  Fields that stand in this order are kept as they
are (`ofList_of_isSorted`).
-/

namespace LintDirectives.Json.Fields

/-- The names of fields. -/
def names (fields : Fields) : List String :=
  fields.map (·.1)

/-- The names come in order, and each once. -/
def IsSorted (fields : Fields) : Prop :=
  fields.Pairwise fun field next => field.1 < next.1

theorem IsSorted.nodup {fields : Fields} (h : fields.IsSorted) : fields.names.Nodup :=
  List.pairwise_map.2 (h.imp fun hlt => ne_of_lt hlt)

variable {name : String} {value : Value} {fields : Fields}

theorem mem_of_mem_insert {field : String × Value} (h : field ∈ insert name value fields) :
    field = (name, value) ∨ field ∈ fields := by
  fun_induction insert name value fields with
  | case1 => simpa using h
  | case2 | case3 | case4 => grind

theorem mem_names_insert {other : String} :
    other ∈ (insert name value fields).names ↔ other = name ∨ other ∈ fields.names := by
  fun_induction insert name value fields with
  | case1 => simp [names]
  | case2 => simp_all [names]
  | case3 => simp [names]
  | case4 => simp_all [names]; grind

theorem IsSorted.insert (h : fields.IsSorted) : (Fields.insert name value fields).IsSorted := by
  fun_induction Fields.insert name value fields with
  | case1 => simp [IsSorted]
  | case2 => simpa [IsSorted] using h
  | case3 other kept rest hne hlt =>
    have hrest := List.pairwise_cons.1 h
    refine List.pairwise_cons.2 ⟨fun field hfield => ?_, h⟩
    rcases List.mem_cons.1 hfield with rfl | hfield
    · exact hlt
    · exact hlt.trans (hrest.1 field hfield)
  | case4 other kept rest hne hnot ih =>
    have hrest := List.pairwise_cons.1 h
    have hlt : other < name := lt_of_le_of_ne (not_lt.1 hnot) (Ne.symm hne)
    refine List.pairwise_cons.2 ⟨fun field hfield => ?_, ih hrest.2⟩
    rcases mem_of_mem_insert hfield with rfl | hfield
    · exact hlt
    · exact hrest.1 field hfield

/-- A name after all others goes to the end. -/
theorem insert_of_forall_lt (h : ∀ field ∈ fields, field.1 < name) :
    insert name value fields = fields ++ [(name, value)] := by
  induction fields with
  | nil => rfl
  | cons field fields ih =>
    obtain ⟨hlt, hrest⟩ := List.forall_mem_cons.1 h
    rw [insert, if_neg (ne_of_gt hlt), if_neg (not_lt_of_gt hlt), ih hrest, List.cons_append]

/-! ## Fields given in any order -/

theorem foldl_insert_induction {P : Fields → Prop} {given sorted : Fields} (hsorted : P sorted)
    (hstep : ∀ sorted, P sorted → ∀ field ∈ given, P (insert field.1 field.2 sorted)) :
    P (given.foldl (fun sorted (name, value) => insert name value sorted) sorted) := by
  induction given generalizing sorted with
  | nil => exact hsorted
  | cons field given ih =>
    rw [List.foldl_cons]
    exact ih (hstep sorted hsorted field List.mem_cons_self) fun sorted hsorted next hnext =>
      hstep sorted hsorted next (List.mem_cons_of_mem _ hnext)

theorem isSorted_ofList (given : Fields) : (ofList given).IsSorted :=
  foldl_insert_induction List.Pairwise.nil fun _ hsorted _ _ => hsorted.insert

theorem mem_of_mem_ofList {given : Fields} {field : String × Value} (h : field ∈ ofList given) :
    field ∈ given := by
  have hsub : ∀ kept ∈ ofList given, kept ∈ given :=
    foldl_insert_induction (P := fun sorted => ∀ kept ∈ sorted, kept ∈ given) (by simp)
      fun sorted hsorted next hnext kept hkept => by
        rcases mem_of_mem_insert hkept with rfl | hkept
        · exact hnext
        · exact hsorted kept hkept
  exact hsub field h

theorem mem_names_foldl_insert {given sorted : Fields} :
    name ∈ (given.foldl (fun sorted (name, value) => insert name value sorted) sorted).names ↔
      name ∈ sorted.names ∨ name ∈ given.names := by
  induction given generalizing sorted with
  | nil => simp [names]
  | cons field given ih =>
    rw [List.foldl_cons, ih, mem_names_insert]
    simp only [names, List.map_cons, List.mem_cons]
    tauto

theorem mem_names_ofList {given : Fields} : name ∈ (ofList given).names ↔ name ∈ given.names := by
  rw [ofList, mem_names_foldl_insert]
  simp [names]

/-- Fields in order are kept as they are. -/
theorem ofList_of_isSorted (h : fields.IsSorted) : ofList fields = fields := by
  induction fields using List.reverseRecOn with
  | nil => rfl
  | append_singleton fields field ih =>
    obtain ⟨hinit, -, hlast⟩ := List.pairwise_append.1 h
    rw [ofList, List.foldl_append, ← ofList, ih hinit, List.foldl_cons, List.foldl_nil]
    exact insert_of_forall_lt fun kept hkept => hlast kept hkept field (List.mem_singleton_self _)

end LintDirectives.Json.Fields
