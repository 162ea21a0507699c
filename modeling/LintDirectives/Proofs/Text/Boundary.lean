import LintDirectives.Text.Measure
import Mathlib.Algebra.GroupWithZero.Nat
import Mathlib.Order.Bounds.Defs

/-!
# Character boundaries

A place in a text is named by the part of the text before it.  Its byte offset
and its UTF-16 offset are two sizes of that part, and since every character has
some size in either unit, both tell the places of a text apart and put them in
the same order.

There are four groups.

* Sizes.  Among the starts of one text, `prefix_iff_byteLength_le` and
  `prefix_iff_unitLength_le` read the order off the size.
* Cuts.  A text is cut between two of its parts by the size of the first one, and
  nowhere else (`dropBytes?_eq_some_iff`, `takeBytes?_eq_some_iff`,
  `slice?_eq_some_iff`).
* The longest start that fits.  `startWithin` is the list of characters whose
  sizes `bytesWithin` and `unitsWithin` are.  A start fits into a budget
  exactly when it is a start of that list.
* Boundaries.  `IsBoundary` says that a byte offset belongs to a place.
  `isGreatest_floorBoundary` rounds any byte offset down to one that does, and
  `le_floorBoundary_iff` compares other boundaries with that one.
-/

namespace LintDirectives.Text

/-! ## Sizes -/

theorem byteLength_eq_sum (text : List Char) :
    byteLength text = (text.map Char.utf8Size).sum := by
  induction text with
  | nil => rfl
  | cons c cs ih => rw [byteLength_cons, List.map_cons, List.sum_cons, ih]

theorem unitLength_eq_sum (text : List Char) : unitLength text = (text.map units).sum := by
  induction text with
  | nil => rfl
  | cons c cs ih => rw [unitLength_cons, List.map_cons, List.sum_cons, ih]

/-- A string occupies the bytes of its characters. -/
theorem utf8ByteSize_eq (text : String) : text.utf8ByteSize = byteLength text.toList := by
  obtain ⟨chars, rfl⟩ : ∃ chars, text = String.ofList chars := ⟨_, text.ofList_toList.symm⟩
  rw [String.toList_ofList]
  induction chars with
  | nil => rfl
  | cons c cs ih =>
    have hsplit : String.ofList (c :: cs) = String.singleton c ++ String.ofList cs := by
      rw [String.singleton_eq_ofList, ← String.ofList_append, List.singleton_append]
    rw [hsplit, String.utf8ByteSize_append, String.utf8ByteSize_singleton, ih, byteLength_cons]

theorem unitLength_le_byteLength (text : List Char) : unitLength text ≤ byteLength text := by
  induction text with
  | nil => exact Nat.le_refl 0
  | cons c cs ih =>
    rw [unitLength_cons, byteLength_cons]
    exact Nat.add_le_add (units_le_utf8Size c) ih

theorem length_le_unitLength (text : List Char) : text.length ≤ unitLength text := by
  induction text with
  | nil => exact Nat.le_refl 0
  | cons c cs ih =>
    have hpos := units_pos c
    rw [List.length_cons, unitLength_cons]
    omega

section Prefix

variable {size : Char → Nat} {xs ys text : List Char}

/-- A start of a list has at most the size of the list. -/
theorem sum_le_of_isPrefix (size : Char → Nat) (h : xs <+: ys) :
    (xs.map size).sum ≤ (ys.map size).sum := by
  obtain ⟨zs, rfl⟩ := h
  rw [List.map_append, List.sum_append]
  exact Nat.le_add_right _ _

/-- Where every character has a size, the smaller of two starts of a text is a start of the
larger one. -/
theorem prefix_iff_sum_le (hsize : ∀ c, 0 < size c) (hx : xs <+: text) (hy : ys <+: text) :
    xs <+: ys ↔ (xs.map size).sum ≤ (ys.map size).sum := by
  refine ⟨sum_le_of_isPrefix size, fun hle => ?_⟩
  rcases List.prefix_or_prefix_of_prefix hx hy with h | ⟨zs, rfl⟩
  · exact h
  · cases zs with
    | nil => simp
    | cons c cs =>
      have hpos := hsize c
      simp only [List.map_append, List.map_cons, List.sum_append, List.sum_cons] at hle
      omega

theorem prefix_iff_byteLength_le (hx : xs <+: text) (hy : ys <+: text) :
    xs <+: ys ↔ byteLength xs ≤ byteLength ys := by
  rw [byteLength_eq_sum, byteLength_eq_sum]
  exact prefix_iff_sum_le Char.utf8Size_pos hx hy

theorem prefix_iff_unitLength_le (hx : xs <+: text) (hy : ys <+: text) :
    xs <+: ys ↔ unitLength xs ≤ unitLength ys := by
  rw [unitLength_eq_sum, unitLength_eq_sum]
  exact prefix_iff_sum_le units_pos hx hy

end Prefix

/-! ## Cuts -/

/-- A cut at the end of a first part gives the first part. -/
theorem takeBytes?_append (xs ys : List Char) : takeBytes? (byteLength xs) (xs ++ ys) = some xs := by
  induction xs with
  | nil => simp [takeBytes?]
  | cons c cs ih =>
    have hpos := c.utf8Size_pos
    obtain ⟨n, hn⟩ : ∃ n, c.utf8Size + byteLength cs = n + 1 :=
      ⟨c.utf8Size + byteLength cs - 1, by omega⟩
    simp only [byteLength_cons, List.cons_append, hn, takeBytes?]
    rw [if_pos (by omega), show n + 1 - c.utf8Size = byteLength cs by omega, ih, Option.map_some]

/-- A part of a text is the slice between its two ends. -/
theorem slice?_append (before part after : List Char) :
    slice? (before ++ (part ++ after)) (byteLength before) (byteLength before + byteLength part) =
      some part := by
  rw [slice?, if_pos (Nat.le_add_right _ _), dropBytes?_append, Option.bind_some,
    Nat.add_sub_cancel_left, takeBytes?_append]

theorem dropBytes?_eq_some_iff {n : Nat} {text rest : List Char} :
    dropBytes? n text = some rest ↔ ∃ before, before ++ rest = text ∧ byteLength before = n := by
  constructor
  · intro h
    fun_induction dropBytes? n text with
    | case1 text => exact ⟨[], Option.some.inj h.symm, rfl⟩
    | case2 => cases h
    | case3 n c cs hfits ih =>
      obtain ⟨before, rfl, hbefore⟩ := ih h
      exact ⟨c :: before, rfl, by rw [byteLength_cons]; omega⟩
    | case4 => cases h
  · rintro ⟨before, rfl, rfl⟩
    exact dropBytes?_append before rest

theorem takeBytes?_eq_some_iff {n : Nat} {text front : List Char} :
    takeBytes? n text = some front ↔ front <+: text ∧ byteLength front = n := by
  constructor
  · intro h
    fun_induction takeBytes? n text generalizing front with
    | case1 text =>
      obtain rfl := Option.some.inj h
      exact ⟨List.nil_prefix, rfl⟩
    | case2 => cases h
    | case3 n c cs hfits ih =>
      obtain ⟨inner, hinner, rfl⟩ := Option.map_eq_some_iff.1 h
      obtain ⟨hstart, hlength⟩ := ih hinner
      exact ⟨List.cons_prefix_cons.2 ⟨rfl, hstart⟩, by rw [byteLength_cons]; omega⟩
    | case4 => cases h
  · rintro ⟨⟨rest, rfl⟩, rfl⟩
    exact takeBytes?_append front rest

theorem slice?_eq_some_iff {start stop : Nat} {text part : List Char} :
    slice? text start stop = some part ↔
      ∃ before after, before ++ (part ++ after) = text ∧ byteLength before = start ∧
        byteLength before + byteLength part = stop := by
  constructor
  · intro h
    rw [slice?] at h
    split at h
    · next hle =>
      obtain ⟨rest, hdrop, htake⟩ := Option.bind_eq_some_iff.1 h
      obtain ⟨before, rfl, rfl⟩ := dropBytes?_eq_some_iff.1 hdrop
      obtain ⟨⟨after, rfl⟩, hlength⟩ := takeBytes?_eq_some_iff.1 htake
      exact ⟨before, after, rfl, rfl, by omega⟩
    · cases h
  · rintro ⟨before, after, rfl, rfl, rfl⟩
    exact slice?_append before part after

/-! ## The longest start that fits -/

/-- The longest start of a text whose characters together have at most the size `budget`. -/
def startWithin (size : Char → Nat) (budget : Nat) : List Char → List Char
  | [] => []
  | c :: cs => if size c ≤ budget then c :: startWithin size (budget - size c) cs else []

section StartWithin

variable (size : Char → Nat) (budget : Nat) {before text : List Char}

theorem isPrefix_startWithin (text : List Char) : startWithin size budget text <+: text := by
  induction text generalizing budget with
  | nil => exact List.prefix_rfl
  | cons c cs ih =>
    unfold startWithin
    split
    · exact List.cons_prefix_cons.2 ⟨rfl, ih (budget - size c)⟩
    · exact List.nil_prefix

/-- A start of a text fits into a budget when it is a start of the longest one that does. -/
theorem prefix_startWithin_iff (h : before <+: text) :
    before <+: startWithin size budget text ↔ (before.map size).sum ≤ budget := by
  induction text generalizing before budget with
  | nil =>
    obtain rfl := List.prefix_nil.1 h
    simp [startWithin]
  | cons c cs ih =>
    cases before with
    | nil => simp
    | cons d ds =>
      obtain ⟨rfl, hds⟩ := List.cons_prefix_cons.1 h
      rw [List.map_cons, List.sum_cons, startWithin]
      split
      · next hfits =>
        have hrest := ih (budget - size d) hds
        rw [List.cons_prefix_cons, and_iff_right rfl, hrest]
        omega
      · next hfits =>
        rw [List.prefix_nil]
        simp only [List.cons_ne_nil, false_iff]
        omega

/-- A start of a text is the longest one of its own size. -/
theorem startWithin_sum (hsize : ∀ c, 0 < size c) (h : before <+: text) :
    startWithin size (before.map size).sum text = before := by
  have hstart := isPrefix_startWithin size (before.map size).sum text
  have hle := (prefix_startWithin_iff size (before.map size).sum hstart).1 List.prefix_rfl
  have hshort := (prefix_iff_sum_le hsize hstart h).2 hle
  have hlong := (prefix_startWithin_iff size (before.map size).sum h).2 (Nat.le_refl _)
  exact hshort.eq_of_length_le hlong.length_le

/-- What fits into more than a whole first part is that part and what fits beside it. -/
theorem startWithin_append {xs : List Char} {budget : Nat} (h : (xs.map size).sum ≤ budget)
    (ys : List Char) :
    startWithin size budget (xs ++ ys) = xs ++ startWithin size (budget - (xs.map size).sum) ys := by
  induction xs generalizing budget with
  | nil => rfl
  | cons c cs ih =>
    rw [List.map_cons, List.sum_cons] at h
    rw [List.cons_append, startWithin, if_pos (by omega), ih (by omega), List.map_cons,
      List.sum_cons, Nat.sub_add_eq, List.cons_append]

theorem bytesWithin_eq (text : List Char) :
    bytesWithin budget text = byteLength (startWithin units budget text) := by
  induction text generalizing budget with
  | nil => rfl
  | cons c cs ih =>
    unfold bytesWithin startWithin
    split
    · rw [byteLength_cons, ih]
    · rfl

theorem unitsWithin_eq (text : List Char) :
    unitsWithin budget text = unitLength (startWithin Char.utf8Size budget text) := by
  induction text generalizing budget with
  | nil => rfl
  | cons c cs ih =>
    unfold unitsWithin startWithin
    split
    · rw [unitLength_cons, ih]
    · rfl

end StartWithin

section Within

variable {before text : List Char}

/-- The bytes that fit into a budget of code units are enough for a start of the text when
the budget is. -/
theorem byteLength_le_bytesWithin_iff (h : before <+: text) {budget : Nat} :
    byteLength before ≤ bytesWithin budget text ↔ unitLength before ≤ budget := by
  rw [bytesWithin_eq, ← prefix_iff_byteLength_le h (isPrefix_startWithin units budget text),
    prefix_startWithin_iff units budget h, unitLength_eq_sum]

/-- As many bytes as code units of a start fit are the bytes of that start. -/
theorem bytesWithin_unitLength (h : before <+: text) :
    bytesWithin (unitLength before) text = byteLength before := by
  rw [bytesWithin_eq, unitLength_eq_sum, startWithin_sum units units_pos h]

theorem unitsWithin_byteLength (h : before <+: text) :
    unitsWithin (byteLength before) text = unitLength before := by
  rw [unitsWithin_eq, byteLength_eq_sum, startWithin_sum Char.utf8Size Char.utf8Size_pos h]

theorem bytesWithin_append {xs : List Char} {budget : Nat} (h : unitLength xs ≤ budget)
    (ys : List Char) :
    bytesWithin budget (xs ++ ys) = byteLength xs + bytesWithin (budget - unitLength xs) ys := by
  rw [unitLength_eq_sum] at h
  rw [bytesWithin_eq, startWithin_append units h, byteLength_append, bytesWithin_eq,
    unitLength_eq_sum]

theorem unitsWithin_append {xs : List Char} {budget : Nat} (h : byteLength xs ≤ budget)
    (ys : List Char) :
    unitsWithin budget (xs ++ ys) = unitLength xs + unitsWithin (budget - byteLength xs) ys := by
  rw [byteLength_eq_sum] at h
  rw [unitsWithin_eq, startWithin_append Char.utf8Size h, unitLength_append, unitsWithin_eq,
    byteLength_eq_sum]

end Within

/-! ## Boundaries -/

/-- A character of `text` starts at `byte`, or the text ends there. -/
def IsBoundary (text : List Char) (byte : Nat) : Prop :=
  ∃ before, before <+: text ∧ byteLength before = byte

/-- A text can be cut exactly at its boundaries. -/
theorem isSome_dropBytes?_iff {text : List Char} {byte : Nat} :
    (dropBytes? byte text).isSome = true ↔ IsBoundary text byte := by
  constructor
  · intro hcut
    obtain ⟨rest, hrest⟩ := Option.isSome_iff_exists.1 hcut
    obtain ⟨before, htext, hbefore⟩ := dropBytes?_eq_some_iff.1 hrest
    exact ⟨before, ⟨rest, htext⟩, hbefore⟩
  · rintro ⟨before, ⟨rest, rfl⟩, rfl⟩
    rw [dropBytes?_append, Option.isSome_some]

instance (text : List Char) (byte : Nat) : Decidable (IsBoundary text byte) :=
  decidable_of_iff _ isSome_dropBytes?_iff

theorem IsBoundary.le_byteLength {text : List Char} {byte : Nat} (h : IsBoundary text byte) :
    byte ≤ byteLength text := by
  obtain ⟨before, hbefore, rfl⟩ := h
  exact (prefix_iff_byteLength_le hbefore List.prefix_rfl).1 hbefore

theorem isBoundary_bytesWithin (budget : Nat) (text : List Char) :
    IsBoundary text (bytesWithin budget text) :=
  ⟨_, isPrefix_startWithin units budget text, (bytesWithin_eq budget text).symm⟩

/-- The greatest boundary at or below `byte`. -/
def floorBoundary (text : List Char) (byte : Nat) : Nat :=
  byteLength (startWithin Char.utf8Size byte text)

theorem isGreatest_floorBoundary (text : List Char) (byte : Nat) :
    IsGreatest {boundary | IsBoundary text boundary ∧ boundary ≤ min byte (byteLength text)}
      (floorBoundary text byte) := by
  have hstart := isPrefix_startWithin Char.utf8Size byte text
  have hboundary : IsBoundary text (floorBoundary text byte) := ⟨_, hstart, rfl⟩
  have hfits : ∀ {before}, before <+: text →
      (before <+: startWithin Char.utf8Size byte text ↔ byteLength before ≤ byte) := by
    intro before hbefore
    rw [prefix_startWithin_iff Char.utf8Size byte hbefore, byteLength_eq_sum]
  constructor
  · exact ⟨hboundary, Nat.le_min.2 ⟨(hfits hstart).1 List.prefix_rfl, hboundary.le_byteLength⟩⟩
  · rintro other ⟨⟨before, hbefore, rfl⟩, hle⟩
    have hbyte : byteLength before ≤ byte := Nat.le_trans hle (Nat.min_le_left _ _)
    exact (prefix_iff_byteLength_le hbefore hstart).1 ((hfits hbefore).2 hbyte)

theorem floorBoundary_le (text : List Char) (byte : Nat) : floorBoundary text byte ≤ byte :=
  Nat.le_trans (isGreatest_floorBoundary text byte).1.2 (Nat.min_le_left _ _)

theorem isBoundary_floorBoundary (text : List Char) (byte : Nat) :
    IsBoundary text (floorBoundary text byte) :=
  (isGreatest_floorBoundary text byte).1.1

/-- No boundary lies between a byte offset and the boundary that it is rounded down to. -/
theorem le_floorBoundary_iff {text : List Char} {boundary : Nat} (h : IsBoundary text boundary)
    (byte : Nat) : boundary ≤ floorBoundary text byte ↔ boundary ≤ byte := by
  constructor
  · intro hle
    exact Nat.le_trans hle (floorBoundary_le text byte)
  · intro hle
    exact (isGreatest_floorBoundary text byte).2 ⟨h, Nat.le_min.2 ⟨hle, h.le_byteLength⟩⟩

/-- Behind the end of a text every byte offset is rounded down to the end. -/
theorem floorBoundary_min (text : List Char) (byte : Nat) :
    floorBoundary text (min byte (byteLength text)) = floorBoundary text byte := by
  have hshort := isBoundary_floorBoundary text (min byte (byteLength text))
  have hlong := isBoundary_floorBoundary text byte
  refine Nat.le_antisymm ((le_floorBoundary_iff hshort byte).2 ?_)
    ((le_floorBoundary_iff hlong _).2 (Nat.le_min.2 ⟨floorBoundary_le text byte, hlong.le_byteLength⟩))
  exact Nat.le_trans (floorBoundary_le text _) (Nat.min_le_left _ _)

/-- The code units before a byte offset are those before the boundary at or below it. -/
theorem bytesWithin_unitsWithin (text : List Char) (byte : Nat) :
    bytesWithin (unitsWithin byte text) text = floorBoundary text byte := by
  rw [unitsWithin_eq, bytesWithin_unitLength (isPrefix_startWithin Char.utf8Size byte text),
    floorBoundary]

theorem unitsWithin_le_unitLength (byte : Nat) (text : List Char) :
    unitsWithin byte text ≤ unitLength text := by
  have hstart := isPrefix_startWithin Char.utf8Size byte text
  rw [unitsWithin_eq]
  exact (prefix_iff_unitLength_le hstart List.prefix_rfl).1 hstart

end LintDirectives.Text
