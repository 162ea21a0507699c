import LintDirectives.Text.Blank
import LintDirectives.Text.Search

/-!
# What a search finds

`cut?` fails exactly on the texts that do not hold the word (`cut?_eq_none_iff`)
and finds the first occurrence in the others (`cut?_of_first`), and what is
appended to a text neither hides nor moves that one (`cut?_append`).  Appending the
word itself gives it a first occurrence there, unless it can overlap itself
(`cut?_append_word`).  A word that lies over a seam holds the character at the seam, so
across a character that the word lacks two texts are searched one by one
(`infix_append_cons_iff`, `cut?_append_cons`).

`pieces` is core's `List.splitOn` (`pieces_eq_splitOn`), so a separator between two
texts separates their pieces (`pieces_append_cons`), and no piece holds one
(`not_mem_of_mem_pieces`).  A blank at the end of a text is the end of its last piece
(`pieces_append_singleton`), and trimming takes it away (`trim_append_singleton`), as it
does at the start (`trim_cons`).
-/

namespace LintDirectives.Text

/-! ## First occurrences -/

theorem after?_append_self (word rest : List Char) : after? word (word ++ rest) = some rest := by
  induction word with
  | nil => rfl
  | cons w ws ih => simpa [after?] using ih

theorem after?_eq_some_iff {word text rest : List Char} :
    after? word text = some rest ↔ text = word ++ rest := by
  constructor
  · exact eq_of_after?_eq_some
  · rintro rfl
    exact after?_append_self word rest

theorem after?_eq_none_iff {word text : List Char} :
    after? word text = none ↔ ¬ word <+: text := by
  rw [Option.eq_none_iff_forall_ne_some]
  constructor
  · rintro h ⟨rest, rfl⟩
    exact h rest (after?_append_self word rest)
  · rintro h rest hrest
    exact h ⟨rest, (after?_eq_some_iff.1 hrest).symm⟩

/-- A word that fits in a text does not start in it because the text goes on. -/
theorem after?_append_eq_none {word text : List Char} (hlength : word.length ≤ text.length)
    (h : after? word text = none) (more : List Char) : after? word (text ++ more) = none := by
  refine after?_eq_none_iff.2 fun hstart => after?_eq_none_iff.1 h ?_
  exact List.prefix_of_prefix_length_le hstart (List.prefix_append text more) hlength

theorem cut?_eq_none_iff {word text : List Char} : cut? word text = none ↔ ¬ word <:+: text := by
  induction text with
  | nil => simp [cut?]
  | cons c cs ih =>
    rw [cut?, List.infix_cons_iff]
    cases hstart : after? word (c :: cs) with
    | some rest =>
      have : word <+: c :: cs := ⟨rest, (after?_eq_some_iff.1 hstart).symm⟩
      simp [this]
    | none => simp [ih, after?_eq_none_iff.1 hstart]

theorem cut?_nil_word (text : List Char) : cut? [] text = some ([], text) := by
  cases text <;> rfl

/-- The first occurrence of a word stays the first one, whatever follows. -/
theorem cut?_append {word text before after : List Char}
    (h : cut? word text = some (before, after)) (more : List Char) :
    cut? word (text ++ more) = some (before, after ++ more) := by
  induction text generalizing before with
  | nil =>
    simp only [cut?, List.isEmpty_iff, Option.ite_none_right_eq_some, Option.some.injEq,
      Prod.mk.injEq] at h
    obtain ⟨rfl, rfl, rfl⟩ := h
    exact cut?_nil_word more
  | cons c cs ih =>
    rw [cut?] at h
    rw [List.cons_append, cut?]
    cases hstart : after? word (c :: cs) with
    | some rest =>
      rw [hstart] at h
      simp only [Option.some.injEq, Prod.mk.injEq] at h
      obtain ⟨rfl, rfl⟩ := h
      have hlonger : after? word (c :: (cs ++ more)) = some (rest ++ more) := by
        rw [after?_eq_some_iff, ← List.append_assoc, ← after?_eq_some_iff.1 hstart,
          List.cons_append]
      rw [hlonger]
    | none =>
      rw [hstart] at h
      obtain ⟨⟨front, back⟩, hcut, heq⟩ := Option.map_eq_some_iff.1 h
      simp only [Prod.mk.injEq] at heq
      obtain ⟨rfl, rfl⟩ := heq
      -- The word fits in what remains, so a longer text does not let it start here.
      have hlength : word.length ≤ (c :: cs).length := by
        rw [eq_of_cut?_eq_some hcut]
        simp only [List.length_cons, List.length_append]
        omega
      rw [← List.cons_append, after?_append_eq_none hlength hstart more, ih hcut]
      rfl

/-- A text is cut at an occurrence of the word that none comes before. -/
theorem cut?_of_first {word before after : List Char}
    (h : ∀ n < before.length, ¬ word <+: (before ++ word ++ after).drop n) :
    cut? word (before ++ word ++ after) = some (before, after) := by
  induction before with
  | nil =>
    rw [List.nil_append]
    cases word with
    | nil => exact cut?_nil_word after
    | cons w ws => rw [List.cons_append, cut?, ← List.cons_append, after?_append_self]
  | cons c cs ih =>
    have hstart : after? word (c :: (cs ++ word ++ after)) = none := by
      rw [after?_eq_none_iff]
      simpa using h 0 (by simp)
    have hrest : ∀ n < cs.length, ¬ word <+: (cs ++ word ++ after).drop n := by
      intro n hn
      simpa using h (n + 1) (by simpa using hn)
    rw [List.cons_append, List.cons_append, cut?, hstart, ih hrest]
    rfl

/-- No end of the word, short of the whole, is a start of it: occurrences of the word do not
overlap. -/
def IsBorderless (word : List Char) : Prop :=
  ∀ n < word.length, 0 < n → ¬ word.drop n <+: word

instance (word : List Char) : Decidable (IsBorderless word) :=
  inferInstanceAs (Decidable (∀ n < word.length, 0 < n → ¬ word.drop n <+: word))

/-- A word without borders that a text lacks comes first where it is appended. -/
theorem cut?_append_word {word before : List Char} (hborder : IsBorderless word)
    (h : ¬ word <:+: before) (after : List Char) :
    cut? word (before ++ word ++ after) = some (before, after) := by
  refine cut?_of_first fun n hn hstart => ?_
  rw [List.append_assoc, List.drop_append_of_le_length (Nat.le_of_lt hn)] at hstart
  obtain ⟨front, hfront⟩ : ∃ front, front = before.drop n := ⟨_, rfl⟩
  rw [← hfront] at hstart
  have hpos : 0 < front.length := by
    rw [hfront, List.length_drop]
    omega
  by_cases hlength : word.length ≤ front.length
  · have hinside : word <+: front :=
      List.prefix_of_prefix_length_le hstart (List.prefix_append front _) hlength
    exact h (hinside.isInfix.trans (hfront ▸ (List.drop_suffix n before).isInfix))
  -- The occurrence overlaps the appended word, and what they share is a border.
  · obtain ⟨rest, hrest⟩ := hstart
    have hword : word.drop front.length ++ rest = word ++ after := by
      have := congrArg (List.drop front.length) hrest
      rwa [List.drop_append_of_le_length (by omega), List.drop_left] at this
    refine hborder front.length (by omega) hpos ?_
    exact List.prefix_of_prefix_length_le ⟨rest, hword⟩ (List.prefix_append word after)
      (by rw [List.length_drop]; omega)

/-- A word that lacks `c` is on one side of it. -/
theorem infix_append_cons_iff {word : List Char} {c : Char} (h : c ∉ word) (xs ys : List Char) :
    word <:+: xs ++ c :: ys ↔ word <:+: xs ∨ word <:+: ys := by
  have hstart : ∀ {front}, front <+: c :: ys → (∀ w ∈ front, w ∈ word) → front = [] := by
    rintro (_ | ⟨w, ws⟩) hfront hmem
    · rfl
    · obtain rfl : w = c := (List.cons_prefix_cons.1 hfront).1
      exact absurd (hmem w List.mem_cons_self) h
  rw [List.infix_append_iff_ne_nil, List.infix_cons_iff]
  constructor
  · rintro (hxs | (hys | hys) | ⟨front, back, -, hback, rfl, -, hys⟩)
    · exact .inl hxs
    · simp [hstart hys fun w hw => hw]
    · exact .inr hys
    · exact absurd (hstart hys fun w hw => List.mem_append_right front hw) hback
  · rintro (hxs | hys)
    · exact .inl hxs
    · exact .inr (.inl (.inr hys))

theorem prefix_append_cons_iff {word : List Char} {c : Char} (hc : c ∉ word)
    (xs ys : List Char) :
    word <+: xs ++ c :: ys ↔ word <+: xs := by
  constructor
  · intro h
    rcases Nat.lt_or_ge xs.length word.length with hlonger | hfits
    · have hseam : xs ++ [c] <+: word :=
        List.prefix_of_prefix_length_le ⟨ys, by simp⟩ h
          (by rw [List.length_append]; exact hlonger)
      exact absurd (hseam.subset (by simp)) hc
    · exact List.prefix_of_prefix_length_le h (List.prefix_append xs _) hfits
  · exact fun h => h.trans (List.prefix_append xs _)

/-- Behind a character that the word lacks the search starts again. -/
theorem cut?_append_cons {word : List Char} {c : Char} (hc : c ∉ word) {xs : List Char}
    (hxs : ¬ word <:+: xs) (ys : List Char) :
    cut? word (xs ++ c :: ys) =
      (cut? word ys).map fun (before, after) => (xs ++ c :: before, after) := by
  have hstart {front : List Char} (hfront : ¬ word <:+: front) :
      after? word (front ++ c :: ys) = none := by
    rw [after?_eq_none_iff, prefix_append_cons_iff hc]
    exact fun h => hfront h.isInfix
  induction xs with
  | nil =>
    rw [List.nil_append, cut?, ← List.nil_append (c :: ys), hstart hxs]
    rfl
  | cons x xs ih =>
    have hlater : ¬ word <:+: xs := fun h => hxs (List.infix_cons h)
    rw [List.cons_append, cut?, ← List.cons_append, hstart hxs, ih hlater, Option.map_map]
    rfl

/-! ## Pieces and blanks -/

theorem pieces_eq_splitOn (separator : Char) (text : List Char) :
    pieces separator text = text.splitOn separator := by
  induction text with
  | nil => rfl
  | cons c cs ih =>
    rw [pieces, List.splitOn_cons_eq_if_modifyHead, ih]
    by_cases hc : c = separator
    · simp [hc]
    · obtain ⟨piece, rest, hpieces⟩ :=
        List.exists_cons_of_ne_nil (List.splitOn_ne_nil separator cs)
      simp [hc, hpieces]

/-- No piece holds a separator. -/
theorem not_mem_of_mem_pieces {separator : Char} {text piece : List Char}
    (h : piece ∈ pieces separator text) : separator ∉ piece := by
  fun_induction pieces separator text generalizing piece with
  | case1 =>
    obtain rfl := List.mem_singleton.1 h
    exact List.not_mem_nil
  | case2 cs ih =>
    rcases List.mem_cons.1 h with rfl | hlater
    · exact List.not_mem_nil
    · exact ih hlater
  | case3 c cs hc hnone ih =>
    obtain rfl := List.mem_singleton.1 h
    exact fun hmem => hc (List.mem_singleton.1 hmem).symm
  | case4 c cs hc first rest hpieces ih =>
    rw [hpieces] at ih
    rcases List.mem_cons.1 h with rfl | hlater
    · rw [List.mem_cons, not_or]
      exact ⟨Ne.symm hc, ih List.mem_cons_self⟩
    · exact ih (List.mem_cons_of_mem first hlater)

/-- A separator between two texts separates their pieces. -/
theorem pieces_append_cons (separator : Char) (xs ys : List Char) :
    pieces separator (xs ++ separator :: ys) = pieces separator xs ++ pieces separator ys := by
  simp only [pieces_eq_splitOn, List.splitOn_append_cons_self]

/-- A character that splits nothing goes to the last part of what is split. -/
theorem splitOnP_append_singleton {p : Char → Bool} {c : Char} (h : p c = false)
    (text : List Char) :
    ∃ front last, text.splitOnP p = front ++ [last] ∧
      (text ++ [c]).splitOnP p = front ++ [last ++ [c]] := by
  induction text with
  | nil => exact ⟨[], [], rfl, List.splitOnP_eq_singleton (by simpa using h)⟩
  | cons d ds ih =>
    obtain ⟨front, last, hparts, hlonger⟩ := ih
    rw [List.cons_append, List.splitOnP_cons_eq_if_modifyHead,
      List.splitOnP_cons_eq_if_modifyHead, hparts, hlonger]
    by_cases hd : p d = true
    · exact ⟨[] :: front, last, by simp [hd], by simp [hd]⟩
    · cases front with
      | nil => exact ⟨[], d :: last, by simp [hd], by simp [hd]⟩
      | cons part rest => exact ⟨(d :: part) :: rest, last, by simp [hd], by simp [hd]⟩

/-- A character that separates nothing goes to the last piece. -/
theorem pieces_append_singleton {separator c : Char} (h : c ≠ separator) (text : List Char) :
    ∃ front last, pieces separator text = front ++ [last] ∧
      pieces separator (text ++ [c]) = front ++ [last ++ [c]] := by
  simp only [pieces_eq_splitOn, List.splitOn_eq_splitOnP]
  exact splitOnP_append_singleton (by simpa using h) text

/-- Trimming takes away a blank at the end. -/
theorem trim_append_singleton {c : Char} (h : isBlank c = true) (text : List Char) :
    trim (text ++ [c]) = trim text := by
  have hend : ∀ kept, trimEnd (kept ++ [c]) = trimEnd kept := fun kept => by
    simp [trimEnd, h]
  rw [trim, trim, trimStart, trimStart, List.dropWhile_append]
  split
  · next hblank =>
    rw [List.isEmpty_iff.1 hblank]
    simp [h]
  · exact hend _

/-- Trimming takes away a blank at the start. -/
theorem trim_cons {c : Char} (h : isBlank c = true) (text : List Char) :
    trim (c :: text) = trim text := by
  rw [trim, trimStart, List.dropWhile_cons_of_pos h, trim, trimStart]

end LintDirectives.Text
