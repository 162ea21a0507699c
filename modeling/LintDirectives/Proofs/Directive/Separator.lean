import LintDirectives.Proofs.Directive.Writing
import LintDirectives.Proofs.Text.Trim

/-!
# Where the reason of a directive starts

The search for a separator looks at single characters: it may start at the front of the
argument or behind a blank, and it has to end at a blank or at the end.  Read as a
whole, an argument is a sequence of words between blanks, and the separator is the
first word that is made of two or more dashes.

There are four groups.

* Words.  `IsRun` says which parts of a text are its words, `IsFirstDashes` which of
  them is the separator, and `IsFirstDashes.unique` that there is only one.
* Matches.  `IsMatch` takes in the blanks around the dashes, as a pattern for the
  separator does.  The match that starts first has the separator in it
  (`isFirstDashes_iff_isLeftmost`).
* The search.  `IsDashesAt` is about a text that another text may stand in front of,
  and `exists_isDashesAt_of_cutReason?` and `not_isDashesAt_of_cutReason?` are the
  inductions over it.
* The result.  `splitReason_eq_iff` gives the list and the reason.
-/

namespace LintDirectives.Directive

open Text

/-! ## Words -/

/-- `word` is a longest part of `text` without blanks: behind `before` and in front of `after`
there is a blank or an end of the text. -/
structure IsRun (text before word after : List Char) : Prop where
  parts : text = before ++ word ++ after
  ne_nil : word ≠ []
  no_blank : ∀ c ∈ word, isBlank c = false
  starts : ∀ c ∈ before.getLast?, isBlank c = true
  stops : ∀ c ∈ after.head?, isBlank c = true

/-- `word` is the first of the words of `text` that are two or more dashes and nothing else. -/
structure IsFirstDashes (text before word after : List Char) : Prop where
  run : IsRun text before word after
  dashes : IsDashes word
  first : ∀ other next rest, IsRun text other next rest → IsDashes next →
    before.length ≤ other.length

/-- Two words of dashes at the start of a text are one, and so is what follows. -/
theorem eq_of_dashes_append {word next after rest : List Char} (h : word ++ after = next ++ rest)
    (hword : IsDashes word) (hnext : IsDashes next) (hafter : ∀ c ∈ after.head?, isBlank c = true)
    (hrest : ∀ c ∈ rest.head?, isBlank c = true) : word = next ∧ after = rest := by
  have htake {dashes blank : List Char} (hdashes : IsDashes dashes)
      (hblank : ∀ c ∈ blank.head?, isBlank c = true) :
      (dashes ++ blank).takeWhile (fun c => !isBlank c) = dashes := by
    rw [List.takeWhile_append_of_pos (by simpa using hdashes.no_blank)]
    cases blank with
    | nil => simp
    | cons c cs => simp [hblank c rfl]
  have hwords : word = next := by
    rw [← htake hword hafter, h, htake hnext hrest]
  exact ⟨hwords, List.append_cancel_left (hwords ▸ h)⟩

/-- There is one separator at most. -/
theorem IsFirstDashes.unique {text before word after other next rest : List Char}
    (h : IsFirstDashes text before word after) (hother : IsFirstDashes text other next rest) :
    before = other ∧ word = next ∧ after = rest := by
  have hlength : before.length = other.length :=
    Nat.le_antisymm (h.first other next rest hother.run hother.dashes)
      (hother.first before word after h.run h.dashes)
  have hparts : before ++ (word ++ after) = other ++ (next ++ rest) := by
    rw [← List.append_assoc, ← List.append_assoc, ← h.run.parts, ← hother.run.parts]
  obtain ⟨hbefore, hbehind⟩ := List.append_inj hparts hlength
  obtain ⟨hword, hafter⟩ :=
    eq_of_dashes_append hbehind h.dashes hother.dashes h.run.stops hother.run.stops
  exact ⟨hbefore, hword, hafter⟩

/-! ## Matches -/

/-- A match of the pattern for a separator: one blank or the start of the text, two or more
dashes, and one blank or the end of the text.  `front` and `rest` are what is around the match. -/
structure IsMatch (text front lead dashes trail rest : List Char) : Prop where
  parts : text = front ++ lead ++ dashes ++ trail ++ rest
  lead : lead = [] ∧ front = [] ∨ ∃ c, lead = [c] ∧ isBlank c = true
  dashes : IsDashes dashes
  trail : trail = [] ∧ rest = [] ∨ ∃ c, trail = [c] ∧ isBlank c = true

/-- No match starts before this one. -/
structure IsLeftmost (text front lead dashes trail rest : List Char) : Prop where
  isMatch : IsMatch text front lead dashes trail rest
  first : ∀ front' lead' dashes' trail' rest', IsMatch text front' lead' dashes' trail' rest' →
    front.length ≤ front'.length

/-- The dashes of a match are a word. -/
theorem IsMatch.isRun {text front lead dashes trail rest : List Char}
    (h : IsMatch text front lead dashes trail rest) :
    IsRun text (front ++ lead) dashes (trail ++ rest) := by
  refine ⟨by rw [h.parts]; simp, h.dashes.ne_nil, h.dashes.no_blank, ?_, ?_⟩
  · rcases h.lead with ⟨rfl, rfl⟩ | ⟨c, rfl, hblank⟩
    · simp
    · simpa using hblank
  · rcases h.trail with ⟨rfl, rfl⟩ | ⟨c, rfl, hblank⟩
    · simp
    · simpa using hblank

/-- Every word of dashes is in a match. -/
theorem IsRun.exists_isMatch {text before word after : List Char}
    (h : IsRun text before word after) (hdashes : IsDashes word) :
    ∃ front lead trail rest, before = front ++ lead ∧ after = trail ++ rest ∧
      IsMatch text front lead word trail rest := by
  obtain ⟨front, lead, hbefore, hlead⟩ : ∃ front lead, before = front ++ lead ∧
      (lead = [] ∧ front = [] ∨ ∃ c, lead = [c] ∧ isBlank c = true) := by
    rcases List.eq_nil_or_concat before with rfl | ⟨front, c, rfl⟩
    · exact ⟨[], [], rfl, .inl ⟨rfl, rfl⟩⟩
    · exact ⟨front, [c], by simp, .inr ⟨c, rfl, h.starts c (by simp)⟩⟩
  obtain ⟨trail, rest, hafter, htrail⟩ : ∃ trail rest, after = trail ++ rest ∧
      (trail = [] ∧ rest = [] ∨ ∃ c, trail = [c] ∧ isBlank c = true) := by
    cases hcases : after with
    | nil => exact ⟨[], [], rfl, .inl ⟨rfl, rfl⟩⟩
    | cons c cs => exact ⟨[c], cs, rfl, .inr ⟨c, rfl, h.stops c (by simp [hcases])⟩⟩
  refine ⟨front, lead, trail, rest, hbefore, hafter, ?_, hlead, hdashes, htrail⟩
  rw [h.parts, hbefore, hafter]
  simp

/-- A match that starts before another one, or together with it, has its dashes there too.  The
start of the text is not followed by a blank and by dashes at once. -/
theorem IsMatch.length_le {text front lead dashes trail rest front' lead' dashes' trail' rest' :
      List Char} (h : IsMatch text front lead dashes trail rest)
    (h' : IsMatch text front' lead' dashes' trail' rest') (hle : front.length ≤ front'.length) :
    (front ++ lead).length ≤ (front' ++ lead').length := by
  rw [List.length_append, List.length_append]
  rcases h.lead with ⟨rfl, rfl⟩ | ⟨c, rfl, hblank⟩
  · simp
  · rcases h'.lead with ⟨rfl, rfl⟩ | ⟨c', rfl, -⟩
    · obtain rfl : front = [] := List.length_eq_zero_iff.1 (Nat.le_zero.1 hle)
      obtain ⟨d, ds, hdashes⟩ := List.exists_cons_of_ne_nil h'.dashes.ne_nil
      have hparts := h.parts.symm.trans h'.parts
      obtain rfl : c = d := by
        rw [hdashes] at hparts
        exact (List.cons.inj hparts).1
      have hdash := h'.dashes.no_blank c (by simp [hdashes])
      rw [hblank] at hdash
      cases hdash
    · exact Nat.add_le_add_right hle _

/-- The first match has the separator in it. -/
theorem isFirstDashes_iff_isLeftmost {text before word after : List Char} :
    IsFirstDashes text before word after ↔
      ∃ front lead trail rest, before = front ++ lead ∧ after = trail ++ rest ∧
        IsLeftmost text front lead word trail rest := by
  constructor
  · intro h
    obtain ⟨front, lead, trail, rest, hbefore, hafter, hmatch⟩ := h.run.exists_isMatch h.dashes
    refine ⟨front, lead, trail, rest, hbefore, hafter, hmatch, ?_⟩
    intro front' lead' dashes' trail' rest' hmatch'
    have hle := h.first _ _ _ hmatch'.isRun hmatch'.dashes
    rw [hbefore, List.length_append, List.length_append] at hle
    rcases hmatch.lead with ⟨-, rfl⟩ | ⟨c, rfl, -⟩
    · exact Nat.zero_le _
    · have hlead : lead'.length ≤ 1 := by
        rcases hmatch'.lead with ⟨rfl, -⟩ | ⟨c', rfl, -⟩ <;> simp
      rw [List.length_singleton] at hle
      omega
  · rintro ⟨front, lead, trail, rest, rfl, rfl, hmatch, hfirst⟩
    refine ⟨hmatch.isRun, hmatch.dashes, ?_⟩
    intro other next behind hrun hdashes
    obtain ⟨front', lead', trail', rest', rfl, -, hmatch'⟩ := hrun.exists_isMatch hdashes
    exact hmatch.length_le hmatch' (hfirst _ _ _ _ _ hmatch')

/-! ## The search -/

/-- `word` is a word of dashes in a text that may have another one in front of it.  `fresh` says
that a word may start where the text does. -/
structure IsDashesAt (fresh : Bool) (text before word after : List Char) : Prop where
  parts : text = before ++ word ++ after
  dashes : IsDashes word
  starts : (before.getLast?.map isBlank).getD fresh = true
  stops : ∀ c ∈ after.head?, isBlank c = true

section Search

variable {fresh : Bool} {c : Char} {text before word after : List Char}

theorem isDashesAt_true_iff :
    IsDashesAt true text before word after ↔ IsRun text before word after ∧ IsDashes word := by
  have hstarts : (before.getLast?.map isBlank).getD true = true ↔
      ∀ c ∈ before.getLast?, isBlank c = true := by
    cases before.getLast? <;> simp
  constructor
  · rintro ⟨hparts, hdashes, hbefore, hstops⟩
    exact ⟨⟨hparts, hdashes.ne_nil, hdashes.no_blank, hstarts.1 hbefore, hstops⟩, hdashes⟩
  · rintro ⟨⟨hparts, -, -, hbefore, hstops⟩, hdashes⟩
    exact ⟨hparts, hdashes, hstarts.2 hbefore, hstops⟩

theorem exists_isDashesAt_nil_iff :
    (∃ word, IsDashesAt fresh text [] word after) ↔
      fresh = true ∧ afterDashes? text = some after := by
  rw [afterDashes?_eq_some_iff]
  constructor
  · rintro ⟨word, hparts, hdashes, hstarts, hstops⟩
    exact ⟨by simpa using hstarts, word, by simpa using hparts, hdashes, hstops⟩
  · rintro ⟨rfl, word, hparts, hdashes, hstops⟩
    exact ⟨word, by simpa using hparts, hdashes, rfl, hstops⟩

/-- Where the search finds nothing at the start, no word of dashes starts there. -/
theorem not_isDashesAt_nil (h : (if fresh then afterDashes? text else none) = none)
    (word after : List Char) : ¬ IsDashesAt fresh text [] word after := by
  intro hdashes
  obtain ⟨hfresh, hafter⟩ := exists_isDashesAt_nil_iff.1 ⟨word, hdashes⟩
  rw [if_pos hfresh, hafter] at h
  cases h

/-- Behind the first character a word may start if that character is a blank. -/
theorem isDashesAt_cons_iff :
    IsDashesAt fresh (c :: text) (c :: before) word after ↔
      IsDashesAt (isBlank c) text before word after := by
  have hstarts : ((c :: before).getLast?.map isBlank).getD fresh =
      (before.getLast?.map isBlank).getD (isBlank c) := by
    rw [List.getLast?_cons]
    cases before.getLast? <;> rfl
  constructor
  · rintro ⟨hparts, hdashes, hbefore, hstops⟩
    exact ⟨by simpa using hparts, hdashes, hstarts ▸ hbefore, hstops⟩
  · rintro ⟨hparts, hdashes, hbefore, hstops⟩
    exact ⟨by simpa using hparts, hdashes, hstarts ▸ hbefore, hstops⟩

/-- Dashes in a text start with it, or come behind its first character. -/
theorem IsDashesAt.nil_or_cons (h : IsDashesAt fresh (c :: text) before word after) :
    before = [] ∨ ∃ rest, before = c :: rest ∧ IsDashesAt (isBlank c) text rest word after := by
  cases before with
  | nil => exact .inl rfl
  | cons d rest =>
    obtain rfl : c = d := (List.cons.inj h.parts).1
    exact .inr ⟨rest, rfl, isDashesAt_cons_iff.1 h⟩

/-- A search that finds nothing has passed over no word of dashes. -/
theorem not_isDashesAt_of_cutReason? (h : cutReason? fresh text = none)
    (before word after : List Char) : ¬ IsDashesAt fresh text before word after := by
  induction text generalizing fresh before with
  | nil =>
    intro hdashes
    obtain ⟨hfront, -⟩ := List.append_eq_nil_iff.1 hdashes.parts.symm
    exact hdashes.dashes.ne_nil (List.append_eq_nil_iff.1 hfront).2
  | cons c cs ih =>
    intro hdashes
    rw [cutReason?] at h
    split at h
    · cases h
    · next hnone =>
      rcases hdashes.nil_or_cons with rfl | ⟨rest, rfl, hrest⟩
      · exact not_isDashesAt_nil hnone word after hdashes
      · exact ih (Option.map_eq_none_iff.1 h) rest hrest

/-- A search that finds dashes has found the first word of dashes. -/
theorem exists_isDashesAt_of_cutReason? {list : List Char}
    (h : cutReason? fresh text = some (list, after)) :
    ∃ word, IsDashesAt fresh text list word after ∧
      ∀ other next rest, IsDashesAt fresh text other next rest → list.length ≤ other.length := by
  induction text generalizing fresh list with
  | nil => cases h
  | cons c cs ih =>
    rw [cutReason?] at h
    split at h
    · next found hfound =>
      obtain ⟨rfl, rfl⟩ : [] = list ∧ found = after := by simpa using h
      obtain ⟨hfresh, hafter⟩ := Option.ite_none_right_eq_some.1 hfound
      obtain ⟨word, hword⟩ := exists_isDashesAt_nil_iff.2 ⟨hfresh, hafter⟩
      exact ⟨word, hword, fun _ _ _ _ => Nat.zero_le _⟩
    · next hnone =>
      obtain ⟨⟨rest, found⟩, hcut, heq⟩ := Option.map_eq_some_iff.1 h
      obtain ⟨rfl, rfl⟩ : c :: rest = list ∧ found = after := by simpa using heq
      obtain ⟨word, hword, hfirst⟩ := ih hcut
      refine ⟨word, isDashesAt_cons_iff.2 hword, ?_⟩
      intro other next behind hother
      rcases hother.nil_or_cons with rfl | ⟨tail, rfl, htail⟩
      · exact absurd hother (not_isDashesAt_nil hnone next behind)
      · exact Nat.succ_le_succ (hfirst tail next behind htail)

end Search

/-- The search cuts an argument at its first word of dashes. -/
theorem isFirstDashes_of_cutReason? {argument list after : List Char}
    (h : cutReason? true argument = some (list, after)) :
    ∃ word, IsFirstDashes argument list word after := by
  obtain ⟨word, hword, hfirst⟩ := exists_isDashesAt_of_cutReason? h
  obtain ⟨hrun, hdashes⟩ := isDashesAt_true_iff.1 hword
  refine ⟨word, hrun, hdashes, ?_⟩
  intro other next rest hother hnext
  exact hfirst other next rest (isDashesAt_true_iff.2 ⟨hother, hnext⟩)

/-! ## The result -/

/-- The text behind a separator as a reason, none when it is blank. -/
def reasonOf (after : List Char) : Option (List Char) :=
  if allBlank after then none else some (trim after)

theorem splitReason_of_isFirstDashes {argument list word after : List Char}
    (h : IsFirstDashes argument list word after) :
    splitReason argument = (list, reasonOf after) := by
  rw [splitReason]
  cases hcut : cutReason? true argument with
  | none =>
    exact absurd (isDashesAt_true_iff.2 ⟨h.run, h.dashes⟩)
      (not_isDashesAt_of_cutReason? hcut list word after)
  | some parts =>
    obtain ⟨found, behind⟩ := parts
    obtain ⟨next, hnext⟩ := isFirstDashes_of_cutReason? hcut
    obtain ⟨rfl, -, rfl⟩ := h.unique hnext
    simp only [reasonOf, ← trim_eq_nil_iff, List.isEmpty_iff]

theorem splitReason_of_not_isDashes {argument : List Char}
    (h : ∀ before word after, IsRun argument before word after → ¬ IsDashes word) :
    splitReason argument = (argument, none) := by
  rw [splitReason]
  cases hcut : cutReason? true argument with
  | none => rfl
  | some parts =>
    obtain ⟨word, hword⟩ := isFirstDashes_of_cutReason? hcut
    exact absurd hword.dashes (h _ word _ hword.run)

/-- An argument is its list when none of its words is a separator.  Otherwise the list is exactly
the text before the first one, and the reason is the text after it, trimmed, unless that is blank.
The first separator is also what the first match of the pattern has in it. -/
theorem splitReason_eq_iff (argument list : List Char) (reason : Option (List Char)) :
    (splitReason argument = (list, reason) ↔
      (∃ word after, IsFirstDashes argument list word after ∧ reason = reasonOf after) ∨
        (∀ before word after, IsRun argument before word after → ¬ IsDashes word) ∧
          list = argument ∧ reason = none) ∧
      ∀ word after, IsFirstDashes argument list word after ↔
        ∃ front lead trail rest, list = front ++ lead ∧ after = trail ++ rest ∧
          IsLeftmost argument front lead word trail rest := by
  refine ⟨⟨?_, ?_⟩, fun word after => isFirstDashes_iff_isLeftmost⟩
  · intro hsplit
    cases hcut : cutReason? true argument with
    | none =>
      right
      have hnone : ∀ before word after, IsRun argument before word after → ¬ IsDashes word := by
        intro before word after hrun hdashes
        exact not_isDashesAt_of_cutReason? hcut before word after
          (isDashesAt_true_iff.2 ⟨hrun, hdashes⟩)
      rw [splitReason_of_not_isDashes hnone] at hsplit
      obtain ⟨rfl, rfl⟩ := Prod.mk.inj hsplit
      exact ⟨hnone, rfl, rfl⟩
    | some parts =>
      left
      obtain ⟨word, hword⟩ := isFirstDashes_of_cutReason? hcut
      rw [splitReason_of_isFirstDashes hword] at hsplit
      obtain ⟨rfl, rfl⟩ := Prod.mk.inj hsplit
      exact ⟨word, parts.2, hword, rfl⟩
  · rintro (⟨word, after, hfirst, rfl⟩ | ⟨hnone, rfl, rfl⟩)
    · exact splitReason_of_isFirstDashes hfirst
    · exact splitReason_of_not_isDashes hnone

end LintDirectives.Directive
