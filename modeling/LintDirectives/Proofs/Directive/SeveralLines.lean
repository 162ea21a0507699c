import LintDirectives.Proofs.Directive.CommentLines
import LintDirectives.Proofs.Directive.Reason
import LintDirectives.Proofs.Text.Lines

/-!
# A text of several lines, read as one directive

`parse?` is made for a line.  A text of several lines is read in the same way: the
first keyword that it holds decides, and all that follows in the text is its argument.

* A keyword lies in one of the lines (`IsLines.infix_iff`), provided that no part of it
  can be taken for a terminator (`FitsLine`).
* A line without keywords can be left out (`parse?_append_of_absent`), and so can blank
  lines behind one with a keyword (`parse?_of_blank_behind`).
* Reading a text is compared with reading its lines, one by one.  Both find the same
  when the text is one line (`filterMap_parse?_of_not_mem`) and when only blank lines
  follow a line with a keyword (`filterMap_parse?_of_pairwise`).
  `filterMap_parse?_eq_iff` says when they do at all.
-/

namespace LintDirectives

/-! ## A word in a text of lines -/

namespace Text

/-- The word holds no line feed, and no carriage return at its end, where a line feed may come
next. -/
structure FitsLine (word : List Char) : Prop where
  lacks_feed : '\n' ∉ word
  not_return : ¬ ['\r'] <:+ word

instance (word : List Char) : Decidable (FitsLine word) :=
  decidable_of_iff ('\n' ∉ word ∧ ¬ ['\r'] <:+ word)
    ⟨fun h => ⟨h.1, h.2⟩, fun h => ⟨h.lacks_feed, h.not_return⟩⟩

variable {word text line mark rest : List Char} {found : List (List Char)}

/-- What stands between a line and the line feed that ends it. -/
def IsMark (mark : List Char) : Prop :=
  mark = [] ∨ mark = ['\r']

theorem IsMark.all_isBlank (h : IsMark mark) : mark.all isBlank = true := by
  rcases h with rfl | rfl <;> decide

/-- A text whose first line is known is that line, or goes on behind its terminator. -/
theorem IsLines.exists_rest (h : IsLines text (line :: found)) :
    text = line ∧ found = [] ∨
      ∃ mark rest, IsMark mark ∧ text = line ++ mark ++ '\n' :: rest ∧ IsLines rest found := by
  cases h with
  | last => exact .inl ⟨rfl, rfl⟩
  | @lineFeed _ rest _ _ _ hrest => exact .inr ⟨[], rest, .inl rfl, by simp, hrest⟩
  | @returnFeed _ rest _ _ hrest => exact .inr ⟨['\r'], rest, .inr rfl, by simp, hrest⟩

theorem FitsLine.infix_append_mark_iff (h : FitsLine word) (hmark : IsMark mark)
    (line : List Char) : word <:+: line ++ mark ↔ word <:+: line := by
  rcases hmark with rfl | rfl
  · rw [List.append_nil]
  · rw [List.infix_concat_iff, or_iff_right_iff_imp]
    intro hsuffix
    rcases List.suffix_concat_iff.1 hsuffix with rfl | ⟨front, rfl, -⟩
    · exact List.nil_infix
    · exact absurd (List.suffix_append front ['\r']) h.not_return

/-- A word that fits into lines is found in a text where it is found in one of the lines. -/
theorem IsLines.infix_iff (hword : FitsLine word) (hne : word ≠ []) (h : IsLines text found) :
    word <:+: text ↔ ∃ line ∈ found, word <:+: line := by
  induction found generalizing text with
  | nil =>
    cases h
    simpa using hne
  | cons line found ih =>
    obtain ⟨rfl, rfl⟩ | ⟨mark, rest, hmark, rfl, hrest⟩ := h.exists_rest
    · simp
    · rw [infix_append_cons_iff hword.lacks_feed, hword.infix_append_mark_iff hmark, ih hrest]
      simp

/-- A text whose lines are blank is blank. -/
theorem IsLines.allBlank (h : IsLines text found)
    (hblank : ∀ line ∈ found, allBlank line = true) : allBlank text = true := by
  induction found generalizing text with
  | nil =>
    cases h
    rfl
  | cons line found ih =>
    rw [List.forall_mem_cons] at hblank
    obtain ⟨rfl, rfl⟩ | ⟨mark, rest, hmark, rfl, hrest⟩ := h.exists_rest
    · exact hblank.1
    · rw [Text.allBlank, List.all_append, List.all_append, List.all_cons, hmark.all_isBlank]
      have hline : line.all isBlank = true := hblank.1
      have hbehind : rest.all isBlank = true := ih hrest hblank.2
      rw [hline, hbehind]
      rfl

/-- Behind a line that only blank lines follow the text is blank. -/
theorem IsLines.exists_blank_tail (h : IsLines text (line :: found))
    (hblank : ∀ later ∈ found, Text.allBlank later = true) :
    ∃ tail, text = line ++ tail ∧ Text.allBlank tail = true := by
  obtain ⟨rfl, -⟩ | ⟨mark, rest, hmark, rfl, hrest⟩ := h.exists_rest
  · exact ⟨[], (List.append_nil text).symm, rfl⟩
  · refine ⟨mark ++ '\n' :: rest, List.append_assoc .., ?_⟩
    rw [Text.allBlank, List.all_append, List.all_cons, hmark.all_isBlank, Bool.true_and]
    exact hrest.allBlank hblank

end Text

/-! ## The keywords in a line -/

namespace Directive

open Text

variable {config : Config} {line text tail before argument : List Char} {kind : DirectiveKind}
  {found : List (List Char)}

/-- The line holds a keyword. -/
def HoldsKeyword (config : Config) (line : List Char) : Prop :=
  ∃ kind, (keyword config kind).toList <:+: line

theorem keyword_not_blank (config : Config) (kind : DirectiveKind) :
    allBlank (keyword config kind).toList = false := by
  cases kind <;> exact Config.keywordOr_not_blank (by decide)

theorem keyword_ne_nil (config : Config) (kind : DirectiveKind) :
    (keyword config kind).toList ≠ [] := by
  intro hnil
  have hblank := keyword_not_blank config kind
  rw [hnil] at hblank
  contradiction

theorem not_holdsKeyword_of_allBlank (hblank : allBlank line = true) :
    ¬ HoldsKeyword config line := by
  rintro ⟨kind, hword⟩
  have hkeyword : allBlank (keyword config kind).toList = true := by
    rw [allBlank, List.all_eq_true] at hblank ⊢
    exact fun c hc => hblank c (hword.subset hc)
  rw [keyword_not_blank] at hkeyword
  contradiction

/-- The lines that hold a keyword are directives. -/
theorem parse?_isSome_iff : (parse? config line).isSome ↔ HoldsKeyword config line := by
  constructor
  · intro hsome
    obtain ⟨directive, hparse⟩ := Option.isSome_iff_exists.1 hsome
    obtain ⟨before, argument, hdecides, -⟩ := exists_decides_of_parse? hparse
    exact ⟨directive.kind, before, argument, (eq_of_cut?_eq_some hdecides.cut).symm⟩
  · rintro ⟨kind, hword⟩
    have hfound : cut? (keyword config kind).toList line ≠ none :=
      fun hnone => cut?_eq_none_iff.1 hnone hword
    obtain ⟨deciding, before, argument, hdecides⟩ := exists_decides hfound
    rw [hdecides.parse?_eq, Option.isSome_some]

instance (config : Config) (line : List Char) : Decidable (HoldsKeyword config line) :=
  decidable_of_iff _ parse?_isSome_iff

theorem HoldsKeyword.exists_directive (h : HoldsKeyword config line) :
    ∃ directive, parse? config line = some directive :=
  Option.isSome_iff_exists.1 (parse?_isSome_iff.2 h)

theorem parse?_eq_none_iff : parse? config line = none ↔ ¬ HoldsKeyword config line := by
  rw [← parse?_isSome_iff, Option.not_isSome_iff_eq_none]

theorem parse?_nil (config : Config) : parse? config [] = none :=
  parse?_eq_none_iff.2 (not_holdsKeyword_of_allBlank rfl)

/-! ## Blanks behind a directive -/

/-- A blank at the end of an argument belongs neither to a rule id nor to the reason. -/
theorem ofArgument_append_singleton {blank : Char} (hblank : isBlank blank = true)
    (kind : DirectiveKind) (argument : List Char) :
    ofArgument kind (argument ++ [blank]) = ofArgument kind argument := by
  have hcut := cutReason?_append_cons hblank true argument []
  unfold ofArgument splitReason
  cases hargument : cutReason? true argument with
  | some parts =>
    rw [hargument] at hcut
    simp only [hcut, trim_append_singleton hblank]
  | none =>
    rw [hargument, cutReason?, Option.map_none] at hcut
    simp only [hcut, ruleIds_append_singleton hblank]

theorem ofArgument_append_blanks (htail : allBlank tail = true) (kind : DirectiveKind)
    (argument : List Char) : ofArgument kind (argument ++ tail) = ofArgument kind argument := by
  induction tail generalizing argument with
  | nil => rw [List.append_nil]
  | cons c cs ih =>
    simp only [allBlank, List.all_cons, Bool.and_eq_true] at htail
    rw [List.append_cons, ih htail.2, ofArgument_append_singleton htail.1]

/-! ## A text and its lines -/

/-- No keyword can reach over the end of a line. -/
def KeywordsFitLines (config : Config) : Prop :=
  ∀ kind, FitsLine (keyword config kind).toList

/-- Nothing is read of a line without keywords. -/
theorem parse?_append_of_absent {front rest : List Char} (hfits : KeywordsFitLines config)
    (habsent : ¬ HoldsKeyword config front) :
    parse? config (front ++ '\n' :: rest) = parse? config rest := by
  have hcut (kind : DirectiveKind) := cut?_append_cons (hfits kind).lacks_feed
    (fun hword => habsent ⟨kind, hword⟩) rest
  have henable := hcut .enable
  have hdisable := hcut .disable
  have hexpect := hcut .expectError
  simp only [keyword] at henable hdisable hexpect
  simp only [parse?, keywords, List.findSome?_cons, List.findSome?_nil, henable, hdisable,
    hexpect, Option.map_map, Function.comp_def]

/-- Blank lines behind a line with a keyword change nothing about it. -/
theorem parse?_of_blank_behind (hfits : KeywordsFitLines config) (h : IsLines text (line :: found))
    (hholds : HoldsKeyword config line) (hblank : ∀ later ∈ found, allBlank later = true) :
    parse? config text = parse? config line := by
  have hsame (kind : DirectiveKind) (hword : (keyword config kind).toList <:+: text) :
      (keyword config kind).toList <:+: line := by
    obtain ⟨held, hheld, hkeyword⟩ :=
      (h.infix_iff (hfits kind) (keyword_ne_nil config kind)).1 hword
    rcases List.mem_cons.1 hheld with rfl | hlater
    · exact hkeyword
    · exact absurd ⟨kind, hkeyword⟩ (not_holdsKeyword_of_allBlank (hblank held hlater))
  obtain ⟨tail, rfl, htail⟩ := h.exists_blank_tail hblank
  -- The keyword that decides about the line decides about the text: what follows adds none.
  obtain ⟨kind, hword⟩ := hholds
  obtain ⟨deciding, before, argument, habsent, hcut⟩ :=
    exists_decides fun hnone => cut?_eq_none_iff.1 hnone hword
  have hlonger : Decides config deciding (line ++ tail) before (argument ++ tail) :=
    ⟨fun other hother => cut?_eq_none_iff.2 fun hfound =>
      cut?_eq_none_iff.1 (habsent other hother) (hsame other hfound), cut?_append hcut tail⟩
  rw [hlonger.parse?_eq, Decides.parse?_eq ⟨habsent, hcut⟩, ofArgument_append_blanks htail]

/-- A text is read like its lines, one by one, if only blank lines follow a line that holds a
keyword. -/
theorem filterMap_parse?_of_pairwise (hfits : KeywordsFitLines config) (h : IsLines text found)
    (hblank : found.Pairwise fun line later => HoldsKeyword config line → allBlank later = true) :
    found.filterMap (parse? config) = (parse? config text).toList := by
  induction found generalizing text with
  | nil =>
    cases h
    rw [parse?_nil]
    rfl
  | cons line found ih =>
    rw [List.pairwise_cons] at hblank
    obtain ⟨rfl, rfl⟩ | ⟨mark, rest, hmark, htext, hrest⟩ := h.exists_rest
    · cases hparse : parse? config text <;> simp [hparse]
    · by_cases hholds : HoldsKeyword config line
      · have hbehind : ∀ later ∈ found, allBlank later = true :=
          fun later hlater => hblank.1 later hlater hholds
        have hnone : ∀ later ∈ found, parse? config later = none := fun later hlater =>
          parse?_eq_none_iff.2 (not_holdsKeyword_of_allBlank (hbehind later hlater))
        obtain ⟨directive, hline⟩ := hholds.exists_directive
        rw [parse?_of_blank_behind hfits h hholds hbehind, List.filterMap_cons_some hline, hline,
          List.filterMap_eq_nil_iff.2 hnone]
        rfl
      · have habsent : ¬ HoldsKeyword config (line ++ mark) := by
          rintro ⟨kind, hword⟩
          exact hholds ⟨kind, ((hfits kind).infix_append_mark_iff hmark line).1 hword⟩
        rw [List.filterMap_cons_none (parse?_eq_none_iff.2 hholds), ih hrest hblank.2, htext,
          parse?_append_of_absent hfits habsent]

/-- A text of one line is read like that line. -/
theorem filterMap_parse?_of_not_mem (hline : '\n' ∉ line) :
    (lines line).filterMap (parse? config) = (parse? config line).toList := by
  cases line with
  | nil =>
    rw [parse?_nil]
    rfl
  | cons c cs =>
    rw [(IsLines.last (List.cons_ne_nil c cs) hline).lines_eq]
    cases hparse : parse? config (c :: cs) <;> simp [hparse]

/-- The lines of a text that hold a keyword. -/
def keywordLines (config : Config) (text : List Char) : List (List Char) :=
  (lines text).filter (HoldsKeyword config ·)

theorem filterMap_parse?_lines (config : Config) (text : List Char) :
    (lines text).filterMap (parse? config) =
      (keywordLines config text).filterMap (parse? config) := by
  rw [keywordLines, List.filterMap_filter]
  congr 1
  funext line
  split
  · rfl
  · next hnone => exact parse?_eq_none_iff.2 (by simpa using hnone)

/-- A text is read like its lines, one by one, exactly if it holds no keyword, or if it is the
same directive as the only line that does. -/
theorem filterMap_parse?_eq_iff :
    (lines text).filterMap (parse? config) = (parse? config text).toList ↔
      ¬ HoldsKeyword config text ∨
        ∃ line, keywordLines config text = [line] ∧
          parse? config text = parse? config line := by
  have hheld {line : List Char} (hmem : line ∈ keywordLines config text) :
      HoldsKeyword config line ∧ HoldsKeyword config text := by
    obtain ⟨hline, hholds⟩ := List.mem_filter.1 hmem
    obtain ⟨kind, hword⟩ := of_decide_eq_true hholds
    exact ⟨⟨kind, hword⟩, kind, hword.trans (infix_of_mem_lines hline)⟩
  rw [filterMap_parse?_lines, ← parse?_eq_none_iff]
  match hlines : keywordLines config text with
  | [] => cases parse? config text <;> simp
  | [line] =>
    obtain ⟨hline, htext⟩ := hheld (hlines ▸ List.mem_singleton_self line)
    obtain ⟨directive, hdirective⟩ := hline.exists_directive
    obtain ⟨other, hother⟩ := htext.exists_directive
    simp [hdirective, hother, eq_comm]
  | first :: second :: rest =>
    obtain ⟨hfirst, htext⟩ := hheld (hlines ▸ List.mem_cons_self)
    obtain ⟨hsecond, -⟩ := hheld (hlines ▸ List.mem_cons_of_mem first List.mem_cons_self)
    obtain ⟨one, hone⟩ := hfirst.exists_directive
    obtain ⟨two, htwo⟩ := hsecond.exists_directive
    obtain ⟨other, hother⟩ := htext.exists_directive
    simp [hone, htwo, hother]

end Directive

end LintDirectives
