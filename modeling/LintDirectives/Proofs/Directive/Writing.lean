import LintDirectives.Proofs.Directive.Reason
import LintDirectives.Proofs.Directive.RuleList
import Mathlib.Tactic.MkIffOfInductiveProp

/-!
# Writing a directive

`write` puts a directive into a line, behind any text.  Reading the line gives the
directive back, as long as the line holds no keyword that is found before the
one that was written, and the rule ids can be told apart in a list.

* `IsWritable` says which directives can be written.
* `ruleIds_writeRules` reads a list of rule ids back.
* A separator is a word of dashes (`HoldsDashes`).  A list without such a word is
  not cut (`splitReason_of_not_holdsDashes`), and with a reason it is cut where the
  reason was put (`splitReason_append_reason`).
* `ofArgument_write` reads back what is written behind the keyword, and
  `parse?_write` the line.
-/

namespace LintDirectives.Directive

open Text

/-! ## The line -/

/-- Rule ids as a list. -/
def writeRules (rules : List String) : List Char :=
  [',', ' '].intercalate (rules.map String.toList)

/-- A reason behind its separator. -/
def writeReason : Option String → List Char
  | none => []
  | some reason => " -- ".toList ++ reason.toList

/-- What is written behind the keyword. -/
def writeArgument (directive : Directive) : List Char :=
  ' ' :: (writeRules directive.rules ++ writeReason directive.reason)

/-- A directive as a line that starts with `before`. -/
def write (config : Config) (before : List Char) (directive : Directive) : List Char :=
  before ++ (keyword config directive.kind).toList ++ writeArgument directive

/-- Two or more dashes and nothing else. -/
def IsDashes (word : List Char) : Prop :=
  2 ≤ word.length ∧ ∀ c ∈ word, c = '-'

/-- Some word of the text, a part between blanks, is a run of dashes. -/
def HoldsDashes (text : List Char) : Prop :=
  ∃ word ∈ text.splitOnP isBlank, IsDashes word

/-- The rule id can be told apart in a list. -/
@[mk_iff]
structure IsListable (rule : String) : Prop where
  ne_empty : rule ≠ ""
  trimmed : trim rule.toList = rule.toList
  no_comma : ',' ∉ rule.toList
  no_dashes : ¬ HoldsDashes rule.toList

/-- The directive can be written into a line. -/
@[mk_iff]
structure IsWritable (directive : Directive) : Prop where
  distinct : directive.rules.Nodup
  listable : ∀ rule ∈ directive.rules, IsListable rule
  reason_ne_empty : ∀ reason ∈ directive.reason, reason ≠ ""
  reason_trimmed : ∀ reason ∈ directive.reason, trim reason.toList = reason.toList

instance (word : List Char) : Decidable (IsDashes word) :=
  decidable_of_iff (2 ≤ word.length ∧ word.all (· = '-') = true) (by simp [IsDashes])

instance (text : List Char) : Decidable (HoldsDashes text) :=
  inferInstanceAs (Decidable (∃ word ∈ text.splitOnP isBlank, IsDashes word))

instance (rule : String) : Decidable (IsListable rule) :=
  decidable_of_iff _ (isListable_iff rule).symm

instance (directive : Directive) : Decidable (IsWritable directive) :=
  decidable_of_iff _ (isWritable_iff directive).symm

/-! ## The list -/

theorem writeRules_singleton (rule : String) : writeRules [rule] = rule.toList := by
  simp [writeRules]

theorem writeRules_cons_cons (rule next : String) (rest : List String) :
    writeRules (rule :: next :: rest) =
      rule.toList ++ ',' :: ' ' :: writeRules (next :: rest) := by
  simp [writeRules]

theorem IsListable.isRuleId {rule : String} (h : IsListable rule) : IsRuleId rule.toList :=
  ⟨by simpa using h.ne_empty, h.trimmed, h.no_comma⟩

/-- Of the comma and the blank between two members, the blank is on the side of the second. -/
theorem intercalate_map_cons_blank {ids : List (List Char)} (hne : ids ≠ []) :
    [','].intercalate (ids.map (' ' :: ·)) = ' ' :: [',', ' '].intercalate ids := by
  induction ids with
  | nil => contradiction
  | cons id rest ih =>
    cases rest with
    | nil => simp
    | cons next rest =>
      rw [List.map_cons, List.map_cons, List.intercalate_cons_cons, ← List.map_cons,
        ih (List.cons_ne_nil next rest), List.intercalate_cons_cons]
      simp

/-- What is written is a list with the rule ids. -/
theorem spells_writeRules (rules : List String) :
    Spells (rules.map String.toList) (' ' :: writeRules rules) := by
  by_cases hne : rules.map String.toList = []
  · rw [writeRules, hne]
    exact ⟨[[' ']], Lists.nil.blank (by decide), rfl⟩
  · exact ⟨_, lists_map (fun id => ⟨[' '], [], by decide, rfl, by simp⟩) _,
      (intercalate_map_cons_blank hne).symm⟩

/-- The members of a list are read back. -/
theorem ruleIds_writeRules {rules : List String} (hdistinct : rules.Nodup)
    (h : ∀ rule ∈ rules, IsListable rule) :
    ruleIds (' ' :: writeRules rules) = rules.map String.toList := by
  have hnodup : (rules.map String.toList).Nodup :=
    hdistinct.map fun _ _ heq => String.toList_injective heq
  refine (spells_writeRules rules).ruleIds_eq hnodup ?_
  intro id hid
  obtain ⟨rule, hrule, rfl⟩ := List.mem_map.1 hid
  exact (h rule hrule).isRuleId

/-! ## The separator -/

section Separator

variable {blank : Char} {list : List Char}

/-- Every word is on one side of a blank. -/
theorem holdsDashes_append_cons_iff (hblank : isBlank blank = true) (xs ys : List Char) :
    HoldsDashes (xs ++ blank :: ys) ↔ HoldsDashes xs ∨ HoldsDashes ys := by
  simp [HoldsDashes, List.splitOnP_append_cons _ _ hblank, or_and_right, exists_or]

/-- A word that a comma is appended to is no run of dashes. -/
theorem HoldsDashes.of_append_comma (h : HoldsDashes (list ++ [','])) : HoldsDashes list := by
  obtain ⟨front, last, hwords, hlonger⟩ :=
    splitOnP_append_singleton (p := isBlank) (c := ',') (by decide) list
  obtain ⟨word, hword, hdashes⟩ := h
  rw [hlonger, List.mem_append, List.mem_singleton] at hword
  cases hword with
  | inl hfront => exact ⟨word, hwords ▸ List.mem_append_left _ hfront, hdashes⟩
  | inr hlast =>
    have hcomma : ',' = '-' := hdashes.2 ',' (by simp [hlast])
    exact absurd hcomma (by decide)

/-- Commas and blanks make no run of dashes in a list. -/
theorem not_holdsDashes_writeRules {rules : List String}
    (h : ∀ rule ∈ rules, ¬ HoldsDashes rule.toList) : ¬ HoldsDashes (writeRules rules) := by
  induction rules with
  | nil => decide
  | cons rule rest ih =>
    rw [List.forall_mem_cons] at h
    cases rest with
    | nil => simpa only [writeRules_singleton] using h.1
    | cons next rest =>
      have hline : writeRules (rule :: next :: rest) =
          (rule.toList ++ [',']) ++ ' ' :: writeRules (next :: rest) := by
        rw [writeRules_cons_cons, List.append_assoc, List.singleton_append]
      rw [hline, holdsDashes_append_cons_iff (by decide), not_or]
      exact ⟨fun hdashes => h.1 hdashes.of_append_comma, ih h.2⟩

theorem IsDashes.ne_nil {word : List Char} (h : IsDashes word) : word ≠ [] := by
  rintro rfl
  exact absurd h.1 (by decide)

theorem IsDashes.no_blank {word : List Char} (h : IsDashes word) :
    ∀ c ∈ word, isBlank c = false := by
  intro c hc
  rw [h.2 c hc]
  decide

/-- The search finds the dashes that a text starts with, when they are a word of it. -/
theorem afterDashes?_eq_some_iff {text after : List Char} :
    afterDashes? text = some after ↔
      ∃ word, text = word ++ after ∧ IsDashes word ∧ ∀ c ∈ after.head?, isBlank c = true := by
  constructor
  · intro h
    have htext : text.takeWhile (· = '-') ++ text.dropWhile (· = '-') = text :=
      List.takeWhile_append_dropWhile
    simp only [afterDashes?, Option.ite_none_right_eq_some] at h
    obtain ⟨hlong, hrest⟩ := h
    have hdashes : IsDashes (text.takeWhile (· = '-')) := by
      refine ⟨?_, fun c hc => of_decide_eq_true (List.all_eq_true.1 List.all_takeWhile c hc)⟩
      have hlength := congrArg List.length htext
      rw [List.length_append] at hlength
      omega
    have hstops : text.dropWhile (· = '-') = after ∧ ∀ c ∈ after.head?, isBlank c = true := by
      cases hdrop : text.dropWhile (· = '-') with
      | nil =>
        rw [hdrop] at hrest
        obtain rfl : [] = after := by simpa using hrest
        exact ⟨rfl, by simp⟩
      | cons c cs =>
        rw [hdrop] at hrest
        obtain ⟨hblank, rfl⟩ : isBlank c = true ∧ c :: cs = after := by simpa using hrest
        exact ⟨rfl, by simpa using hblank⟩
    exact ⟨_, by rw [← hstops.1, htext], hdashes, hstops.2⟩
  · rintro ⟨word, rfl, hdashes, hstops⟩
    have hdrop : (word ++ after).dropWhile (· = '-') = after := by
      rw [List.dropWhile_append_of_pos (by simpa using hdashes.2)]
      cases after with
      | nil => rfl
      | cons c cs =>
        have hdash : c ≠ '-' := by
          rintro rfl
          exact absurd (hstops '-' rfl) (by decide)
        rw [List.dropWhile_cons_of_neg (by simpa using hdash)]
    have hlong : after.length + 2 ≤ (word ++ after).length := by
      rw [List.length_append, Nat.add_comm]
      exact Nat.add_le_add_right hdashes.1 _
    rw [afterDashes?]
    simp only [hdrop, if_pos hlong]
    cases after with
    | nil => rfl
    | cons c cs => simp [hstops c rfl]

/-- Dashes in front of a blank or the end are the first word of a text. -/
theorem exists_word_of_afterDashes? {text after : List Char} (h : afterDashes? text = some after) :
    ∃ word rest, text.splitOnP isBlank = word :: rest ∧ IsDashes word := by
  obtain ⟨word, rfl, hdashes, hstops⟩ := afterDashes?_eq_some_iff.1 h
  -- The dashes are all of the text, or a blank ends the word that they are.
  cases after with
  | nil =>
    rw [List.append_nil]
    exact ⟨word, [], List.splitOnP_eq_singleton hdashes.no_blank, hdashes⟩
  | cons c cs =>
    have hblank : isBlank c = true := hstops c rfl
    exact ⟨word, _, List.splitOnP_append_cons_of_forall_mem hdashes.no_blank c hblank cs, hdashes⟩

/-- Where no word is a run of dashes, no separator is found.  In the middle of a word the search
goes on behind it, so the first word does not count there. -/
theorem cutReason?_eq_none (fresh : Bool) (text : List Char)
    (hlater : ∀ word ∈ (text.splitOnP isBlank).tail, ¬ IsDashes word)
    (hfirst : fresh = true → ¬ HoldsDashes text) : cutReason? fresh text = none := by
  induction text generalizing fresh with
  | nil => rfl
  | cons c cs ih =>
    have hstart : (if fresh then afterDashes? (c :: cs) else none) = none := by
      cases fresh with
      | false => rfl
      | true =>
        refine Option.eq_none_iff_forall_ne_some.2 fun after hafter => hfirst rfl ?_
        obtain ⟨word, rest, hwords, hdashes⟩ := exists_word_of_afterDashes? hafter
        exact ⟨word, by simp [hwords], hdashes⟩
    have hrest : cutReason? (isBlank c) cs = none := by
      -- Behind a blank every word is a later one; within a word the later ones stay the same.
      rw [List.splitOnP_cons_eq_if_modifyHead] at hlater
      cases hc : isBlank c with
      | true =>
        have hwords : ∀ word ∈ cs.splitOnP isBlank, ¬ IsDashes word := by simpa [hc] using hlater
        refine ih true (fun word hword => hwords word (List.mem_of_mem_tail hword)) ?_
        rintro - ⟨word, hword, hdashes⟩
        exact hwords word hword hdashes
      | false => exact ih false (by simpa [hc] using hlater) (by simp)
    rw [cutReason?, hstart, hrest]
    rfl

theorem cutReason?_of_not_holdsDashes (h : ¬ HoldsDashes list) : cutReason? true list = none :=
  cutReason?_eq_none true list
    (fun word hword hdashes => h ⟨word, List.mem_of_mem_tail hword, hdashes⟩) fun _ => h

/-- A list in which no word is a run of dashes has no reason. -/
theorem splitReason_of_not_holdsDashes (h : ¬ HoldsDashes list) :
    splitReason list = (list, none) := by
  rw [splitReason, cutReason?_of_not_holdsDashes h]

/-- Such a list is cut where a reason is given to it, whatever the reason holds. -/
theorem splitReason_append_reason {reason : List Char} (h : ¬ HoldsDashes list)
    (hne : reason ≠ []) (htrim : trim reason = reason) :
    splitReason (list ++ " -- ".toList ++ reason) = (list ++ [' '], some reason) := by
  rw [splitReason, cutReason?_append_reason, cutReason?_of_not_holdsDashes h]
  simp [trim_cons (by decide : isBlank ' ' = true), htrim, hne]

end Separator

/-! ## Reading back -/

/-- What is written behind the keyword is read back. -/
theorem ofArgument_write {directive : Directive} (h : IsWritable directive) :
    ofArgument directive.kind (writeArgument directive) = directive := by
  obtain ⟨kind, rules, reason⟩ := directive
  obtain ⟨hdistinct, hlistable, hne, htrimmed⟩ := h
  dsimp only at hdistinct hlistable hne htrimmed ⊢
  have hrules : (ruleIds (' ' :: writeRules rules)).map String.ofList = rules := by
    rw [ruleIds_writeRules hdistinct hlistable]
    simp [Function.comp_def]
  have hdashes : ¬ HoldsDashes (' ' :: writeRules rules) := by
    rw [← List.nil_append (' ' :: _), holdsDashes_append_cons_iff (by decide), not_or]
    exact ⟨by decide, not_holdsDashes_writeRules fun rule hrule => (hlistable rule hrule).no_dashes⟩
  cases reason with
  | none =>
    simp [ofArgument, writeArgument, writeReason, splitReason_of_not_holdsDashes hdashes, hrules]
  | some reason =>
    have hargument : writeArgument ⟨kind, rules, some reason⟩ =
        ' ' :: writeRules rules ++ " -- ".toList ++ reason.toList := by
      simp [writeArgument, writeReason]
    have hcut : splitReason (' ' :: writeRules rules ++ " -- ".toList ++ reason.toList) =
        (' ' :: writeRules rules ++ [' '], some reason.toList) :=
      splitReason_append_reason hdashes (by simpa using hne reason rfl) (htrimmed reason rfl)
    rw [ofArgument, hargument, hcut]
    simp only [ruleIds_append_singleton (by decide : isBlank ' ' = true), hrules,
      Option.map_some, String.ofList_toList]

/-- A directive that is written into a line is read back from it, if its keyword comes first
where it was written and the line holds no keyword that overrides it.  The text before it may
hold dashes, and the reason may hold dashes, commas and other keywords. -/
theorem parse?_write {config : Config} {before : List Char} {directive : Directive}
    (h : IsWritable directive)
    (hfirst : ∀ n < before.length,
      ¬ (keyword config directive.kind).toList <+: (write config before directive).drop n)
    (habsent : ∀ other ∈ overriding directive.kind,
      ¬ (keyword config other).toList <:+: write config before directive) :
    parse? config (write config before directive) = some directive := by
  have hdecides : Decides config directive.kind (write config before directive) before
      (writeArgument directive) :=
    ⟨fun other hother => cut?_eq_none_iff.2 (habsent other hother), cut?_of_first hfirst⟩
  rw [hdecides.parse?_eq, ofArgument_write h]

/-- Rule ids with dashes in them, and a reason with a comma, more separators and a keyword. -/
def dashedDirective : Directive :=
  ⟨.disable, ["rule -a", "b--c", "- d"], some "why, textlint-expect-error -- -x"⟩

/-- The directive is read back, also behind a text that ends in dashes. -/
theorem parse?_write_dashedDirective :
    IsWritable dashedDirective ∧
      write .default "# -- ".toList dashedDirective =
        "# -- textlint-disable rule -a, b--c, - d -- why, textlint-expect-error -- -x".toList ∧
      parse? .default (write .default "# -- ".toList dashedDirective) = some dashedDirective := by
  have hwritable : IsWritable dashedDirective := by decide +kernel
  exact ⟨hwritable, by decide +kernel,
    parse?_write hwritable (by decide +kernel) (by decide +kernel)⟩

end LintDirectives.Directive
