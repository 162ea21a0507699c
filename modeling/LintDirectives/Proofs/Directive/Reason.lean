import LintDirectives.Inspection
import LintDirectives.Proofs.Text.Search

/-!
# The reason of a directive

A reason is a remark: a directive should do the same with it and without it.  This
holds for the list of rule ids, because the separator ends the list whatever comes
after it.  It holds for the kind only as long as the reason names no keyword that
overrides the directive's own, because keywords are looked for in the whole line.

* `keyword` and `overriding` say what `parse?` looks for and in which order, and
  `Decides` which keyword it goes by.
* `cutReason?_append_cons` follows the search for a separator across a blank,
  `cutReason?_append_reason` to the separator of a reason, and
  `ruleIds_append_reason` draws from it that the list stays what it was.
* `parse?_append_reason` puts both together for the default configuration.
-/

namespace LintDirectives

namespace Directive

open Text

/-! ## The keyword that decides -/

/-- The keyword of a kind of directive. -/
def keyword (config : Config) : DirectiveKind → String
  | .enable => config.enablingKeyword
  | .disable => config.disablingKeyword
  | .expectError => config.expectingKeyword

/-- The kinds whose keywords are looked for before the keyword of a kind.  A line that holds
one of these keywords has another kind. -/
def overriding : DirectiveKind → List DirectiveKind
  | .enable => []
  | .disable => [.enable]
  | .expectError => [.enable, .disable]

/-- The keyword of `kind` decides what a line is: none that overrides it is in the line, and
the line is cut at its first occurrence. -/
structure Decides (config : Config) (kind : DirectiveKind) (line before argument : List Char) :
    Prop where
  absent : ∀ other ∈ overriding kind, cut? (keyword config other).toList line = none
  cut : cut? (keyword config kind).toList line = some (before, argument)

theorem ofArgument_kind (kind : DirectiveKind) (argument : List Char) :
    (ofArgument kind argument).kind = kind := rfl

theorem ofArgument_rules (kind : DirectiveKind) (argument : List Char) :
    (ofArgument kind argument).rules =
      (ruleIds (splitReason argument).1).map String.ofList := rfl

section Keyword

variable {config : Config} {line before argument : List Char} {kind : DirectiveKind}
  {directive : Directive}

theorem Decides.parse?_eq (h : Decides config kind line before argument) :
    parse? config line = some (ofArgument kind argument) := by
  obtain ⟨habsent, hcut⟩ := h
  cases kind with
  | enable =>
    have henable : cut? config.enablingKeyword.toList line = some (before, argument) := hcut
    simp [parse?, keywords, henable]
  | disable =>
    have henable : cut? config.enablingKeyword.toList line = none :=
      habsent .enable (by simp [overriding])
    have hdisable : cut? config.disablingKeyword.toList line = some (before, argument) := hcut
    simp [parse?, keywords, henable, hdisable]
  | expectError =>
    have henable : cut? config.enablingKeyword.toList line = none :=
      habsent .enable (by simp [overriding])
    have hdisable : cut? config.disablingKeyword.toList line = none :=
      habsent .disable (by simp [overriding])
    have hexpect : cut? config.expectingKeyword.toList line = some (before, argument) := hcut
    simp [parse?, keywords, henable, hdisable, hexpect]

/-- Of the keywords in a line one decides. -/
theorem exists_decides (h : cut? (keyword config kind).toList line ≠ none) :
    ∃ deciding before argument, Decides config deciding line before argument := by
  cases henable : cut? (keyword config .enable).toList line with
  | some parts => exact ⟨.enable, parts.1, parts.2, by simp [overriding], henable⟩
  | none =>
    cases hdisable : cut? (keyword config .disable).toList line with
    | some parts => exact ⟨.disable, parts.1, parts.2, by simp [overriding, henable], hdisable⟩
    | none =>
      cases kind with
      | enable => exact absurd henable h
      | disable => exact absurd hdisable h
      | expectError =>
        obtain ⟨parts, hexpect⟩ := Option.ne_none_iff_exists'.1 h
        exact ⟨.expectError, parts.1, parts.2, by simp [overriding, henable, hdisable], hexpect⟩

theorem eq_keyword_of_mem_keywords {word : String} (h : (word, kind) ∈ keywords config) :
    word = keyword config kind := by
  simp only [keywords, List.mem_cons, Prod.mk.injEq, List.not_mem_nil, or_false] at h
  obtain ⟨rfl, rfl⟩ | ⟨rfl, rfl⟩ | ⟨rfl, rfl⟩ := h <;> rfl

/-- The keyword of its kind decides about the line of a directive. -/
theorem exists_decides_of_parse? (h : parse? config line = some directive) :
    ∃ before argument, Decides config directive.kind line before argument ∧
      directive = ofArgument directive.kind argument := by
  obtain ⟨⟨word, kind⟩, hmem, hfound⟩ := List.exists_of_findSome?_eq_some h
  obtain ⟨parts, hcut, -⟩ := Option.map_eq_some_iff.1 hfound
  rw [eq_keyword_of_mem_keywords hmem] at hcut
  obtain ⟨deciding, before, argument, hdecides⟩ :=
    exists_decides (Option.ne_none_iff_exists'.2 ⟨parts, hcut⟩)
  obtain rfl : directive = ofArgument deciding argument :=
    Option.some.inj (h.symm.trans hdecides.parse?_eq)
  exact ⟨before, argument, hdecides, rfl⟩

end Keyword

/-! ## The list in front of a separator -/

section Separator

variable {blank : Char}

/-- A blank ends a run of dashes, so what comes after the blank has no part in it. -/
theorem afterDashes?_append_cons (hblank : isBlank blank = true) (text more : List Char) :
    afterDashes? (text ++ blank :: more) =
      (afterDashes? text).map (· ++ blank :: more) := by
  have hdash : blank ≠ '-' := by
    rintro rfl
    exact absurd hblank (by decide)
  have hrest : (text ++ blank :: more).dropWhile (· = '-') =
      text.dropWhile (· = '-') ++ blank :: more := by
    rw [List.dropWhile_append]
    split
    · next hempty => simp [List.isEmpty_iff.1 hempty, hdash]
    · rfl
  have hlength (rest : List Char) :
      rest.length + (more.length + 1) + 2 ≤ text.length + (more.length + 1) ↔
        rest.length + 2 ≤ text.length := by
    omega
  unfold afterDashes?
  simp only [hrest, List.length_append, List.length_cons, hlength]
  split
  · cases text.dropWhile (· = '-') with
    | nil => simp [hblank]
    | cons c cs =>
      by_cases hc : isBlank c = true
      · simp [hc]
      · simp [hc]
  · rfl

/-- The search for a separator across a blank: a separator in front of the blank is found as
if the text ended there, and if there is none the search starts again behind the blank. -/
theorem cutReason?_append_cons (hblank : isBlank blank = true) (fresh : Bool)
    (text more : List Char) :
    cutReason? fresh (text ++ blank :: more) =
      match cutReason? fresh text with
      | some (list, after) => some (list, after ++ blank :: more)
      | none => (cutReason? true more).map fun (list, after) => (text ++ blank :: list, after) := by
  induction text generalizing fresh with
  | nil =>
    have hstart : afterDashes? (blank :: more) = none := by
      simpa [afterDashes?] using afterDashes?_append_cons hblank [] more
    simp [cutReason?, hstart, hblank]
  | cons c cs ih =>
    have hstart : (if fresh then afterDashes? (c :: cs ++ blank :: more) else none) =
        (if fresh then afterDashes? (c :: cs) else none).map (· ++ blank :: more) := by
      cases fresh with
      | false => rfl
      | true => exact afterDashes?_append_cons hblank (c :: cs) more
    rw [List.cons_append, cutReason?, cutReason?, ← List.cons_append, hstart]
    cases (if fresh then afterDashes? (c :: cs) else none) with
    | some after => rfl
    | none =>
      -- No separator starts here, in the short text as in the long one.
      simp only [Option.map_none, ih]
      cases cutReason? (isBlank c) cs with
      | some parts => rfl
      | none => cases cutReason? true more <;> rfl

/-- The separator of a reason is found if no earlier one is. -/
theorem cutReason?_append_reason (argument reason : List Char) :
    cutReason? true (argument ++ " -- ".toList ++ reason) =
      match cutReason? true argument with
      | some (list, after) => some (list, after ++ " -- ".toList ++ reason)
      | none => some (argument ++ [' '], ' ' :: reason) := by
  have hargument : argument ++ " -- ".toList ++ reason =
      argument ++ ' ' :: ('-' :: '-' :: ' ' :: reason) := by
    simp
  have hseparator : cutReason? true ('-' :: '-' :: ' ' :: reason) = some ([], ' ' :: reason) := by
    simp [cutReason?, afterDashes?, isBlank]
  rw [hargument, cutReason?_append_cons (by decide), hseparator]
  cases cutReason? true argument with
  | some parts => simp
  | none => rfl

/-- A blank at the end of a list belongs to no rule id. -/
theorem ruleIds_append_singleton (hblank : isBlank blank = true) (list : List Char) :
    ruleIds (list ++ [blank]) = ruleIds list := by
  have hcomma : blank ≠ ',' := by
    rintro rfl
    exact absurd hblank (by decide)
  obtain ⟨front, last, hpieces, hlonger⟩ := pieces_append_singleton hcomma list
  simp only [ruleIds, hpieces, hlonger, List.map_append, List.map_cons, List.map_nil,
    trim_append_singleton hblank]

end Separator

theorem splitReason_fst (argument : List Char) :
    (splitReason argument).1 = ((cutReason? true argument).map Prod.fst).getD argument := by
  unfold splitReason
  cases cutReason? true argument <;> rfl

/-- The rule ids of an argument are those in front of a reason that is given to it, also where
it has a reason already. -/
theorem ruleIds_append_reason (argument reason : List Char) :
    ruleIds (splitReason (argument ++ " -- ".toList ++ reason)).1 =
      ruleIds (splitReason argument).1 := by
  rw [splitReason_fst, splitReason_fst, cutReason?_append_reason]
  cases cutReason? true argument with
  | some parts => rfl
  | none => exact ruleIds_append_singleton (by decide) argument

/-! ## Lines with a reason -/

/-- No blank is in a default keyword, so the separator of a reason completes none. -/
theorem keyword_isInfix_append_reason_iff (kind : DirectiveKind) (line reason : List Char) :
    (keyword .default kind).toList <:+: line ++ " -- ".toList ++ reason ↔
      (keyword .default kind).toList <:+: line ∨ (keyword .default kind).toList <:+: reason := by
  have hblank : ' ' ∉ (keyword .default kind).toList := by
    cases kind <;> decide +kernel
  have hdashes : ¬ (keyword .default kind).toList <:+: ['-', '-'] := by
    cases kind <;> decide +kernel
  have hline : line ++ " -- ".toList ++ reason = line ++ ' ' :: (['-', '-'] ++ ' ' :: reason) := by
    simp
  rw [hline, infix_append_cons_iff hblank, infix_append_cons_iff hblank]
  simp [hdashes]

/-- A keyword is found in a line with a reason where it is found in the line. -/
theorem cut?_append_reason {word line before argument : List Char}
    (h : cut? word line = some (before, argument)) (reason : List Char) :
    cut? word (line ++ " -- ".toList ++ reason) =
      some (before, argument ++ " -- ".toList ++ reason) := by
  rw [List.append_assoc, cut?_append h, List.append_assoc]

/-- A keyword that decides goes on to decide when the reason names none that overrides it. -/
theorem Decides.append_reason {kind : DirectiveKind} {line before argument reason : List Char}
    (h : Decides .default kind line before argument)
    (hreason : ∀ other ∈ overriding kind, ¬ (keyword .default other).toList <:+: reason) :
    Decides .default kind (line ++ " -- ".toList ++ reason) before
      (argument ++ " -- ".toList ++ reason) := by
  refine ⟨fun other hother => ?_, cut?_append_reason h.cut reason⟩
  rw [cut?_eq_none_iff, keyword_isInfix_append_reason_iff, not_or]
  exact ⟨cut?_eq_none_iff.1 (h.absent other hother), hreason other hother⟩

/-- An inspection reads the kind of a directive and its rule ids, and nothing else. -/
theorem take_eq_of_kind_of_rules {one other : Directive} (hkind : one.kind = other.kind)
    (hrules : one.rules = other.rules) (span : Span) (inspection : Inspection) :
    Inspection.take span inspection one = Inspection.take span inspection other := by
  simp only [Inspection.take, hkind, hrules]

/-- A directive with a reason is a directive.  It has the kind of the directive without the
reason exactly if the reason names no keyword that overrides the directive's own.  Then it has
the same rule ids, and an inspection takes it up in the same way. -/
theorem parse?_append_reason {line : List Char} {directive : Directive}
    (h : parse? .default line = some directive) (reason : List Char) :
    ∃ described, parse? .default (line ++ " -- ".toList ++ reason) = some described ∧
      (described.kind = directive.kind ↔
        ∀ other ∈ overriding directive.kind, ¬ (keyword .default other).toList <:+: reason) ∧
      (described.kind = directive.kind → described.rules = directive.rules ∧
        ∀ span inspection,
          Inspection.take span inspection described =
            Inspection.take span inspection directive) := by
  obtain ⟨before, argument, hdecides, hdirective⟩ := exists_decides_of_parse? h
  have hcut := cut?_append_reason hdecides.cut reason
  obtain ⟨kind, front, rest, hlonger⟩ :=
    exists_decides (Option.ne_none_iff_exists'.2 ⟨_, hcut⟩)
  refine ⟨ofArgument kind rest, hlonger.parse?_eq, ⟨?_, ?_⟩, ?_⟩
  · intro hkind other hother hreason
    rw [ofArgument_kind] at hkind
    refine cut?_eq_none_iff.1 (hlonger.absent other (hkind ▸ hother)) ?_
    exact (keyword_isInfix_append_reason_iff other line reason).2 (.inr hreason)
  · intro hreason
    have hsame := hlonger.parse?_eq.symm.trans (hdecides.append_reason hreason).parse?_eq
    rw [Option.some.inj hsame, ofArgument_kind]
  · intro hkind
    have hrules : (ofArgument kind rest).rules = directive.rules := by
      -- The same keyword decides, so both lines are cut at its first occurrence.
      rw [ofArgument_kind] at hkind
      have hparts := (hkind ▸ hlonger.cut).symm.trans hcut
      obtain ⟨-, rfl⟩ := Prod.mk.inj (Option.some.inj hparts)
      rw [hdirective, ofArgument_rules, ofArgument_rules, ruleIds_append_reason]
    exact ⟨hrules, take_eq_of_kind_of_rules hkind hrules⟩

/-- A reason with dashes, a comma and the directive's own keyword is a reason like any other. -/
theorem parse?_append_own_keyword :
    parse? .default "textlint-disable ruleA , ruleB".toList =
        some ⟨.disable, ["ruleA", "ruleB"], none⟩ ∧
      (∀ other ∈ overriding .disable,
        ¬ (keyword .default other).toList <:+: "see -- textlint-disable, ruleC".toList) ∧
      ∃ described,
        parse? .default ("textlint-disable ruleA , ruleB".toList ++ " -- ".toList ++
          "see -- textlint-disable, ruleC".toList) = some described ∧
        described.kind = .disable ∧ described.rules = ["ruleA", "ruleB"] := by
  have hline : parse? .default "textlint-disable ruleA , ruleB".toList =
      some ⟨.disable, ["ruleA", "ruleB"], none⟩ := by decide +kernel
  have hreason : ∀ other ∈ overriding .disable,
      ¬ (keyword .default other).toList <:+: "see -- textlint-disable, ruleC".toList := by
    decide +kernel
  obtain ⟨described, hparse, hkind, hsame⟩ :=
    parse?_append_reason hline "see -- textlint-disable, ruleC".toList
  have hdisable : described.kind = .disable := hkind.2 hreason
  exact ⟨hline, hreason, described, hparse, hdisable, (hsame hdisable).1⟩

/-- A reason that names the enabling keyword makes an enable directive of a disable
directive. -/
theorem parse?_append_enabling_keyword :
    parse? .default "textlint-disable ruleA".toList = some ⟨.disable, ["ruleA"], none⟩ ∧
      parse? .default ("textlint-disable ruleA".toList ++ " -- ".toList ++
        "textlint-enable later".toList) = some ⟨.enable, ["later"], none⟩ ∧
      ¬ ∃ described,
        parse? .default ("textlint-disable ruleA".toList ++ " -- ".toList ++
          "textlint-enable later".toList) = some described ∧
        described.kind = .disable ∧ described.rules = ["ruleA"] := by
  have hreason : parse? .default ("textlint-disable ruleA".toList ++ " -- ".toList ++
      "textlint-enable later".toList) = some ⟨.enable, ["later"], none⟩ := by decide +kernel
  refine ⟨by decide +kernel, hreason, ?_⟩
  rintro ⟨described, hdescribed, hkind, -⟩
  obtain rfl := Option.some.inj (hreason.symm.trans hdescribed)
  cases hkind

end Directive

end LintDirectives
