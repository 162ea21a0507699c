import LintDirectives.Directive.HtmlComment
import LintDirectives.Proofs.Text.Lines
import LintDirectives.Proofs.Text.Search
import Mathlib.Data.List.Forall2

/-!
# Which comments a text holds

A text with comments is built from what stands outside them and from their bodies
(`interleave`).  When no part outside opens a comment and no body closes one, the
bodies are read back (`bodies_interleave`), whatever else the parts hold: a body
may end in dashes or open a comment, and a part outside may close one.  The reason
is that neither marker can overlap itself.

`occursIn_iff` says which texts hold a comment at all.
-/

namespace LintDirectives.HtmlComment

open Text

variable {text outside body next after : List Char} {parts : List (List Char × List Char)}

/-- A text with comments: `outside`, and then each body between its markers, with the text that
follows it. -/
def interleave (outside : List Char) : List (List Char × List Char) → List Char
  | [] => outside
  | (body, next) :: parts => outside ++ opening ++ body ++ closing ++ interleave next parts

theorem isBorderless_opening : IsBorderless opening := by decide

theorem isBorderless_closing : IsBorderless closing := by decide

/-! ## The first comment -/

theorem bodies_of_first?_eq_none (h : first? text = none) : bodies text = [] := by
  rw [bodies]
  split
  · rfl
  · next heq => rw [h] at heq; contradiction

theorem bodies_of_first?_eq_some (h : first? text = some (body, after)) :
    bodies text = body :: bodies after := by
  rw [bodies]
  split
  · next heq => rw [h] at heq; contradiction
  · next heq =>
    rw [h, Option.some.injEq, Prod.mk.injEq] at heq
    rw [heq.1, heq.2]

theorem first?_of_not_opening (h : ¬ opening <:+: outside) : first? outside = none := by
  rw [first?, cut?_eq_none_iff.2 h, Option.bind_none]

theorem first?_append_comment (houtside : ¬ opening <:+: outside) (hbody : ¬ closing <:+: body)
    (after : List Char) :
    first? (outside ++ opening ++ body ++ closing ++ after) = some (body, after) := by
  have htext : outside ++ opening ++ body ++ closing ++ after =
      outside ++ opening ++ (body ++ closing ++ after) := by
    simp only [List.append_assoc]
  rw [htext, first?, cut?_append_word isBorderless_opening houtside, Option.bind_some]
  exact cut?_append_word isBorderless_closing hbody after

/-! ## All comments -/

theorem bodies_interleave (houtside : ¬ opening <:+: outside)
    (hparts : ∀ part ∈ parts, ¬ closing <:+: part.1 ∧ ¬ opening <:+: part.2) :
    bodies (interleave outside parts) = parts.map Prod.fst := by
  induction parts generalizing outside with
  | nil => exact bodies_of_first?_eq_none (first?_of_not_opening houtside)
  | cons part parts ih =>
    obtain ⟨body, next⟩ := part
    rw [List.forall_mem_cons] at hparts
    have hfirst := first?_append_comment houtside hparts.1.1 (interleave next parts)
    rw [interleave, bodies_of_first?_eq_some hfirst, ih hparts.1.2 hparts.2, List.map_cons]

/-- Behind the first opening marker, a closing marker makes a comment. -/
theorem occursIn_iff_of_cut? {inside : List Char} (h : cut? opening text = some (outside, inside)) :
    occursIn text = true ↔ closing <:+: inside := by
  rw [occursIn, first?, h, Option.bind_some, ← not_iff_not, ← cut?_eq_none_iff]
  simp

/-- A text holds a comment when it opens one and closes one after that. -/
theorem occursIn_iff :
    occursIn text = true ↔
      ∃ before body after, text = before ++ opening ++ body ++ closing ++ after := by
  constructor
  · intro h
    obtain ⟨⟨body, after⟩, hfirst⟩ := Option.isSome_iff_exists.1 h
    obtain ⟨⟨before, inside⟩, hopen, hclose⟩ := Option.bind_eq_some_iff.1 hfirst
    refine ⟨before, body, after, ?_⟩
    rw [eq_of_cut?_eq_some hopen, eq_of_cut?_eq_some hclose]
    simp only [List.append_assoc]
  · rintro ⟨before, body, after, rfl⟩
    have hclosing : closing <:+: body ++ closing ++ after := List.infix_append body closing after
    have htext : before ++ opening ++ body ++ closing ++ after =
        before ++ opening ++ (body ++ closing ++ after) := by
      simp only [List.append_assoc]
    rw [htext]
    -- The first opening marker is the given one, or stands before it.
    by_cases hbefore : opening <:+: before
    · obtain ⟨⟨front, inside⟩, hcut⟩ :=
        Option.ne_none_iff_exists'.1 fun hnone => cut?_eq_none_iff.1 hnone hbefore
      rw [List.append_assoc, occursIn_iff_of_cut? (cut?_append hcut _)]
      exact hclosing.trans ((List.suffix_append _ _).trans (List.suffix_append _ _)).isInfix
    · rw [occursIn_iff_of_cut? (cut?_append_word isBorderless_opening hbefore _)]
      exact hclosing

/-! ## The lines -/

theorem occursIn_of_mem_commentLines {line : List Char} (h : line ∈ commentLines text) :
    occursIn text = true := by
  obtain ⟨body, hbody, -⟩ := List.mem_flatMap.1 (List.mem_filter.1 h).1
  by_contra hnone
  rw [occursIn, Option.not_isSome_iff_eq_none] at hnone
  rw [bodies_of_first?_eq_none hnone] at hbody
  contradiction

/-- The lines that are read from a text with comments are the lines of the bodies that are not
blank, in order, and nothing from outside.  A text holds a comment when it opens one and closes
one after that. -/
theorem commentLines_are_lines_of_bodies :
    (∀ outside parts bodyLines, ¬ opening <:+: outside →
      (∀ part ∈ parts, ¬ closing <:+: part.1 ∧ ¬ opening <:+: part.2) →
      List.Forall₂ (fun part lines => IsLines part.1 lines) parts bodyLines →
      commentLines (interleave outside parts) =
        bodyLines.flatten.filter fun line => !allBlank line) ∧
      ∀ text, occursIn text = true ↔
        ∃ before body after, text = before ++ opening ++ body ++ closing ++ after := by
  refine ⟨fun outside parts bodyLines houtside hparts hlines => ?_, fun text => occursIn_iff⟩
  have hbodies : (parts.map Prod.fst).flatMap lines = bodyLines.flatten := by
    induction hlines with
    | nil => rfl
    | cons hhead _ ih =>
      rw [List.forall_mem_cons] at hparts
      rw [List.map_cons, List.flatMap_cons, hhead.lines_eq, ih hparts.2, List.flatten_cons]
  rw [commentLines, bodies_interleave houtside hparts, hbodies]

/-- Two comments behind texts that end in the start of a marker.  The first body starts with the
end of a marker and ends in dashes, the second one opens a comment. -/
def overlappingParts : List (List Char × List Char) :=
  [("> one\r\n \ntwo --".toList, " -->\n<!".toList), ("<!-- three".toList, [])]

theorem commentLines_overlappingParts :
    (∀ part ∈ overlappingParts, ¬ closing <:+: part.1 ∧ ¬ opening <:+: part.2) ∧
      interleave "--> <!-".toList overlappingParts =
        "--> <!-<!--> one\r\n \ntwo ----> -->\n<!<!--<!-- three-->".toList ∧
      commentLines (interleave "--> <!-".toList overlappingParts) =
        ["> one".toList, "two --".toList, "<!-- three".toList] := by
  have hparts : ∀ part ∈ overlappingParts, ¬ closing <:+: part.1 ∧ ¬ opening <:+: part.2 := by
    decide +kernel
  have hlines : List.Forall₂ (fun part lines => IsLines part.1 lines) overlappingParts
      [["> one".toList, " ".toList, "two --".toList], ["<!-- three".toList]] :=
    .cons (isLines_iff.2 (by decide +kernel)) (.cons (isLines_iff.2 (by decide +kernel)) .nil)
  refine ⟨hparts, by decide +kernel, ?_⟩
  rw [commentLines_are_lines_of_bodies.1 _ _ _ (by decide +kernel) hparts hlines]
  decide +kernel

end LintDirectives.HtmlComment
