import LintDirectives.Directive.HtmlComment
import LintDirectives.Proofs.Text.Boundary

/-!
# Where comment lines come from

Reading a document only ever takes parts out of it: a node takes the part that
its span covers, a comment the part between its markers, and a line the part up
to its terminator.  So every line that is read as a directive stands in the
document as it is.

The lemmas follow the way of a line: `infix_of_slice?`,
`infix_of_mem_bodies`, `infix_of_mem_lines`.
`infix_of_mem_commentLines` puts the last two together.
-/

namespace LintDirectives

namespace Text

variable {text part line : List Char}

theorem infix_of_slice? {start stop : Nat} (h : slice? text start stop = some part) :
    part <:+: text := by
  obtain ⟨before, after, rfl, -, -⟩ := slice?_eq_some_iff.1 h
  exact List.infix_append' before part after

theorem prefix_withoutTerminator (line : List Char) : withoutTerminator line <+: line := by
  unfold withoutTerminator
  split
  · next rest h =>
    exact ⟨['\r', '\n'], by rw [← List.reverse_reverse line, h]; simp⟩
  · next rest _ h =>
    exact ⟨['\n'], by rw [← List.reverse_reverse line, h]; simp⟩
  · exact List.prefix_refl line

theorem infix_of_mem_lines (h : line ∈ lines text) : line <:+: text := by
  obtain ⟨chunk, hchunk, rfl⟩ := List.mem_map.1 h
  have hinfix := List.infix_of_mem_flatten hchunk
  rw [chunks_flatten] at hinfix
  exact (prefix_withoutTerminator chunk).isInfix.trans hinfix

end Text

namespace HtmlComment

open Text

variable {text body line after : List Char}

/-- The first comment and what follows it are parts of the text. -/
theorem infix_of_first? (h : first? text = some (body, after)) :
    body <:+: text ∧ after <:+ text := by
  obtain ⟨⟨outside, inside⟩, hopen, hclose⟩ := Option.bind_eq_some_iff.1 h
  have htext := eq_of_cut?_eq_some hopen
  have hinside := eq_of_cut?_eq_some hclose
  refine ⟨⟨outside ++ opening, closing ++ after, ?_⟩, ⟨outside ++ opening ++ body ++ closing, ?_⟩⟩
  · rw [htext, hinside]
    simp only [List.append_assoc]
  · rw [htext, hinside]
    simp only [List.append_assoc]

theorem infix_of_mem_bodies (h : body ∈ bodies text) : body <:+: text := by
  fun_induction bodies text with
  | case1 => contradiction
  | case2 text first after hfirst ih =>
    obtain ⟨hbody, hafter⟩ := infix_of_first? hfirst
    rcases List.mem_cons.1 h with rfl | hmem
    · exact hbody
    · exact (ih hmem).trans hafter.isInfix

theorem infix_of_mem_commentLines (h : line ∈ commentLines text) : line <:+: text := by
  obtain ⟨hline, -⟩ := List.mem_filter.1 h
  obtain ⟨body, hbody, hline⟩ := List.mem_flatMap.1 hline
  exact (infix_of_mem_lines hline).trans (infix_of_mem_bodies hbody)

end HtmlComment

end LintDirectives
