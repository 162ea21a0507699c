import LintDirectives.Text.Blank
import LintDirectives.Text.Lines
import LintDirectives.Text.Search

/-!
# Comments in HTML

The bodies of the HTML comments in a text, and their lines.  A comment runs from
its opening marker to the nearest closing marker; what stands outside is dropped,
and so are blank lines.

One HTML node may hold several comments, because adjacent lines form one block.
-/

namespace LintDirectives.HtmlComment

open Text

/-- The marker that opens a comment. -/
def opening : List Char := "<!--".toList

/-- The marker that closes a comment. -/
def closing : List Char := "-->".toList

/-- The body of the first comment, and the text after that comment. -/
def first? (text : List Char) : Option (List Char × List Char) :=
  (cut? opening text).bind fun (_, inside) => cut? closing inside

theorem length_lt_of_first? {text body after : List Char}
    (h : first? text = some (body, after)) : after.length < text.length := by
  obtain ⟨⟨outside, inside⟩, hopen, hclose⟩ := Option.bind_eq_some_iff.1 h
  have ho := congrArg List.length (eq_of_cut?_eq_some hopen)
  have hc := congrArg List.length (eq_of_cut?_eq_some hclose)
  have hlen : opening.length = 4 := rfl
  simp only [List.length_append] at ho hc
  omega

/-- The bodies of all comments, in order. -/
def bodies (text : List Char) : List (List Char) :=
  match _h : first? text with
  | none => []
  | some (body, after) => body :: bodies after
termination_by text.length
decreasing_by exact length_lt_of_first? _h

/-- The text holds a comment. -/
def occursIn (text : List Char) : Bool :=
  (first? text).isSome

/-- The lines of all comments that are not blank. -/
def commentLines (text : List Char) : List (List Char) :=
  ((bodies text).flatMap lines).filter fun line => !allBlank line

end LintDirectives.HtmlComment
