/-!
# Lines of a text

`chunks` cuts a text after every line feed and keeps the terminators, so the
chunks join to the text again.  `lines` drops each terminator, a line feed with
a carriage return before it or a line feed alone.  A carriage return that ends
the text is kept: it terminates nothing.
-/

namespace LintDirectives.Text

/-- The lines of a text, each with its terminator. -/
def chunks : List Char → List (List Char)
  | [] => []
  | c :: cs =>
    if c = '\n' then [c] :: chunks cs
    else match chunks cs with
      | [] => [[c]]
      | line :: rest => (c :: line) :: rest

/-- A line without its terminator. -/
def withoutTerminator (line : List Char) : List Char :=
  match line.reverse with
  | '\n' :: '\r' :: rest => rest.reverse
  | '\n' :: rest => rest.reverse
  | _ => line

/-- The lines of a text. -/
def lines (text : List Char) : List (List Char) :=
  (chunks text).map withoutTerminator

/-- No character is lost or moved by cutting. -/
theorem chunks_flatten (text : List Char) : (chunks text).flatten = text := by
  induction text with
  | nil => rfl
  | cons c cs ih =>
    unfold chunks
    by_cases hc : c = '\n'
    · simp [hc, ih]
    · simp only [hc, if_false]
      split
      · next h => rw [h] at ih; simp at ih; simp [← ih]
      · next line rest h => rw [h] at ih; simp at ih; simp [← ih]

end LintDirectives.Text
