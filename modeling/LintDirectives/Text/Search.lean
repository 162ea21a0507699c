/-!
# Searching and splitting

First occurrences of a word in a text, and the pieces of a text between
separators.
-/

namespace LintDirectives.Text

/-- What follows `word` when the text starts with it. -/
def after? : List Char → List Char → Option (List Char)
  | [], text => some text
  | _ :: _, [] => none
  | w :: ws, c :: cs => if w = c then after? ws cs else none

/-- The text before and after the first occurrence of `word`. -/
def cut? (word : List Char) : List Char → Option (List Char × List Char)
  | [] => if word.isEmpty then some ([], []) else none
  | c :: cs =>
    match after? word (c :: cs) with
    | some after => some ([], after)
    | none => (cut? word cs).map fun (before, after) => (c :: before, after)

/-- The pieces of a text between the occurrences of `separator`. -/
def pieces (separator : Char) : List Char → List (List Char)
  | [] => [[]]
  | c :: cs =>
    if c = separator then [] :: pieces separator cs
    else match pieces separator cs with
      | [] => [[c]]
      | piece :: rest => (c :: piece) :: rest

/-- A text that starts with a word is that word and what follows. -/
theorem eq_of_after?_eq_some {word text rest : List Char} (h : after? word text = some rest) :
    text = word ++ rest := by
  fun_induction after? word text with
  | case1 text => simpa using h
  | case2 => simp at h
  | case3 ws c cs ih => rw [ih h, List.cons_append]
  | case4 => simp at h

/-- A cut takes out one occurrence and loses nothing else. -/
theorem eq_of_cut?_eq_some {word text before after : List Char}
    (h : cut? word text = some (before, after)) : text = before ++ word ++ after := by
  induction text generalizing before with
  | nil =>
    unfold cut? at h
    split at h
    · next hw => simp_all
    · simp at h
  | cons c cs ih =>
    unfold cut? at h
    split at h
    · next hp =>
      simp only [Option.some.injEq, Prod.mk.injEq] at h
      obtain ⟨rfl, rfl⟩ := h
      simpa using eq_of_after?_eq_some hp
    · obtain ⟨⟨b, a⟩, hcut, heq⟩ := Option.map_eq_some_iff.1 h
      simp only [Prod.mk.injEq] at heq
      obtain ⟨rfl, rfl⟩ := heq
      simp [ih hcut]

end LintDirectives.Text
