import LintDirectives.Json.Number
import LintDirectives.Text.Search

/-!
# JSON tokens

The words of a JSON text: brackets, separators, strings, numbers and the three
names.  `tokens` cuts a text into them.  Where the text stops being JSON a last
token `bad` stands, and nothing after it is looked at.

Every reader of one token returns the characters that are left, and
`next?_length` says that they are fewer.
-/

namespace LintDirectives.Json

/-- A word of a JSON text. -/
inductive Token where
  | openList
  | closeList
  | openRecord
  | closeRecord
  | comma
  | colon
  | null
  | bool (value : Bool)
  | string (value : String)
  | number (value : Number)
  /-- Not JSON from here on. -/
  | bad
deriving DecidableEq, Repr

namespace Token

/-! ## Strings -/

/-- The value of a hexadecimal digit. -/
def hexDigit? (c : Char) : Option Nat :=
  if '0' ≤ c ∧ c ≤ '9' then some (c.toNat - '0'.toNat)
  else if 'a' ≤ c ∧ c ≤ 'f' then some (c.toNat - 'a'.toNat + 10)
  else if 'A' ≤ c ∧ c ≤ 'F' then some (c.toNat - 'A'.toNat + 10)
  else none

/-- The code unit that four hexadecimal digits name. -/
def codeUnit? (a b c d : Char) : Option Nat := do
  let a ← hexDigit? a
  let b ← hexDigit? b
  let c ← hexDigit? c
  let d ← hexDigit? d
  return ((a * 16 + b) * 16 + c) * 16 + d

/-- The character that an escape of one letter stands for. -/
def escaped? (c : Char) : Option Char :=
  match c with
  | '\x22' => some '\x22'
  | '\\' => some '\\'
  | '/' => some '/'
  | 'b' => some '\x08'
  | 'f' => some '\x0c'
  | 'n' => some '\n'
  | 'r' => some '\r'
  | 't' => some '\t'
  | _ => none

/-- The code unit is the first of a surrogate pair. -/
def isHighSurrogate (code : Nat) : Bool :=
  0xD800 ≤ code && code ≤ 0xDBFF

/-- The code unit is the second of a surrogate pair. -/
def isLowSurrogate (code : Nat) : Bool :=
  0xDC00 ≤ code && code ≤ 0xDFFF

/-- The rest of a string after its opening quote: the characters it stands for, and the
text after its closing quote. -/
def stringBody? : List Char → Option (List Char × List Char)
  | '\x22' :: rest => some ([], rest)
  | '\\' :: 'u' :: a :: b :: c :: d :: '\\' :: 'u' :: e :: f :: g :: h :: rest =>
    match codeUnit? a b c d with
    | none => none
    | some high =>
      if isHighSurrogate high then
        match codeUnit? e f g h with
        | none => none
        | some low =>
          if isLowSurrogate low then
            let code := 0x10000 + (high - 0xD800) * 0x400 + (low - 0xDC00)
            (stringBody? rest).map fun (cs, after) => (Char.ofNat code :: cs, after)
          else none
      else if isLowSurrogate high then none
      else (stringBody? ('\\' :: 'u' :: e :: f :: g :: h :: rest)).map
        fun (cs, after) => (Char.ofNat high :: cs, after)
  | '\\' :: 'u' :: a :: b :: c :: d :: rest =>
    match codeUnit? a b c d with
    | none => none
    | some code =>
      if isHighSurrogate code || isLowSurrogate code then none
      else (stringBody? rest).map fun (cs, after) => (Char.ofNat code :: cs, after)
  | '\\' :: c :: rest =>
    match escaped? c with
    | none => none
    | some e => (stringBody? rest).map fun (cs, after) => (e :: cs, after)
  | c :: rest =>
    if c.toNat < 0x20 || c = '\\' then none
    else (stringBody? rest).map fun (cs, after) => (c :: cs, after)
  | [] => none

theorem stringBody?_length {text cs rest : List Char}
    (h : stringBody? text = some (cs, rest)) : rest.length < text.length := by
  fun_induction stringBody? text generalizing cs rest
  all_goals first
    | contradiction
    | (simp only [Option.some.injEq, Prod.mk.injEq] at h
       obtain ⟨-, rfl⟩ := h
       simp)
    | (obtain ⟨⟨ds, after⟩, hbody, heq⟩ := Option.map_eq_some_iff.1 h
       simp only [Prod.mk.injEq] at heq
       obtain ⟨-, rfl⟩ := heq
       rename_i ih
       have := ih hbody
       simp only [List.length_cons] at this ⊢
       omega)

/-! ## Numbers -/

/-- The digits at the start of a text, and what follows them. -/
def digits (text : List Char) : List Char × List Char :=
  (text.takeWhile Char.isDigit, text.dropWhile Char.isDigit)

/-- The fraction at the start of a text, if a point stands there. -/
def fraction? : List Char → Option (Option (List Char) × List Char)
  | '.' :: rest =>
    match digits rest with
    | ([], _) => none
    | (ds, after) => some (some ds, after)
  | text => some (none, text)

/-- The digits of an exponent, of the given sign. -/
def exponentDigits? (negative : Bool) (text : List Char) :
    Option (Option (Bool × List Char) × List Char) :=
  match digits text with
  | ([], _) => none
  | (ds, after) => some (some (negative, ds), after)

/-- The exponent at the start of a text, if its letter stands there. -/
def exponent? : List Char → Option (Option (Bool × List Char) × List Char)
  | c :: rest =>
    if c = 'e' || c = 'E' then
      match rest with
      | '+' :: after => exponentDigits? false after
      | '-' :: after => exponentDigits? true after
      | after => exponentDigits? false after
    else some (none, c :: rest)
  | [] => some (none, [])

/-- The number at the start of a text, after its sign.  A zero is not followed by
another digit before the point. -/
def unsigned? (negative : Bool) (text : List Char) : Option (Number × List Char) :=
  let whole := (digits text).1
  if whole.isEmpty || (1 < whole.length && whole.head? == some '0') then none
  else
    (fraction? (digits text).2).bind fun (fraction, afterFraction) =>
      (exponent? afterFraction).bind fun (exponent, after) =>
        (NumberText.number? ⟨negative, whole, fraction, exponent⟩).map fun number =>
          (number, after)

/-! ## One token -/

/-- The characters that may stand between tokens. -/
def isSpace (c : Char) : Bool :=
  c = ' ' || c = '\n' || c = '\t' || c = '\r'

/-- The token that starts with `c` and goes on in `rest`, and what follows it. -/
def start? (c : Char) (rest : List Char) : Option (Token × List Char) :=
  match c with
  | '[' => some (openList, rest)
  | ']' => some (closeList, rest)
  | '\x7b' => some (openRecord, rest)
  | '\x7d' => some (closeRecord, rest)
  | ',' => some (comma, rest)
  | ':' => some (colon, rest)
  | '\x22' => (stringBody? rest).map fun (cs, after) => (string (String.ofList cs), after)
  | 'n' => (Text.after? "ull".toList rest).map fun after => (null, after)
  | 't' => (Text.after? "rue".toList rest).map fun after => (bool true, after)
  | 'f' => (Text.after? "alse".toList rest).map fun after => (bool false, after)
  | '-' => (unsigned? true rest).map fun (value, after) => (number value, after)
  | c => (unsigned? false (c :: rest)).map fun (value, after) => (number value, after)

private theorem length_digits_le (text : List Char) : (digits text).2.length ≤ text.length :=
  (List.dropWhile_suffix _).length_le

private theorem fraction?_length {text after : List Char} {f : Option (List Char)}
    (h : fraction? text = some (f, after)) : after.length ≤ text.length := by
  unfold fraction? at h
  split at h
  · next rest =>
    split at h
    · simp at h
    · next ds a _ heq =>
      simp only [Option.some.injEq, Prod.mk.injEq] at h
      obtain ⟨-, rfl⟩ := h
      have := length_digits_le rest
      simp only [heq, List.length_cons] at this ⊢
      omega
  · simp only [Option.some.injEq, Prod.mk.injEq] at h
    obtain ⟨-, rfl⟩ := h
    exact Nat.le_refl _

private theorem exponentDigits?_length {negative : Bool} {text after : List Char}
    {e : Option (Bool × List Char)} (h : exponentDigits? negative text = some (e, after)) :
    after.length ≤ text.length := by
  unfold exponentDigits? at h
  split at h
  · simp at h
  · next ds a _ heq =>
    simp only [Option.some.injEq, Prod.mk.injEq] at h
    obtain ⟨-, rfl⟩ := h
    have := length_digits_le text
    rwa [heq] at this

private theorem exponent?_length {text after : List Char} {e : Option (Bool × List Char)}
    (h : exponent? text = some (e, after)) : after.length ≤ text.length := by
  unfold exponent? at h
  split at h
  · next c rest =>
    split at h
    · split at h <;>
      · have := exponentDigits?_length h
        simp only [List.length_cons] at this ⊢
        omega
    · simp only [Option.some.injEq, Prod.mk.injEq] at h
      obtain ⟨-, rfl⟩ := h
      exact Nat.le_refl _
  · simp only [Option.some.injEq, Prod.mk.injEq] at h
    obtain ⟨-, rfl⟩ := h
    exact Nat.le_refl _

private theorem length_digits_add (text : List Char) :
    (digits text).1.length + (digits text).2.length = text.length := by
  rw [← List.length_append]
  exact congrArg List.length List.takeWhile_append_dropWhile

private theorem unsigned?_length {negative : Bool} {text after : List Char} {n : Number}
    (h : unsigned? negative text = some (n, after)) : after.length < text.length := by
  unfold unsigned? at h
  dsimp only at h
  split at h
  · simp at h
  · next hwhole =>
    obtain ⟨⟨f, a⟩, hf, h⟩ := Option.bind_eq_some_iff.1 h
    obtain ⟨⟨e, b⟩, he, h⟩ := Option.bind_eq_some_iff.1 h
    obtain ⟨m, -, h⟩ := Option.map_eq_some_iff.1 h
    simp only [Prod.mk.injEq] at h
    obtain ⟨-, rfl⟩ := h
    have hadd := length_digits_add text
    have h1 := fraction?_length hf
    have h2 : b.length ≤ a.length := exponent?_length he
    have hpos : 0 < (digits text).1.length := by
      cases hd : (digits text).1 with
      | nil => simp [hd] at hwhole
      | cons d ds => simp
    omega

theorem start?_length {c : Char} {rest after : List Char} {token : Token}
    (h : start? c rest = some (token, after)) : after.length ≤ rest.length := by
  unfold start? at h
  split at h
  all_goals first
    | (simp only [Option.some.injEq, Prod.mk.injEq] at h
       obtain ⟨-, rfl⟩ := h
       exact Nat.le_refl _)
    | (obtain ⟨⟨cs, a⟩, hbody, heq⟩ := Option.map_eq_some_iff.1 h
       simp only [Prod.mk.injEq] at heq
       obtain ⟨-, rfl⟩ := heq
       first
         | exact Nat.le_of_lt (stringBody?_length hbody)
         | exact Nat.le_of_lt (unsigned?_length hbody)
         | exact Nat.le_of_lt_succ (unsigned?_length hbody))
    | (obtain ⟨a, hbody, heq⟩ := Option.map_eq_some_iff.1 h
       simp only [Prod.mk.injEq] at heq
       obtain ⟨-, rfl⟩ := heq
       have := congrArg List.length (Text.eq_of_after?_eq_some hbody)
       simp only [List.length_append] at this
       omega)

/-! ## All tokens -/

/-- The tokens of a text, up to the place where it stops being JSON. -/
def tokens : List Char → List Token
  | [] => []
  | c :: rest =>
    if isSpace c then tokens rest
    else match h : start? c rest with
      | none => [bad]
      | some (token, after) =>
        have := start?_length h
        token :: tokens after
termination_by text => text.length

end Token

end LintDirectives.Json
