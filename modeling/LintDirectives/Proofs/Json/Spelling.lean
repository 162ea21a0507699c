import LintDirectives.Proofs.Json.Grammar

/-!
# Reading spelled tokens

However a token is spelled, it is cut off the text (`tokens_of_isWord`), and a text is cut
into the tokens that it spells, up to the first one that stands for nothing
(`tokens_of_isSpelling`).

* Strings.  `stringBody?_of_isBody` reads whatever the grammar allows.  The one place where
  two pieces have to be taken together is a pair of surrogates.
* Numbers.  `unsigned?_of_isUnsigned` does the same for numbers, if what follows does not go
  on with the number (`EndsNumber`).
* Tokens.  `MayPrecede` sees to it that no number runs into the token behind it.
-/

namespace LintDirectives.Json

open Token

/-! ## Strings -/

/-- Puts a character in front of what has been read of a string. -/
def prepend (c : Char) (read : Option (List Char × List Char)) : Option (List Char × List Char) :=
  read.map fun (cs, after) => (c :: cs, after)

theorem stringBody?_of_plain {c : Char} (hquote : c ≠ '\x22') (hslash : c ≠ '\\')
    (hcontrol : 0x20 ≤ c.toNat) (rest : List Char) :
    stringBody? (c :: rest) = prepend c (stringBody? rest) := by
  have hplain : (c.toNat < 0x20 || c = '\\') = false := by simp [hslash, hcontrol]
  rw [stringBody?.eq_5 c rest hquote (fun _ _ _ _ _ _ _ _ _ h => absurd h hslash)
    (fun _ _ _ _ _ h => absurd h hslash) fun _ _ h => absurd h hslash]
  simp only [hplain, Bool.false_eq_true, if_false]
  rfl

theorem stringBody?_of_escaped {c e : Char} (h : escaped? c = some e) (rest : List Char) :
    stringBody? ('\\' :: c :: rest) = prepend e (stringBody? rest) := by
  have hunit : c ≠ 'u' := by
    rintro rfl
    contradiction
  rw [stringBody?.eq_4 c rest (fun _ _ _ _ _ _ _ _ _ h => absurd h hunit)
    fun _ _ _ _ _ h => absurd h hunit]
  simp only [h]
  rfl

theorem stringBody?_of_codeUnit {a b c d : Char} {code : Nat} (h : codeUnit? a b c d = some code)
    (hhigh : isHighSurrogate code = false) (hlow : isLowSurrogate code = false)
    (rest : List Char) :
    stringBody? ('\\' :: 'u' :: a :: b :: c :: d :: rest) =
      prepend (Char.ofNat code) (stringBody? rest) := by
  -- A second code unit is looked at, but it does not matter: the first one stands alone.
  by_cases hnext : ∃ e f g h after, rest = '\\' :: 'u' :: e :: f :: g :: h :: after
  · obtain ⟨e, f, g, i, after, rfl⟩ := hnext
    rw [stringBody?.eq_2]
    simp only [h, hhigh, hlow, Bool.false_eq_true, if_false]
    rfl
  · rw [stringBody?.eq_3 a b c d rest fun e f g i after heq => hnext ⟨e, f, g, i, after, heq⟩]
    simp only [h, hhigh, hlow, Bool.or_self, Bool.false_eq_true, if_false]
    rfl

section Strings

variable {a b c d : Char} {unit : Nat} {text rest : List Char} {units : List Nat}

theorem stringBody?_of_pair {e f g h : Char} {high low : Nat}
    (hfirst : codeUnit? a b c d = some high) (hsecond : codeUnit? e f g h = some low)
    (hhigh : isHighSurrogate high = true) (hlow : isLowSurrogate low = true) :
    stringBody? ('\\' :: 'u' :: a :: b :: c :: d :: '\\' :: 'u' :: e :: f :: g :: h :: rest) =
      prepend (Char.ofNat (0x10000 + (high - 0xD800) * 0x400 + (low - 0xDC00)))
        (stringBody? rest) := by
  rw [stringBody?.eq_2]
  simp only [hfirst, hsecond, hhigh, hlow, if_true]
  rfl

theorem stringBody?_of_low (hunit : codeUnit? a b c d = some unit)
    (hlow : isLowSurrogate unit = true) :
    stringBody? ('\\' :: 'u' :: a :: b :: c :: d :: rest) = none := by
  have hhigh := isHighSurrogate_of_isLowSurrogate hlow
  by_cases hnext : ∃ e f g h after, rest = '\\' :: 'u' :: e :: f :: g :: h :: after
  · obtain ⟨e, f, g, h, after, rfl⟩ := hnext
    rw [stringBody?.eq_2]
    simp [hunit, hhigh, hlow]
  · rw [stringBody?.eq_3 a b c d rest fun e f g h after heq => hnext ⟨e, f, g, h, after, heq⟩]
    simp [hunit, hlow]

/-- The text starts with a code unit that is the second half of a pair. -/
def StartsLow (text : List Char) : Prop :=
  ∃ e f g h after low, text = '\\' :: 'u' :: e :: f :: g :: h :: after ∧
    codeUnit? e f g h = some low ∧ isLowSurrogate low = true

theorem stringBody?_of_high (hunit : codeUnit? a b c d = some unit)
    (hhigh : isHighSurrogate unit = true) (hnext : ¬StartsLow rest) :
    stringBody? ('\\' :: 'u' :: a :: b :: c :: d :: rest) = none := by
  by_cases hescape : ∃ e f g h after, rest = '\\' :: 'u' :: e :: f :: g :: h :: after
  · obtain ⟨e, f, g, h, after, rfl⟩ := hescape
    rw [stringBody?.eq_2]
    simp only [hunit, hhigh, if_true]
    cases hsecond : codeUnit? e f g h with
    | none => rfl
    | some low =>
      have hlow : isLowSurrogate low = false := by
        by_contra hlow
        exact hnext ⟨e, f, g, h, after, low, rfl, hsecond, by simpa using hlow⟩
      simp [hlow]
  · rw [stringBody?.eq_3 a b c d rest fun e f g h after heq => hescape ⟨e, f, g, h, after, heq⟩]
    simp [hunit, hhigh]

/-- The inside of a string starts with the second half of a pair, or neither it nor its code
units do. -/
theorem IsBody.starts (h : IsBody text units) (rest : List Char) :
    (∃ a b c d low after others, text = '\\' :: 'u' :: a :: b :: c :: d :: after ∧
        units = low :: others ∧ codeUnit? a b c d = some low ∧ isLowSurrogate low = true ∧
        IsBody after others) ∨
      (∀ next ∈ units.head?, isLowSurrogate next = false) ∧
        ¬StartsLow (text ++ '\x22' :: rest) := by
  cases h with
  | nil => exact .inr ⟨by simp, by simp [StartsLow]⟩
  | plain hquote hslash hcontrol h =>
    refine .inr ⟨fun next hnext => isLowSurrogate_of_mem_head? hnext, ?_⟩
    rintro ⟨_, _, _, _, _, _, heq, -⟩
    exact hslash (List.cons.inj heq).1
  | @escaped letter c _ _ hletter h =>
    refine .inr ⟨fun next hnext => isLowSurrogate_of_mem_head? hnext, ?_⟩
    rintro ⟨_, _, _, _, _, _, heq, -⟩
    obtain ⟨rfl, -⟩ := List.cons.inj (List.cons.inj heq).2
    contradiction
  | @unit a b c d unit after others hunit h =>
    by_cases hlow : isLowSurrogate unit = true
    · exact .inl ⟨a, b, c, d, unit, after, others, rfl, rfl, hunit, hlow, h⟩
    · refine .inr ⟨by simpa using hlow, ?_⟩
      rintro ⟨_, _, _, _, _, low, heq, hsecond, hlow'⟩
      simp only [List.cons_append, List.cons.injEq, true_and] at heq
      obtain ⟨rfl, rfl, rfl, rfl, -⟩ := heq
      rw [hunit, Option.some.injEq] at hsecond
      exact hlow (hsecond ▸ hlow')

/-- Whatever spells a string is read as the characters that its code units make up. -/
theorem stringBody?_of_isBody (h : IsBody text units) (rest : List Char) :
    stringBody? (text ++ '\x22' :: rest) = (ofCodeUnits? units).map (·, rest) := by
  -- A pair of surrogates takes two pieces at once, hence the induction on the length.
  induction hn : text.length using Nat.strongRecOn generalizing text units with
  | _ n ih =>
    subst hn
    cases h with
    | nil => exact stringBody?.eq_1 rest
    | @plain c text units hquote hslash hcontrol h =>
      rw [List.cons_append, stringBody?_of_plain hquote hslash hcontrol, ofCodeUnits?_append,
        ih _ (by simp) h rfl]
      cases ofCodeUnits? units <;> rfl
    | @escaped letter c text units hletter h =>
      rw [List.cons_append, List.cons_append, stringBody?_of_escaped hletter,
        ofCodeUnits?_append, ih _ (by simp only [List.length_cons]; omega) h rfl]
      cases ofCodeUnits? units <;> rfl
    | @unit a b c d unit text units hunit h =>
      simp only [List.cons_append]
      cases hlow : isLowSurrogate unit with
      | true =>
        rw [stringBody?_of_low hunit hlow, ofCodeUnits?_low hlow]
        rfl
      | false =>
        cases hhigh : isHighSurrogate unit with
        | false =>
          rw [stringBody?_of_codeUnit hunit hhigh hlow, ofCodeUnits?_cons hhigh hlow,
            ih _ (by simp only [List.length_cons]; omega) h rfl]
          cases ofCodeUnits? units <;> rfl
        | true =>
          obtain ⟨e, f, g, i, low, after, others, rfl, rfl, hsecond, hlow, h⟩ |
            ⟨hunits, hnext⟩ := h.starts rest
          · simp only [List.cons_append]
            rw [stringBody?_of_pair hunit hsecond hhigh hlow, ofCodeUnits?_pair hhigh hlow,
              ih _ (by simp only [List.length_cons]; omega) h rfl]
            cases ofCodeUnits? others <;> rfl
          · rw [stringBody?_of_high hunit hhigh hnext, ofCodeUnits?_high hhigh hunits]
            rfl

end Strings

/-! ## Numbers -/

/-- No number goes on with this text. -/
def EndsNumber (text : List Char) : Prop :=
  ∀ c ∈ text.head?, c.isDigit = false ∧ c ≠ '.' ∧ c ≠ 'e' ∧ c ≠ 'E'

theorem endsNumber_nil : EndsNumber [] := by simp [EndsNumber]

theorem endsNumber_cons {c : Char} {rest : List Char} :
    EndsNumber (c :: rest) ↔ c.isDigit = false ∧ c ≠ '.' ∧ c ≠ 'e' ∧ c ≠ 'E' := by
  simp [EndsNumber]

theorem endsNumber_append_of_isSpace {gap rest : List Char} (hgap : ∀ c ∈ gap, isSpace c = true)
    (hrest : EndsNumber rest) : EndsNumber (gap ++ rest) := by
  cases gap with
  | nil => exact hrest
  | cons c gap =>
    have hc := hgap c List.mem_cons_self
    simp only [isSpace, Bool.or_eq_true, decide_eq_true_eq] at hc
    rw [List.cons_append, endsNumber_cons]
    rcases hc with ((rfl | rfl) | rfl) | rfl <;> decide

theorem exponent?_of_endsNumber {rest : List Char} (h : EndsNumber rest) :
    exponent? rest = some (none, rest) := by
  cases rest with
  | nil => rfl
  | cons c cs =>
    obtain ⟨-, -, hlower, hupper⟩ := endsNumber_cons.1 h
    simp [exponent?, hlower, hupper]

/-- A digit starts a number. -/
theorem start?_of_isDigit {d : Char} (h : d.isDigit = true) (rest : List Char) :
    start? d rest =
      (unsigned? false (d :: rest)).map fun (value, after) => (number value, after) := by
  unfold start?
  split
  all_goals first
    | rfl
    | exact absurd h (by decide)

section Numbers

variable {text rest : List Char}

theorem digits_of_isDigits {ds : List Char} (h : IsDigits ds)
    (hrest : ∀ c ∈ rest.head?, c.isDigit = false) : digits (ds ++ rest) = (ds, rest) := by
  have hnone : rest.takeWhile Char.isDigit = [] ∧ rest.dropWhile Char.isDigit = rest := by
    cases rest with
    | nil => exact ⟨rfl, rfl⟩
    | cons c cs => simp [hrest c rfl]
  rw [digits, List.takeWhile_append_of_pos h.2, List.dropWhile_append_of_pos h.2, hnone.1,
    hnone.2, List.append_nil]

theorem fraction?_of_isFraction {fraction : Option (List Char)} (h : IsFraction text fraction)
    (hrest : ∀ c ∈ rest.head?, c.isDigit = false ∧ c ≠ '.') :
    fraction? (text ++ rest) = some (fraction, rest) := by
  cases h with
  | none =>
    rw [List.nil_append]
    unfold fraction?
    split
    · exact absurd rfl (hrest '.' rfl).2
    · rfl
  | @some ds h =>
    have hne := h.1
    rw [List.cons_append, fraction?, digits_of_isDigits h fun c hc => (hrest c hc).1]
    split
    · next heq =>
      cases heq
      contradiction
    · next heq =>
      cases heq
      rfl

theorem exponentDigits?_of_isDigits {ds : List Char} (negative : Bool) (h : IsDigits ds)
    (hrest : ∀ c ∈ rest.head?, c.isDigit = false) :
    exponentDigits? negative (ds ++ rest) = some (some (negative, ds), rest) := by
  have hne := h.1
  rw [exponentDigits?, digits_of_isDigits h hrest]
  split
  · next heq =>
    cases heq
    contradiction
  · next heq =>
    cases heq
    rfl

theorem exponent?_of_isExponent {exponent : Option (Bool × List Char)}
    (h : IsExponent text exponent) (hrest : EndsNumber rest) :
    exponent? (text ++ rest) = some (exponent, rest) := by
  have hdigit : ∀ c ∈ rest.head?, c.isDigit = false := fun c hc => (hrest c hc).1
  cases h with
  | none => exact exponent?_of_endsNumber hrest
  | @bare e ds he h =>
    obtain ⟨d, more, rfl⟩ := List.exists_cons_of_ne_nil h.1
    have hd : d.isDigit = true := h.2 d List.mem_cons_self
    have hread := exponentDigits?_of_isDigits false h hdigit
    rw [List.cons_append] at hread
    simp only [List.cons_append, exponent?, he, decide_eq_true_eq, Bool.or_eq_true, if_true]
    split
    · next heq =>
      cases heq
      contradiction
    · next heq =>
      cases heq
      contradiction
    · exact hread
  | plus he h =>
    simp only [List.cons_append, exponent?, he, decide_eq_true_eq, Bool.or_eq_true, if_true]
    exact exponentDigits?_of_isDigits false h hdigit
  | minus he h =>
    simp only [List.cons_append, exponent?, he, decide_eq_true_eq, Bool.or_eq_true, if_true]
    exact exponentDigits?_of_isDigits true h hdigit

theorem IsExponent.head {exponent : Option (Bool × List Char)} (h : IsExponent text exponent)
    (hrest : EndsNumber rest) : ∀ c ∈ (text ++ rest).head?, c.isDigit = false ∧ c ≠ '.' := by
  cases h with
  | none => exact fun c hc => ⟨(hrest c hc).1, (hrest c hc).2.1⟩
  | bare he | plus he | minus he => rcases he with rfl | rfl <;> simp

theorem IsFraction.head {fraction : Option (List Char)} (h : IsFraction text fraction)
    (hrest : ∀ c ∈ rest.head?, c.isDigit = false) :
    ∀ c ∈ (text ++ rest).head?, c.isDigit = false := by
  cases h with
  | none => exact hrest
  | some => simp

/-- Whatever spells a number without its sign is read as what its digits stand for. -/
theorem unsigned?_of_isUnsigned {numeral : NumberText} (h : IsUnsigned text numeral)
    (hrest : EndsNumber rest) :
    unsigned? numeral.negative (text ++ rest) = numeral.number?.map (·, rest) := by
  obtain ⟨hdigits, hzero, fraction, exponent, rfl, hfraction, hexponent⟩ := h
  have hstart : (numeral.whole.isEmpty ||
      (1 < numeral.whole.length && numeral.whole.head? == some '0')) = false := by
    have hne := hdigits.1
    by_cases hhead : numeral.whole.head? = some '0'
    · simp [hzero hhead]
    · simp [hhead, hne]
  have hpoint := hexponent.head hrest
  have hdigit := hfraction.head fun c hc => (hpoint c hc).1
  rw [List.append_assoc, List.append_assoc, unsigned?, digits_of_isDigits hdigits hdigit]
  simp only [hstart, Bool.false_eq_true, if_false, fraction?_of_isFraction hfraction hpoint,
    exponent?_of_isExponent hexponent hrest, Option.bind_some]

end Numbers

/-! ## Tokens -/

theorem tokens_cons_of_isSpace {c : Char} (h : isSpace c = true) (rest : List Char) :
    tokens (c :: rest) = tokens rest := by
  rw [tokens, if_pos h]

theorem tokens_append_of_isSpace {gap : List Char} (h : ∀ c ∈ gap, isSpace c = true)
    (rest : List Char) : tokens (gap ++ rest) = tokens rest := by
  induction gap with
  | nil => rfl
  | cons c gap ih =>
    rw [List.forall_mem_cons] at h
    rw [List.cons_append, tokens_cons_of_isSpace h.1, ih h.2]

theorem tokens_cons_of_start? {c : Char} {rest after : List Char} {token : Token}
    (hspace : isSpace c = false) (h : start? c rest = some (token, after)) :
    tokens (c :: rest) = token :: tokens after := by
  rw [tokens, if_neg (by simp [hspace])]
  split
  · next hnone => rw [h] at hnone; contradiction
  · next found hfound =>
    rw [h, Option.some.injEq, Prod.mk.injEq] at hfound
    rw [hfound.1, hfound.2]

theorem tokens_cons_of_start?_eq_none {c : Char} {rest : List Char} (hspace : isSpace c = false)
    (h : start? c rest = none) : tokens (c :: rest) = [.bad] := by
  rw [tokens, if_neg (by simp [hspace])]
  split
  · rfl
  · next hsome =>
    rw [h] at hsome
    contradiction

/-- The tokens up to the first one that stands for nothing. -/
def upToBad : List Token → List Token
  | [] => []
  | token :: ts => if token = .bad then [.bad] else token :: upToBad ts

/-- The token is that of a number, or of a number that is too large. -/
def IsNumberWord (token : Token) : Prop :=
  ∃ n, token = numberWord n

theorem isNumberWord_iff {token : Token} :
    IsNumberWord token ↔ token = .bad ∨ ∃ n, token = .number n := by
  rw [IsNumberWord, Option.exists]
  rfl

theorem tokens_of_stringBody? {text rest : List Char} {s : Option (List Char)}
    (h : stringBody? (text ++ '\x22' :: rest) = s.map (·, rest)) :
    tokens ('\x22' :: (text ++ ['\x22']) ++ rest) =
      if stringWord (s.map String.ofList) = .bad then [.bad]
      else stringWord (s.map String.ofList) :: tokens rest := by
  rw [List.cons_append, List.append_assoc, List.singleton_append]
  cases s with
  | none => exact tokens_cons_of_start?_eq_none rfl (by simp [start?, h])
  | some cs =>
    have hstart : start? '\x22' (text ++ '\x22' :: rest) =
        some (.string (String.ofList cs), rest) := by simp [start?, h]
    exact tokens_cons_of_start? rfl hstart

/-- A number is read as its token, from a character that starts it. -/
theorem tokens_of_unsigned? {c : Char} {text rest : List Char} {n : Option Number}
    (hspace : isSpace c = false)
    (h : start? c text = (n.map (·, rest)).map fun (value, after) => (.number value, after)) :
    tokens (c :: text) =
      if numberWord n = .bad then [.bad] else numberWord n :: tokens rest := by
  cases n with
  | none => exact tokens_cons_of_start?_eq_none hspace h
  | some n => exact tokens_cons_of_start? hspace h

theorem isSpace_of_isDigit {d : Char} (h : d.isDigit = true) : isSpace d = false := by
  by_contra hspace
  simp only [isSpace, Bool.not_eq_false, Bool.or_eq_true, decide_eq_true_eq] at hspace
  rcases hspace with ((rfl | rfl) | rfl) | rfl <;> contradiction

/-- However a token is spelled, it is cut off, unless it stands for nothing. -/
theorem tokens_of_isWord {text rest : List Char} {token : Token} (h : IsWord text token)
    (hrest : IsNumberWord token → EndsNumber rest) :
    tokens (text ++ rest) = if token = .bad then [.bad] else token :: tokens rest := by
  cases h with
  | openList | closeList | openRecord | closeRecord | comma | colon | null | true | false =>
    exact tokens_cons_of_start? rfl rfl
  | string h => exact tokens_of_stringBody? (stringBody?_of_isBody h rest)
  | @number text numeral h hsign =>
    have hread := unsigned?_of_isUnsigned h (hrest ⟨_, rfl⟩)
    obtain ⟨hdigits, -, fraction, exponent, rfl, -⟩ := h
    obtain ⟨d, ds, hds⟩ := List.exists_cons_of_ne_nil hdigits.1
    have hd : d.isDigit = true := hdigits.2 d (by simp [hds])
    rw [hds, hsign] at hread
    rw [hds]
    refine tokens_of_unsigned? (isSpace_of_isDigit hd) ?_
    rw [start?_of_isDigit hd]
    exact congrArg _ hread
  | @negative text numeral h hsign =>
    have hread := unsigned?_of_isUnsigned h (hrest ⟨_, rfl⟩)
    rw [hsign] at hread
    refine tokens_of_unsigned? rfl ?_
    exact congrArg (Option.map _) hread

/-- No number goes on with this token. -/
def IsSeparator : Token → Prop
  | .comma | .colon | .closeList | .closeRecord => True
  | _ => False

theorem not_isSeparator_stringWord (s : Option String) : ¬IsSeparator (stringWord s) := by
  cases s <;> exact id

theorem not_isSeparator_numberWord (n : Option Number) : ¬IsSeparator (numberWord n) := by
  cases n <;> exact id

/-- The tokens may stand next to each other, with no space between them. -/
def MayPrecede (token next : Token) : Prop :=
  IsNumberWord token → IsSeparator next

theorem endsNumber_of_isSpelling {text : List Char} {ts : List Token} (h : IsSpelling text ts)
    (hts : ∀ token ∈ ts.head?, IsSeparator token) : EndsNumber text := by
  cases h with
  | nil hgap => simpa using endsNumber_append_of_isSpace hgap endsNumber_nil
  | @cons gap text rest token ts hgap hword h =>
    refine endsNumber_append_of_isSpace hgap ?_
    have htoken : IsSeparator token := hts token rfl
    cases hword with
    | closeList | closeRecord | comma | colon => exact endsNumber_cons.2 (by decide)
    | string h => exact absurd htoken (not_isSeparator_stringWord _)
    | number h | negative h => exact absurd htoken (not_isSeparator_numberWord _)
    | _ => exact htoken.elim

/-- A text is cut into the tokens that it spells, up to the first that stands for nothing. -/
theorem tokens_of_isSpelling {text : List Char} {ts : List Token} (h : IsSpelling text ts)
    (hts : ts.IsChain MayPrecede) : tokens text = upToBad ts := by
  induction h with
  | nil hgap => simpa [tokens, upToBad] using tokens_append_of_isSpace hgap []
  | @cons gap text rest token ts hgap hword h ih =>
    rw [List.isChain_cons] at hts
    rw [tokens_append_of_isSpace hgap, upToBad, ← ih hts.2]
    exact tokens_of_isWord hword fun hnumber =>
      endsNumber_of_isSpelling h fun next hnext => hts.1 next hnext hnumber

end LintDirectives.Json
