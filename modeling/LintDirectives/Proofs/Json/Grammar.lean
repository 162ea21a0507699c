import LintDirectives.Json.Token
import LintDirectives.Json.Value
import Mathlib.Algebra.Ring.Nat
import Mathlib.Data.List.Chain
import Mathlib.Tactic.SplitIfs

/-!
# The grammar of JSON texts

What a JSON text may look like, whoever wrote it: spaces may stand between any two words,
any character of a string may be escaped, and a record may repeat its names.  Two layers
make up the grammar.

* Words.  `IsWord` says how a token may be spelled.  A string whose code units are not
  those of characters stands for no string, and a number may be too large to be kept;
  both are spelled as the token `bad`.
* Terms.  A `Term` is what a text says, and `Term.words` are its tokens.  `IsJson` puts
  the layers together.

The characters that code units make up are read off by `ofCodeUnits?`, and the code units
of a character give it back (`ofCodeUnits?_append`).
-/

namespace LintDirectives.Json

open Token

/-! ## Code units -/

/-- The code units of a character in UTF-16. -/
def codeUnits (c : Char) : List Nat :=
  if c.toNat < 0x10000 then [c.toNat]
  else [0xD800 + (c.toNat - 0x10000) / 0x400, 0xDC00 + (c.toNat - 0x10000) % 0x400]

/-- The characters that have these code units; `none` when a surrogate lacks its partner. -/
def ofCodeUnits? : List Nat → Option (List Char)
  | [] => some []
  | [unit] => if isHighSurrogate unit || isLowSurrogate unit then none else some [Char.ofNat unit]
  | first :: second :: units =>
    if isHighSurrogate first then
      if isLowSurrogate second then
        (ofCodeUnits? units).map
          (Char.ofNat (0x10000 + (first - 0xD800) * 0x400 + (second - 0xDC00)) :: ·)
      else none
    else if isLowSurrogate first then none
    else (ofCodeUnits? (second :: units)).map (Char.ofNat first :: ·)

section CodeUnits

variable {high low : Nat} {units : List Nat}

theorem ofCodeUnits?_cons {unit : Nat} (hhigh : isHighSurrogate unit = false)
    (hlow : isLowSurrogate unit = false) :
    ofCodeUnits? (unit :: units) = (ofCodeUnits? units).map (Char.ofNat unit :: ·) := by
  cases units <;> simp [ofCodeUnits?, hhigh, hlow]

theorem isHighSurrogate_of_isLowSurrogate (hlow : isLowSurrogate low = true) :
    isHighSurrogate low = false := by
  simp only [isLowSurrogate, isHighSurrogate, Bool.and_eq_true, decide_eq_true_eq,
    Bool.and_eq_false_iff, decide_eq_false_iff_not] at hlow ⊢
  omega

theorem ofCodeUnits?_low (hlow : isLowSurrogate low = true) :
    ofCodeUnits? (low :: units) = none := by
  have hhigh := isHighSurrogate_of_isLowSurrogate hlow
  cases units <;> simp [ofCodeUnits?, hhigh, hlow]

theorem ofCodeUnits?_pair (hhigh : isHighSurrogate high = true)
    (hlow : isLowSurrogate low = true) :
    ofCodeUnits? (high :: low :: units) = (ofCodeUnits? units).map
      (Char.ofNat (0x10000 + (high - 0xD800) * 0x400 + (low - 0xDC00)) :: ·) := by
  simp [ofCodeUnits?, hhigh, hlow]

theorem ofCodeUnits?_high (hhigh : isHighSurrogate high = true)
    (hnext : ∀ next ∈ units.head?, isLowSurrogate next = false) :
    ofCodeUnits? (high :: units) = none := by
  cases units with
  | nil => simp [ofCodeUnits?, hhigh]
  | cons next units => simp [ofCodeUnits?, hhigh, hnext next rfl]

/-- No code of a character is a surrogate. -/
theorem isSurrogate_toNat (c : Char) :
    isHighSurrogate c.toNat = false ∧ isLowSurrogate c.toNat = false := by
  have hvalid : c.toNat < 0xD800 ∨ 0xDFFF < c.toNat ∧ c.toNat < 0x110000 := c.valid
  simp only [isHighSurrogate, isLowSurrogate, Bool.and_eq_false_iff, decide_eq_false_iff_not]
  omega

/-- The code units of a character are one that is no surrogate, or a pair of surrogates. -/
theorem codeUnits_cases (c : Char) :
    codeUnits c = [c.toNat] ∨
      ∃ high low, codeUnits c = [high, low] ∧ isHighSurrogate high = true ∧
        isLowSurrogate low = true ∧
        0x10000 + (high - 0xD800) * 0x400 + (low - 0xDC00) = c.toNat := by
  unfold codeUnits
  split_ifs with hsmall
  · exact .inl rfl
  · have hbound : c.toNat < 0x110000 := by
      rcases c.valid with hvalid | hvalid
      · exact hvalid.trans (by decide)
      · exact hvalid.2
    refine .inr ⟨_, _, rfl, ?_, ?_, by omega⟩
    · simp only [isHighSurrogate, Bool.and_eq_true, decide_eq_true_eq]
      omega
    · simp only [isLowSurrogate, Bool.and_eq_true, decide_eq_true_eq]
      omega

theorem ofCodeUnits?_append (c : Char) (units : List Nat) :
    ofCodeUnits? (codeUnits c ++ units) = (ofCodeUnits? units).map (c :: ·) := by
  obtain hsingle | ⟨high, low, hpair, hhigh, hlow, hcode⟩ := codeUnits_cases c
  · obtain ⟨hhigh, hlow⟩ := isSurrogate_toNat c
    rw [hsingle, List.singleton_append, ofCodeUnits?_cons hhigh hlow, Char.ofNat_toNat]
  · rw [hpair, List.cons_append, List.singleton_append, ofCodeUnits?_pair hhigh hlow, hcode,
      Char.ofNat_toNat]

theorem ofCodeUnits?_flatMap (cs : List Char) : ofCodeUnits? (cs.flatMap codeUnits) = some cs := by
  induction cs with
  | nil => rfl
  | cons c cs ih => rw [List.flatMap_cons, ofCodeUnits?_append, ih, Option.map_some]

/-- The code units of a character do not start with the second half of a pair. -/
theorem isLowSurrogate_of_mem_head? {c : Char} {next : Nat}
    (h : next ∈ (codeUnits c ++ units).head?) : isLowSurrogate next = false := by
  obtain hsingle | ⟨high, low, hpair, hhigh, -, -⟩ := codeUnits_cases c
  · rw [hsingle] at h
    cases h
    exact (isSurrogate_toNat c).2
  · rw [hpair] at h
    cases h
    by_contra hlow
    rw [isHighSurrogate_of_isLowSurrogate (by simpa using hlow)] at hhigh
    contradiction

end CodeUnits

/-! ## Words -/

/-- The inside of a string, and the code units that it stands for. -/
inductive IsBody : List Char → List Nat → Prop
  | nil : IsBody [] []
  | plain {c : Char} {text : List Char} {units : List Nat} (hquote : c ≠ '\x22')
    (hslash : c ≠ '\\') (hcontrol : 0x20 ≤ c.toNat) (h : IsBody text units) :
    IsBody (c :: text) (codeUnits c ++ units)
  | escaped {letter c : Char} {text : List Char} {units : List Nat}
    (hletter : escaped? letter = some c) (h : IsBody text units) :
    IsBody ('\\' :: letter :: text) (codeUnits c ++ units)
  | unit {a b c d : Char} {unit : Nat} {text : List Char} {units : List Nat}
    (hunit : codeUnit? a b c d = some unit) (h : IsBody text units) :
    IsBody ('\\' :: 'u' :: a :: b :: c :: d :: text) (unit :: units)

/-- One or more digits. -/
def IsDigits (ds : List Char) : Prop :=
  ds ≠ [] ∧ ∀ d ∈ ds, d.isDigit = true

/-- The digits of a number after its point, if there is one. -/
inductive IsFraction : List Char → Option (List Char) → Prop
  | none : IsFraction [] none
  | some {ds : List Char} (h : IsDigits ds) : IsFraction ('.' :: ds) (some ds)

/-- The sign and the digits of an exponent, if there is one. -/
inductive IsExponent : List Char → Option (Bool × List Char) → Prop
  | none : IsExponent [] none
  | bare {e : Char} {ds : List Char} (he : e = 'e' ∨ e = 'E') (h : IsDigits ds) :
    IsExponent (e :: ds) (some (false, ds))
  | plus {e : Char} {ds : List Char} (he : e = 'e' ∨ e = 'E') (h : IsDigits ds) :
    IsExponent (e :: '+' :: ds) (some (false, ds))
  | minus {e : Char} {ds : List Char} (he : e = 'e' ∨ e = 'E') (h : IsDigits ds) :
    IsExponent (e :: '-' :: ds) (some (true, ds))

/-- A number without its sign.  A zero is not followed by another digit before the point. -/
structure IsUnsigned (text : List Char) (numeral : NumberText) : Prop where
  digits : IsDigits numeral.whole
  zero : numeral.whole.head? = some '0' → numeral.whole = ['0']
  spelling : ∃ fraction exponent, text = numeral.whole ++ (fraction ++ exponent) ∧
    IsFraction fraction numeral.fraction ∧ IsExponent exponent numeral.exponent

/-- The token of a string. -/
def stringWord : Option String → Token
  | some s => .string s
  | none => .bad

/-- The token of a number. -/
def numberWord : Option Number → Token
  | some n => .number n
  | none => .bad

/-- How a token may be spelled. -/
inductive IsWord : List Char → Token → Prop
  | openList : IsWord ['['] .openList
  | closeList : IsWord [']'] .closeList
  | openRecord : IsWord ['\x7b'] .openRecord
  | closeRecord : IsWord ['\x7d'] .closeRecord
  | comma : IsWord [','] .comma
  | colon : IsWord [':'] .colon
  | null : IsWord "null".toList .null
  | true : IsWord "true".toList (.bool true)
  | false : IsWord "false".toList (.bool false)
  | string {text : List Char} {units : List Nat} (h : IsBody text units) :
    IsWord ('\x22' :: (text ++ ['\x22'])) (stringWord ((ofCodeUnits? units).map String.ofList))
  | number {text : List Char} {numeral : NumberText} (h : IsUnsigned text numeral)
    (hsign : numeral.negative = Bool.false) : IsWord text (numberWord numeral.number?)
  | negative {text : List Char} {numeral : NumberText} (h : IsUnsigned text numeral)
    (hsign : numeral.negative = Bool.true) : IsWord ('-' :: text) (numberWord numeral.number?)

/-- The text spells the tokens, with spaces around them. -/
inductive IsSpelling : List Char → List Token → Prop
  | nil {gap : List Char} (hgap : ∀ c ∈ gap, isSpace c = true) : IsSpelling gap []
  | cons {gap text rest : List Char} {token : Token} {ts : List Token}
    (hgap : ∀ c ∈ gap, isSpace c = true) (hword : IsWord text token) (h : IsSpelling rest ts) :
    IsSpelling (gap ++ (text ++ rest)) (token :: ts)

/-! ## Terms -/

/-- What a JSON text says.  A string is `none` when its code units are not those of characters,
and a number when it is too large. -/
inductive Term where
  | null
  | bool (b : Bool)
  | number (n : Option Number)
  | string (s : Option String)
  | list (items : List Term)
  | record (fields : List (Option String × Term))

namespace Term

mutual

/-- The tokens of a term. -/
def words : Term → List Token
  | null => [.null]
  | bool b => [.bool b]
  | number n => [numberWord n]
  | string s => [stringWord s]
  | list items => .openList :: (wordsOfItems items ++ [.closeList])
  | record fields => .openRecord :: (wordsOfFields fields ++ [.closeRecord])

/-- The tokens of items with commas between them. -/
def wordsOfItems : List Term → List Token
  | [] => []
  | [item] => words item
  | item :: next :: items => words item ++ .comma :: wordsOfItems (next :: items)

/-- The tokens of fields with commas between them. -/
def wordsOfFields : List (Option String × Term) → List Token
  | [] => []
  | [(name, content)] => stringWord name :: .colon :: words content
  | (name, content) :: next :: fields =>
    stringWord name :: .colon :: (words content ++ .comma :: wordsOfFields (next :: fields))

end

mutual

/-- A value as the term of its own texts. -/
def ofValue : Value → Term
  | .null => null
  | .bool b => bool b
  | .number n => number (some n)
  | .string s => string (some s)
  | .list items => list (ofItems items)
  | .record fields => record (ofFields fields)

/-- The terms of all items. -/
def ofItems : List Value → List Term
  | [] => []
  | item :: items => ofValue item :: ofItems items

/-- The terms of all fields. -/
def ofFields : List (String × Value) → List (Option String × Term)
  | [] => []
  | (name, value) :: fields => (some name, ofValue value) :: ofFields fields

end

end Term

/-- The text is JSON and says what the term says. -/
def IsJson (text : List Char) (term : Term) : Prop :=
  IsSpelling text term.words

/-! ## Spelling -/

theorem IsSpelling.space {c : Char} {text : List Char} {ts : List Token} (hc : isSpace c = true)
    (h : IsSpelling text ts) : IsSpelling (c :: text) ts := by
  cases h with
  | nil hgap => exact .nil (List.forall_mem_cons.2 ⟨hc, hgap⟩)
  | cons hgap hword h => exact .cons (List.forall_mem_cons.2 ⟨hc, hgap⟩) hword h

theorem IsSpelling.word {text rest : List Char} {token : Token} {ts : List Token}
    (hword : IsWord text token) (h : IsSpelling rest ts) :
    IsSpelling (text ++ rest) (token :: ts) :=
  @IsSpelling.cons [] _ _ _ _ (by simp) hword h

end LintDirectives.Json
