import LintDirectives.Json.Writer
import LintDirectives.Proofs.Json.Parts
import LintDirectives.Proofs.Json.Spelling
import Mathlib.Algebra.Ring.Int.Defs
import Mathlib.Algebra.Ring.Nat

/-!
# The words of a written value

Cutting the text of a value into tokens gives the words of the value, in both
layouts (`isSpelled_compact`, `isSpelled_prettyAt`).  The statements leave room for
what follows the value, so that they can be put together.

* Numbers.  The digits of an integer of 64 bits spell it (`isWord_writeInt`).
* Strings.  Every character is written in a way that spells it (`isWord_quoted`).
* Values.  Both layouts put items and fields together in one way and differ in the
  spaces (`spellItems`, `spellFields`).
-/

namespace LintDirectives.Json

open Token

/-! ## Numbers -/

/-- The number is an integer that fits 64 bits. -/
def Number.IsWord (number : Number) : Prop :=
  ∃ n : Int, number = .integer n ∧ -(2 ^ 63 : Int) ≤ n ∧ n < 2 ^ 64

theorem natural_toDigits (n : Nat) : NumberText.natural (Nat.toDigits 10 n) = n := by
  have hfold : NumberText.natural (Nat.toDigits 10 n) =
      Nat.ofDigitChars 10 (Nat.toDigits 10 n) 0 := Nat.ofDigitChars_eq_foldl.symm
  rw [hfold, Nat.ofDigitChars_ten_toDigits]

/-- Only zero is written with a leading zero. -/
theorem head?_toDigits {n : Nat} (h : 0 < n) : (Nat.toDigits 10 n).head? ≠ some '0' := by
  induction n using Nat.strongRecOn with
  | _ n ih =>
    by_cases hsmall : n < 10
    · have hdigit : ∀ d < 10, 0 < d → [Nat.digitChar d].head? ≠ some '0' := by decide
      rw [Nat.toDigits_of_lt_base hsmall]
      exact hdigit n hsmall h
    · have hfirst := ih (n / 10) (by omega) (by omega)
      obtain ⟨d, ds, hds⟩ :=
        List.exists_cons_of_ne_nil (Nat.toDigits_ne_nil (n := n / 10) (b := 10))
      rw [Nat.toDigits_of_base_le (by decide) (by omega), hds]
      rwa [hds] at hfirst

theorem number?_of_natural {n : Nat} (h : n < 2 ^ 64) :
    NumberText.number? ⟨false, Nat.toDigits 10 n, none, none⟩ = some (.integer n) := by
  have hlimit : n ≤ NumberText.limit := by
    have : NumberText.limit = 2 ^ 64 - 1 := rfl
    omega
  simp [NumberText.number?, natural_toDigits, hlimit]

theorem number?_of_negative {n : Nat} (hpos : 0 < n) (h : n ≤ 2 ^ 63) :
    NumberText.number? ⟨true, Nat.toDigits 10 n, none, none⟩ = some (.integer (-(n : Int))) := by
  have hlimit : n ≤ Nat.pow 2 63 := h
  simp [NumberText.number?, natural_toDigits, hpos, hlimit]

theorem isUnsigned_toDigits (negative : Bool) (n : Nat) :
    IsUnsigned (Nat.toDigits 10 n) ⟨negative, Nat.toDigits 10 n, none, none⟩ where
  digits := ⟨Nat.toDigits_ne_nil,
    fun _ hd => Nat.isDigit_of_mem_toDigits (by decide) (by decide) hd⟩
  zero hzero := by
    rcases Nat.eq_zero_or_pos n with rfl | hpos
    · rfl
    · exact absurd hzero (head?_toDigits hpos)
  spelling := ⟨[], [], by simp, .none, .none⟩

/-- An integer of 64 bits is spelled by its digits. -/
theorem isWord_writeInt {n : Int} (hlow : -(2 ^ 63 : Int) ≤ n) (hhigh : n < 2 ^ 64) :
    IsWord (Number.writeInt n) (.number (.integer n)) := by
  cases n with
  | ofNat n =>
    have hword := IsWord.number (isUnsigned_toDigits false n) rfl
    rwa [number?_of_natural (Int.ofNat_lt.1 hhigh)] at hword
  | negSucc n =>
    have hword := IsWord.negative (isUnsigned_toDigits true (n + 1)) rfl
    rwa [number?_of_negative (Nat.succ_pos n) (by omega)] at hword

/-! ## Strings -/

theorem hexDigit?_hexDigit : ∀ n < 16, hexDigit? (Value.hexDigit n) = some n := by
  decide

theorem codeUnit?_hexDigit {n : Nat} (h : n < 0x100) :
    codeUnit? '0' '0' (Value.hexDigit (n / 16)) (Value.hexDigit (n % 16)) = some n := by
  have hzero : hexDigit? '0' = some 0 := rfl
  simp [codeUnit?, hzero, hexDigit?_hexDigit _ (show n / 16 < 16 by omega),
    hexDigit?_hexDigit _ (show n % 16 < 16 by omega), Nat.div_add_mod']

/-- A character is written behind a backslash, by its code, or as it stands. -/
theorem quotedChar_cases (c : Char) :
    (∃ e, Value.quotedChar c = ['\\', e] ∧ escaped? e = some c) ∨
      (c.toNat < 0x20 ∧ Value.quotedChar c =
        ['\\', 'u', '0', '0', Value.hexDigit (c.toNat / 16), Value.hexDigit (c.toNat % 16)]) ∨
      (c ≠ '\x22' ∧ c ≠ '\\' ∧ 0x20 ≤ c.toNat ∧ Value.quotedChar c = [c]) := by
  unfold Value.quotedChar
  split_ifs with hquote hslash hbackspace hfeed hline hreturn htab hcontrol
  all_goals first
    | exact .inl ⟨_, rfl, by subst c; rfl⟩
    | exact .inr (.inl ⟨hcontrol, rfl⟩)
    | exact .inr (.inr ⟨hquote, hslash, Nat.le_of_not_lt hcontrol, rfl⟩)

/-- Strings are written as the grammar allows. -/
theorem isBody_quoted (cs : List Char) :
    IsBody (cs.flatMap Value.quotedChar) (cs.flatMap codeUnits) := by
  induction cs with
  | nil => exact .nil
  | cons c cs ih =>
    rw [List.flatMap_cons, List.flatMap_cons]
    obtain ⟨e, hwritten, hescaped⟩ | ⟨hcontrol, hwritten⟩ | ⟨hquote, hslash, hplain, hwritten⟩ :=
      quotedChar_cases c
    · rw [hwritten]
      exact .escaped hescaped ih
    · have hunits : codeUnits c = [c.toNat] := if_pos (by omega)
      rw [hwritten, hunits]
      exact .unit (codeUnit?_hexDigit (by omega)) ih
    · rw [hwritten]
      exact .plain hquote hslash hplain ih

/-- A string is spelled as it is written. -/
theorem isWord_quoted (s : String) : IsWord (Value.quoted s) (.string s) := by
  have hword := IsWord.string (isBody_quoted s.toList)
  rwa [ofCodeUnits?_flatMap, Option.map_some, String.ofList_toList] at hword

/-! ## Tokens -/

theorem tokens_comma (rest : List Char) : tokens (',' :: rest) = .comma :: tokens rest :=
  tokens_cons_of_start? rfl rfl

theorem tokens_colon (rest : List Char) : tokens (':' :: rest) = .colon :: tokens rest :=
  tokens_cons_of_start? rfl rfl

theorem tokens_quoted (s : String) (rest : List Char) :
    tokens (Value.quoted s ++ rest) = .string s :: tokens rest := by
  have hnumber : IsNumberWord (.string s) → EndsNumber rest := by simp [isNumberWord_iff]
  exact (tokens_of_isWord (isWord_quoted s) hnumber).trans (if_neg (by simp))

theorem tokens_writeInt {n : Int} (hlow : -(2 ^ 63 : Int) ≤ n) (hhigh : n < 2 ^ 64)
    {rest : List Char} (h : EndsNumber rest) :
    tokens (Number.writeInt n ++ rest) = .number (.integer n) :: tokens rest := by
  exact (tokens_of_isWord (isWord_writeInt hlow hhigh) fun _ => h).trans (if_neg (by simp))

/-! ## Values -/

namespace Value

mutual

/-- The tokens that a value is written with. -/
def words : Value → List Token
  | null => [.null]
  | bool b => [.bool b]
  | number n => [.number n]
  | string s => [.string s]
  | list items => .openList :: (wordsOfItems items ++ [.closeList])
  | record fields => .openRecord :: (wordsOfFields fields ++ [.closeRecord])

/-- The tokens of items with commas between them. -/
def wordsOfItems : List Value → List Token
  | [] => []
  | [item] => words item
  | item :: next :: items => words item ++ .comma :: wordsOfItems (next :: items)

/-- The tokens of fields with commas between them. -/
def wordsOfFields : List (String × Value) → List Token
  | [] => []
  | [(name, value)] => .string name :: .colon :: words value
  | (name, value) :: next :: fields =>
    .string name :: .colon :: (words value ++ .comma :: wordsOfFields (next :: fields))

end

/-- The part is an integer of 64 bits, if it is a number. -/
def FitsWord : Value → Prop
  | number n => n.IsWord
  | _ => True

/-! ### Layouts -/

/-- Items with commas between them, each behind `gap`. -/
def spellItems (gap : List Char) (spell : Value → List Char) : List Value → List Char
  | [] => []
  | [item] => gap ++ spell item
  | item :: next :: items => gap ++ (spell item ++ ',' :: spellItems gap spell (next :: items))

/-- Fields with commas between them, each behind `gap`, and with `space` behind the colons. -/
def spellFields (gap space : List Char) (spell : Value → List Char) :
    List (String × Value) → List Char
  | [] => []
  | [(name, value)] => gap ++ (quoted name ++ ':' :: (space ++ spell value))
  | (name, value) :: next :: fields =>
    gap ++ (quoted name ++ ':' ::
      (space ++ (spell value ++ ',' :: spellFields gap space spell (next :: fields))))

theorem compactItems_eq (items : List Value) :
    compactItems items = spellItems [] compact items := by
  induction items with
  | nil => simp [compactItems, spellItems]
  | cons item items ih =>
    cases items with
    | nil => simp [compactItems, spellItems]
    | cons next items => simp [compactItems, spellItems, ih]

theorem compactFields_eq (fields : List (String × Value)) :
    compactFields fields = spellFields [] [] compact fields := by
  induction fields with
  | nil => simp [compactFields, spellFields]
  | cons field fields ih =>
    cases fields with
    | nil => simp [compactFields, spellFields]
    | cons next fields => simp [compactFields, spellFields, ih]

theorem prettyItems_eq (depth : Nat) (items : List Value) :
    prettyItems depth items = spellItems (newline depth) (prettyAt depth) items := by
  induction items with
  | nil => simp [prettyItems, spellItems]
  | cons item items ih =>
    cases items with
    | nil => simp [prettyItems, spellItems]
    | cons next items => simp [prettyItems, spellItems, ih]

theorem prettyFields_eq (depth : Nat) (fields : List (String × Value)) :
    prettyFields depth fields = spellFields (newline depth) [' '] (prettyAt depth) fields := by
  induction fields with
  | nil => simp [prettyFields, spellFields]
  | cons field fields ih =>
    cases fields with
    | nil => simp [prettyFields, spellFields]
    | cons next fields => simp [prettyFields, spellFields, ih]

/-- A list of items stands on one line only if it is empty. -/
theorem prettyAt_list_cons (depth : Nat) (item : Value) (items : List Value) :
    prettyAt depth (list (item :: items)) =
      '[' :: (spellItems (newline (depth + 1)) (prettyAt (depth + 1)) (item :: items) ++
        (newline depth ++ [']'])) := by
  rw [prettyAt, prettyItems_eq]
  simp

theorem prettyAt_record_cons (depth : Nat) (field : String × Value)
    (fields : List (String × Value)) :
    prettyAt depth (record (field :: fields)) =
      '\x7b' ::
        (spellFields (newline (depth + 1)) [' '] (prettyAt (depth + 1)) (field :: fields) ++
          (newline depth ++ ['\x7d'])) := by
  rw [prettyAt, prettyFields_eq]
  simp

/-! ### Cutting a written value -/

/-- The text that `spell` gives to the value is cut into the words of the value. -/
def IsSpelled (spell : Value → List Char) (value : Value) : Prop :=
  ∀ rest, EndsNumber rest → tokens (spell value ++ rest) = value.words ++ tokens rest

section Spell

variable {gap space last : List Char} {spell : Value → List Char} {rest : List Char}

theorem tokens_spellItems (hgap : ∀ c ∈ gap, isSpace c = true) {items : List Value}
    (h : ∀ item ∈ items, IsSpelled spell item) (hrest : EndsNumber rest) :
    tokens (spellItems gap spell items ++ rest) = wordsOfItems items ++ tokens rest := by
  induction items with
  | nil => simp [spellItems, wordsOfItems]
  | cons item items ih =>
    rw [List.forall_mem_cons] at h
    cases items with
    | nil =>
      rw [spellItems, wordsOfItems, List.append_assoc, tokens_append_of_isSpace hgap,
        h.1 rest hrest]
    | cons next items =>
      have hcomma : EndsNumber (',' :: (spellItems gap spell (next :: items) ++ rest)) :=
        endsNumber_cons.2 (by decide)
      rw [spellItems, wordsOfItems, List.append_assoc, tokens_append_of_isSpace hgap,
        List.append_assoc, List.cons_append, h.1 _ hcomma, tokens_comma, ih h.2,
        List.append_assoc, List.cons_append]

theorem tokens_spellFields (hgap : ∀ c ∈ gap, isSpace c = true)
    (hspace : ∀ c ∈ space, isSpace c = true) {fields : List (String × Value)}
    (h : ∀ field ∈ fields, IsSpelled spell field.2) (hrest : EndsNumber rest) :
    tokens (spellFields gap space spell fields ++ rest) = wordsOfFields fields ++ tokens rest := by
  induction fields with
  | nil => simp [spellFields, wordsOfFields]
  | cons field fields ih =>
    obtain ⟨name, value⟩ := field
    rw [List.forall_mem_cons] at h
    cases fields with
    | nil =>
      rw [spellFields, wordsOfFields, List.append_assoc, tokens_append_of_isSpace hgap,
        List.append_assoc, tokens_quoted, List.cons_append, tokens_colon,
        List.append_assoc, tokens_append_of_isSpace hspace, h.1 rest hrest]
      rfl
    | cons next fields =>
      have hcomma : EndsNumber (',' :: (spellFields gap space spell (next :: fields) ++ rest)) :=
        endsNumber_cons.2 (by decide)
      rw [spellFields, wordsOfFields, List.append_assoc, tokens_append_of_isSpace hgap,
        List.append_assoc, tokens_quoted, List.cons_append, tokens_colon,
        List.append_assoc, tokens_append_of_isSpace hspace, List.append_assoc, List.cons_append,
        h.1 _ hcomma, tokens_comma, ih h.2]
      simp only [List.cons_append, List.append_assoc]

/-- A list, with `gap` in front of every item and `last` behind them. -/
theorem tokens_list (hgap : ∀ c ∈ gap, isSpace c = true) (hlast : ∀ c ∈ last, isSpace c = true)
    {items : List Value} (h : ∀ item ∈ items, IsSpelled spell item) (rest : List Char) :
    tokens ('[' :: (spellItems gap spell items ++ (last ++ [']'])) ++ rest) =
      words (list items) ++ tokens rest := by
  have hclose : EndsNumber (last ++ ']' :: rest) :=
    endsNumber_append_of_isSpace hlast (endsNumber_cons.2 (by decide))
  rw [words, List.cons_append, tokens_cons_of_start? rfl rfl, List.append_assoc,
    List.append_assoc, List.singleton_append, tokens_spellItems hgap h hclose,
    tokens_append_of_isSpace hlast, tokens_cons_of_start? rfl rfl]
  simp only [List.cons_append, List.append_assoc, List.nil_append]

/-- A record, with `gap` in front of every field and `last` behind them. -/
theorem tokens_record (hgap : ∀ c ∈ gap, isSpace c = true)
    (hspace : ∀ c ∈ space, isSpace c = true) (hlast : ∀ c ∈ last, isSpace c = true)
    {fields : List (String × Value)} (h : ∀ field ∈ fields, IsSpelled spell field.2)
    (rest : List Char) :
    tokens ('\x7b' :: (spellFields gap space spell fields ++ (last ++ ['\x7d'])) ++ rest) =
      words (record fields) ++ tokens rest := by
  have hclose : EndsNumber (last ++ '\x7d' :: rest) :=
    endsNumber_append_of_isSpace hlast (endsNumber_cons.2 (by decide))
  rw [words, List.cons_append, tokens_cons_of_start? rfl rfl, List.append_assoc,
    List.append_assoc, List.singleton_append, tokens_spellFields hgap hspace h hclose,
    tokens_append_of_isSpace hlast, tokens_cons_of_start? rfl rfl]
  simp only [List.cons_append, List.append_assoc, List.nil_append]

end Spell

theorem isSpace_of_mem_newline (depth : Nat) : ∀ c ∈ newline depth, isSpace c = true := by
  intro c hc
  rw [newline, List.mem_cons] at hc
  rcases hc with rfl | hc
  · rfl
  · rw [List.eq_of_mem_replicate hc]
    rfl

theorem isSpelled_compact {value : Value} (h : value.Every FitsWord) :
    IsSpelled compact value := by
  have hnone : ∀ c ∈ ([] : List Char), isSpace c = true := by simp
  induction value using inductionOn with
  | null => exact fun rest _ => tokens_cons_of_start? rfl rfl
  | bool b => cases b <;> exact fun rest _ => tokens_cons_of_start? rfl rfl
  | number n =>
    intro rest hrest
    obtain ⟨i, rfl, hlow, hhigh⟩ := every_number.1 h
    exact tokens_writeInt hlow hhigh hrest
  | string s => exact fun rest _ => tokens_quoted s rest
  | list items ih =>
    intro rest _
    have hitems : ∀ item ∈ items, IsSpelled compact item :=
      fun item hitem => ih item hitem ((every_list.1 h).2 item hitem)
    rw [compact, compactItems_eq]
    exact tokens_list hnone hnone hitems rest
  | record fields ih =>
    intro rest _
    have hfields : ∀ field ∈ fields, IsSpelled compact field.2 :=
      fun field hfield => ih field hfield ((every_record.1 h).2 field hfield)
    rw [compact, compactFields_eq]
    exact tokens_record hnone hnone hnone hfields rest

theorem isSpelled_prettyAt {value : Value} (h : value.Every FitsWord) (depth : Nat) :
    IsSpelled (prettyAt depth) value := by
  have hnone : ∀ c ∈ ([] : List Char), isSpace c = true := by simp
  induction value using inductionOn generalizing depth with
  | null => exact fun rest _ => tokens_cons_of_start? rfl rfl
  | bool b => cases b <;> exact fun rest _ => tokens_cons_of_start? rfl rfl
  | number n =>
    intro rest hrest
    obtain ⟨i, rfl, hlow, hhigh⟩ := every_number.1 h
    exact tokens_writeInt hlow hhigh hrest
  | string s => exact fun rest _ => tokens_quoted s rest
  | list items ih =>
    intro rest _
    have hitems : ∀ item ∈ items, IsSpelled (prettyAt (depth + 1)) item :=
      fun item hitem => ih item hitem ((every_list.1 h).2 item hitem) (depth + 1)
    cases items with
    | nil => exact tokens_list hnone hnone hitems rest
    | cons item items =>
      rw [prettyAt_list_cons]
      exact tokens_list (isSpace_of_mem_newline _) (isSpace_of_mem_newline _) hitems rest
  | record fields ih =>
    intro rest _
    have hfields : ∀ field ∈ fields, IsSpelled (prettyAt (depth + 1)) field.2 :=
      fun field hfield => ih field hfield ((every_record.1 h).2 field hfield) (depth + 1)
    cases fields with
    | nil => exact tokens_record hnone hnone hnone hfields rest
    | cons field fields =>
      rw [prettyAt_record_cons]
      exact tokens_record (isSpace_of_mem_newline _) (by simp [isSpace])
        (isSpace_of_mem_newline _) hfields rest

end Value

end LintDirectives.Json
