import LintDirectives.Format
import LintDirectives.Proofs.LineIndex.Scan

/-!
# Numbers of 32 bits

A document is read only if its bytes can be counted with 32 bits, and so can its
code units (`unitLength_le_lastByte`).  Lines and columns are counted from one.  The
longest document that is read may have one line or one column more than 32 bits can
count, at its end: if it holds nothing but line feeds (`lt_line_iff`), or if it is a
single line of characters of one byte (`lt_column_iff`).

`counts_fit_words_but_at_the_end` says that no other number of the conversions is
too large.
-/

namespace LintDirectives.LineIndex

open Text

section Counts

variable {text : List Char} (h : byteLength text ≤ Format.lastByte)

include h

theorem unitLength_le_lastByte : unitLength text ≤ Format.lastByte :=
  (unitLength_le_byteLength text).trans h

/-- What is counted over a start of the text fits. -/
theorem le_lastByte_of_isPrefix {front : List Char} (hfront : front <+: text) :
    byteLength front ≤ Format.lastByte ∧ unitLength front ≤ Format.lastByte :=
  ⟨((prefix_iff_byteLength_le hfront List.prefix_rfl).1 hfront).trans h,
    ((prefix_iff_unitLength_le hfront List.prefix_rfl).1 hfront).trans
      (unitLength_le_lastByte h)⟩

/-- The last place that 32 bits can name is not before the end of the text. -/
theorem startWithin_of_lastByte_le {byte : Nat} (hbyte : Format.lastByte ≤ byte) :
    startWithin Char.utf8Size byte text = text := by
  have hfits : (text.map Char.utf8Size).sum ≤ byte := by
    rw [← byteLength_eq_sum]
    exact h.trans hbyte
  exact (isPrefix_startWithin Char.utf8Size byte text).eq_of_length_le
    ((prefix_startWithin_iff Char.utf8Size byte List.prefix_rfl).2 hfits).length_le

/-- The line number of a place is too large only behind as many line feeds as there are bytes in
the longest document. -/
theorem lt_line_iff (byte : Nat) :
    Format.lastByte < ((ofChars text).position byte).line ↔
      text.count '\n' = Format.lastByte ∧ Format.lastByte ≤ byte := by
  obtain ⟨front, hfront⟩ : ∃ front, front = startWithin Char.utf8Size byte text := ⟨_, rfl⟩
  have hstart : front <+: text := hfront ▸ isPrefix_startWithin Char.utf8Size byte text
  rw [position_startWithin, ← hfront]
  dsimp only
  constructor
  · intro hlarge
    have hunits := (le_lastByte_of_isPrefix h hstart).2
    have hfits : byteLength front ≤ byte := hfront ▸ floorBoundary_le text byte
    have hcount : front.count '\n' ≤ text.count '\n' := hstart.sublist.count_le '\n'
    have hfront := front.count_le_length (a := '\n')
    have htext := text.count_le_length (a := '\n')
    have := length_le_unitLength front
    have := length_le_unitLength text
    have := unitLength_le_byteLength front
    have := unitLength_le_lastByte h
    omega
  · rintro ⟨hcount, hbyte⟩
    rw [hfront, startWithin_of_lastByte_le h hbyte, hcount]
    omega

/-- The column of a place is too large only behind as many code units on one line as there are
bytes in the longest document. -/
theorem lt_column_iff (byte : Nat) :
    Format.lastByte < ((ofChars text).position byte).column ↔
      unitLength text = Format.lastByte ∧ '\n' ∉ text ∧ Format.lastByte ≤ byte := by
  obtain ⟨front, hfront⟩ : ∃ front, front = startWithin Char.utf8Size byte text := ⟨_, rfl⟩
  have hstart : front <+: text := hfront ▸ isPrefix_startWithin Char.utf8Size byte text
  rw [position_startWithin, ← hfront]
  dsimp only
  constructor
  · intro hlarge
    obtain ⟨before, hline, -⟩ := exists_isLineStart_lastLine front
    have hparts : unitLength front = unitLength before + unitLength (lastLine front) := by
      rw [← unitLength_append, ← hline]
    have hunits := (le_lastByte_of_isPrefix h hstart).2
    have htotal := unitLength_le_lastByte h
    -- Nothing stands before the line, and nothing behind it.
    obtain rfl : before = [] := by
      have := length_le_unitLength before
      exact List.eq_nil_of_length_eq_zero (by omega)
    have hwhole : front = text := by
      have hback := (prefix_iff_unitLength_le List.prefix_rfl hstart).2 (by omega)
      exact hstart.eq_of_length_le hback.length_le
    have hfits : byteLength front ≤ byte := hfront ▸ floorBoundary_le text byte
    have hbytes := unitLength_le_byteLength front
    rw [hwhole] at hunits hline hfits hbytes hlarge hparts
    refine ⟨by omega, ?_, by omega⟩
    rw [hline, List.nil_append]
    exact lineFeed_not_mem_lastLine text
  · rintro ⟨hunits, hnone, hbyte⟩
    have hline : lastLine text = text :=
      List.rtakeWhile_eq_self_iff.2 fun c hc => decide_eq_true fun heq => hnone (heq ▸ hc)
    rw [hfront, startWithin_of_lastByte_le h hbyte, hline, hunits]
    omega

end Counts

/-- With one byte to spare, every line and every column can be counted from one. -/
theorem position_le_lastByte {text : List Char} (h : byteLength text < Format.lastByte)
    (byte : Nat) :
    ((ofChars text).position byte).line ≤ Format.lastByte ∧
      ((ofChars text).position byte).column ≤ Format.lastByte := by
  have hunits := unitLength_le_byteLength text
  constructor
  · refine Nat.le_of_not_lt fun hlarge => ?_
    obtain ⟨hcount, -⟩ := (lt_line_iff h.le byte).1 hlarge
    have hfeeds := text.count_le_length (a := '\n')
    have hlength := length_le_unitLength text
    omega
  · refine Nat.le_of_not_lt fun hlarge => ?_
    obtain ⟨hfull, -⟩ := (lt_column_iff h.le byte).1 hlarge
    omega

/-- For a document that is short enough to be read, every count that building the index and
converting a place needs fits 32 bits, but for the line and the column of the end of the longest
documents: the line, if these hold nothing but line feeds, and the column, if they are one line
of characters of one byte. -/
theorem counts_fit_words_but_at_the_end (text : String)
    (h : text.utf8ByteSize ≤ Format.lastByte) :
    let chars := text.toList
    let index := LineIndex.ofText text
    (∀ front, front <+: chars →
      byteLength front ≤ Format.lastByte ∧ unitLength front ≤ Format.lastByte) ∧
    (∀ start ∈ index.starts, start.byte ≤ Format.lastByte ∧ start.unit ≤ Format.lastByte) ∧
    index.units ≤ Format.lastByte ∧
    (∀ byte, index.unitOffset byte ≤ Format.lastByte) ∧
    (∀ unit read c rest, (index.lineAtUnit unit).rest = read ++ c :: rest →
      (index.lineAtUnit unit).unit + unitLength read + Text.units c ≤ Format.lastByte) ∧
    ∀ byte,
      (Format.lastByte < (index.position byte).line ↔
        chars.count '\n' = Format.lastByte ∧ Format.lastByte ≤ byte) ∧
      (Format.lastByte < (index.position byte).column ↔
        unitLength chars = Format.lastByte ∧ '\n' ∉ chars ∧ Format.lastByte ≤ byte) := by
  intro chars index
  have hbytes : byteLength chars ≤ Format.lastByte := by rwa [← utf8ByteSize_eq]
  have hfronts : ∀ front, front <+: chars →
      byteLength front ≤ Format.lastByte ∧ unitLength front ≤ Format.lastByte :=
    fun front hfront => le_lastByte_of_isPrefix hbytes hfront
  refine ⟨hfronts, fun start hstart => ?_, unitLength_le_lastByte hbytes, fun byte => ?_,
    fun unit read c rest hrest => ?_, fun byte => ⟨lt_line_iff hbytes byte, lt_column_iff hbytes byte⟩⟩
  · obtain ⟨before, hparts, hbyte, hunit⟩ := standsIn_of_mem_starts hstart
    rw [hbyte, hunit]
    exact hfronts before ⟨start.rest, hparts⟩
  · have hoffset : index.unitOffset byte = unitsWithin byte chars := unitOffset_ofChars chars byte
    rw [hoffset]
    exact (unitsWithin_le_unitLength byte chars).trans (unitLength_le_lastByte hbytes)
  · obtain ⟨⟨before, hparts, -, hunit⟩, -⟩ := lineAtUnit_ofChars chars unit
    have hfront : before ++ read ++ [c] <+: chars := by
      refine ⟨rest, ?_⟩
      rw [← hparts, List.append_assoc, List.append_assoc, List.singleton_append, ← hrest]
      rfl
    have hfits := (hfronts _ hfront).2
    rw [unitLength_append, unitLength_append, unitLength_cons, unitLength_nil, Nat.add_zero,
      ← hunit] at hfits
    exact hfits

/-- A short document has lines and columns that fit, also behind its end. -/
theorem shortDocument_fits_words :
    "a\r\n😀".utf8ByteSize ≤ Format.lastByte ∧
      (∀ byte, (ofText "a\r\n😀").unitOffset byte ≤ Format.lastByte) ∧
      ((ofText "a\r\n😀").position Format.lastByte).line ≤ Format.lastByte ∧
      ((ofText "a\r\n😀").position Format.lastByte).column ≤ Format.lastByte := by
  have hshort : "a\r\n😀".utf8ByteSize ≤ Format.lastByte := by decide +kernel
  obtain ⟨-, -, -, hunits, -, hplaces⟩ := counts_fit_words_but_at_the_end "a\r\n😀" hshort
  obtain ⟨hline, hcolumn⟩ := hplaces Format.lastByte
  refine ⟨hshort, hunits, Nat.le_of_not_lt (mt hline.1 ?_), Nat.le_of_not_lt (mt hcolumn.1 ?_)⟩
  · decide +kernel
  · decide +kernel

/-- The longest document that is read, on a single line, ends in a column that 32 bits cannot
count. -/
theorem longestLine_exceeds_words :
    (String.ofList (List.replicate Format.lastByte 'a')).utf8ByteSize ≤ Format.lastByte ∧
      Format.lastByte <
        ((ofText (String.ofList (List.replicate Format.lastByte 'a'))).position
          Format.lastByte).column ∧
      ¬ ∀ (text : String) (byte : Nat), text.utf8ByteSize ≤ Format.lastByte →
        byte ≤ Format.lastByte → ((ofText text).position byte).column ≤ Format.lastByte := by
  obtain ⟨n, hn⟩ : ∃ n, n = Format.lastByte := ⟨_, rfl⟩
  rw [← hn]
  have hbytes : byteLength (List.replicate n 'a') = n := by
    rw [byteLength_eq_sum, List.map_replicate, List.sum_replicate_nat]
    exact Nat.mul_one n
  have hunits : unitLength (List.replicate n 'a') = n := by
    rw [unitLength_eq_sum, List.map_replicate, List.sum_replicate_nat]
    exact Nat.mul_one n
  have hsize : (String.ofList (List.replicate n 'a')).utf8ByteSize ≤ n := by
    rw [utf8ByteSize_eq, String.toList_ofList, hbytes]
  have hnone : '\n' ∉ List.replicate n 'a' := fun hmem => by
    cases List.eq_of_mem_replicate hmem
  have hcolumn : n < ((ofText (String.ofList (List.replicate n 'a'))).position n).column := by
    rw [ofText, String.toList_ofList]
    subst hn
    exact (lt_column_iff hbytes.le Format.lastByte).2 ⟨hunits, hnone, Nat.le_refl _⟩
  exact ⟨hsize, hcolumn, fun hall => absurd (hall _ n hsize (Nat.le_refl n)) (Nat.not_le.2 hcolumn)⟩

end LintDirectives.LineIndex
