import Guardrails.Proofs.Source.Lines
import Guardrails.Proofs.Text.Lines

/-!
# Offsets and positions

An offset counts bytes from the start of a text. Its row and its column are read off the bytes before it, and lead
back to it. Lines are counted in two ways, by the newlines before them and as those that are read one by one, and
both agree on every line that has something in it.
-/

namespace Guardrails.Source

/-! ## Bytes -/

def bytes (s : Source) : List UInt8 :=
  s.text.toUTF8.data.toList

def newline : UInt8 := 10

/-- The number of newlines before an offset. -/
def rowOf (s : Source) (offset : Nat) : Nat :=
  (s.bytes.take offset).count newline

/-- The number of bytes before an offset, from the last newline or from the start of the text on. -/
def columnOf (s : Source) (offset : Nat) : Nat :=
  ((s.bytes.take offset).reverse.takeWhile (· != newline)).length

def encode (text : List Char) : List UInt8 :=
  text.flatMap String.utf8EncodeChar

@[simp] theorem encode_nil : encode [] = [] := rfl

@[simp] theorem encode_cons (c : Char) (text : List Char) :
    encode (c :: text) = String.utf8EncodeChar c ++ encode text := rfl

@[simp] theorem encode_append (a b : List Char) : encode (a ++ b) = encode a ++ encode b :=
  List.flatMap_append

theorem bytes_eq (s : Source) : s.bytes = encode s.text.toList := by
  have htext : (encode s.text.toList).toByteArray = s.text.toUTF8 := String.utf8Encode_toList
  rw [bytes, ← htext, List.toList_data_toByteArray]

@[simp] theorem length_encode (text : List Char) : (encode text).length = byteLength text := by
  induction text with
  | nil => rfl
  | cons c text ih => rw [encode_cons, List.length_append, String.length_utf8EncodeChar, ih, byteLength_cons]

theorem newline_not_mem_encodeChar {c : Char} (h : c ≠ '\n') : newline ∉ String.utf8EncodeChar c := by
  have hchar : c.val.toNat ≠ 10 := fun heq => h (Char.val_inj.1 (UInt32.toNat_inj.1 heq))
  have hbyte : ∀ n, newline = UInt8.ofNat n → n % 256 = 10 := by
    intro n heq
    rw [← UInt8.toNat_ofNat', ← heq]
    rfl
  intro hmem
  simp only [String.utf8EncodeChar] at hmem
  split_ifs at hmem <;> simp only [List.mem_cons, List.not_mem_nil, or_false] at hmem
  · have := hbyte _ hmem
    omega
  · rcases hmem with hmem | hmem <;> have := hbyte _ hmem <;> omega
  · rcases hmem with hmem | hmem | hmem <;> have := hbyte _ hmem <;> omega
  · rcases hmem with hmem | hmem | hmem | hmem <;> have := hbyte _ hmem <;> omega

theorem count_newline_encodeChar (c : Char) :
    (String.utf8EncodeChar c).count newline = if c = '\n' then 1 else 0 := by
  split_ifs with hc
  · rw [hc]
    rfl
  · exact List.count_eq_zero.2 (newline_not_mem_encodeChar hc)

@[simp] theorem count_newline_encode (text : List Char) : (encode text).count newline = text.count '\n' := by
  induction text with
  | nil => rfl
  | cons c text ih =>
    rw [encode_cons, List.count_append, count_newline_encodeChar, ih, List.count_cons, Nat.add_comm]
    simp only [beq_iff_eq]

/-! ## Rows and columns -/

section

variable {s : Source} {before line after : List Char} {offset : Nat}

theorem take_bytes_of_isLine (h : IsLine s.text.toList before line after) (hstart : byteLength before ≤ offset)
    (hstop : offset ≤ byteLength before + byteLength line) :
    s.bytes.take offset = encode before ++ (encode line).take (offset - byteLength before) := by
  rw [bytes_eq, h.text, encode_append, List.take_append_of_le_length (by simpa using hstop), encode_append,
    List.take_append, length_encode, List.take_of_length_le (by simpa using hstart)]

theorem newline_not_mem_take_line (h : IsLine s.text.toList before line after) (n : Nat) :
    newline ∉ (encode line).take n := by
  have hnone : (encode line).count newline = 0 := by
    rw [count_newline_encode, List.count_eq_zero]
    exact h.inside
  exact fun hmem => List.count_eq_zero.1 hnone (List.mem_of_mem_take hmem)

theorem rowOf_of_isLine (h : IsLine s.text.toList before line after) (hstart : byteLength before ≤ offset)
    (hstop : offset ≤ byteLength before + byteLength line) : s.rowOf offset = before.count '\n' := by
  rw [rowOf, take_bytes_of_isLine h hstart hstop, List.count_append, count_newline_encode,
    List.count_eq_zero.2 (newline_not_mem_take_line h _), Nat.add_zero]

theorem columnOf_of_isLine (h : IsLine s.text.toList before line after) (hstart : byteLength before ≤ offset)
    (hstop : offset ≤ byteLength before + byteLength line) : s.columnOf offset = offset - byteLength before := by
  have hopens : (encode before).reverse.takeWhile (· != newline) = [] := by
    rcases h.opens with rfl | hlast
    · rfl
    · obtain ⟨earlier, rfl⟩ := List.getLast?_eq_some_iff.1 hlast
      rw [encode_append, List.reverse_append]
      rfl
  have hinside : ∀ b ∈ ((encode line).take (offset - byteLength before)).reverse, (b != newline) = true := by
    intro b hb
    rw [bne_iff_ne]
    rintro rfl
    exact newline_not_mem_take_line h _ (List.mem_reverse.1 hb)
  rw [columnOf, take_bytes_of_isLine h hstart hstop, List.reverse_append, List.takeWhile_append_of_pos hinside, hopens,
    List.append_nil, List.length_reverse, List.length_take, length_encode]
  omega

/-! ## Lines by number -/

theorem startAfter_splitChars (text : List Char) :
    startAfter (Text.splitChars '\n' text) = byteLength text + 1 := by
  induction text with
  | nil => rfl
  | cons c text ih =>
    by_cases hc : c = '\n'
    · rw [hc, Text.splitChars_cons_self, startAfter, ih, byteLength_cons]
      have hsize : ('\n').utf8Size = 1 := rfl
      rw [hsize, byteLength_nil]
      omega
    · obtain ⟨piece, pieces, htext, hsplit⟩ := Text.exists_splitChars_cons_of_ne hc text
      rw [htext, startAfter] at ih
      rw [hsplit, startAfter, byteLength_cons, byteLength_cons]
      omega

theorem startAfter_of_isLine (h : IsLine s.text.toList before line after) :
    startAfter (s.segments.take (before.count '\n')) = byteLength before := by
  rcases h.opens with rfl | hlast
  · rfl
  · obtain ⟨earlier, rfl⟩ := List.getLast?_eq_some_iff.1 hlast
    have htext : s.text.toList = earlier ++ '\n' :: (line ++ after) := by
      rw [h.text]
      simp
    have hcount : (earlier ++ ['\n']).count '\n' = (Text.splitChars '\n' earlier).length := by
      rw [Text.length_splitChars, List.count_append]
      rfl
    rw [segments, htext, Text.splitChars_append, hcount, List.take_left, startAfter_splitChars, byteLength_append]
    rfl

theorem getElem?_segments_of_isLine (h : IsLine s.text.toList before line after) :
    s.segments[before.count '\n']? = some line := by
  rw [segments, ← Text.piece?_eq_getElem?, piece?_of_isLine h]

theorem offsetAt_of_isLine (h : IsLine s.text.toList before line after) (column : Nat) :
    s.offsetAt (before.count '\n' + 1) (column + 1) = byteLength before + column := by
  have hlt := (List.getElem?_eq_some_iff.1 (getElem?_segments_of_isLine h)).1
  rw [offsetAt, if_pos hlt, startAfter_of_isLine h, Nat.add_sub_cancel]

theorem length_segments (s : Source) : s.segments.length = s.bytes.count newline + 1 := by
  rw [segments, Text.length_splitChars, bytes_eq, count_newline_encode]

/-- Only the last piece between newlines may be no line, and that only when it is empty. -/
theorem lt_length_linesOf {pieces : List (List Char)} {n : Nat} {piece : List Char} (h : pieces[n]? = some piece)
    (hline : n + 1 < pieces.length ∨ piece ≠ []) : n < (linesOf pieces).length := by
  induction pieces using linesOf.induct generalizing n with
  | case1 => cases h
  | case2 last hempty =>
    obtain ⟨rfl, rfl⟩ : n = 0 ∧ last = piece := by simpa [List.getElem?_singleton] using h
    simp_all
  | case3 last hempty =>
    obtain ⟨rfl, -⟩ : n = 0 ∧ last = piece := by simpa [List.getElem?_singleton] using h
    rw [linesOf, if_neg hempty]
    exact Nat.one_pos
  | case4 first rest hrest ih =>
    rw [linesOf.eq_3 first rest hrest, List.length_cons]
    cases n with
    | zero => exact Nat.succ_pos _
    | succ n => exact Nat.succ_lt_succ (ih h (hline.imp_left Nat.lt_of_succ_lt_succ))

theorem lt_lineCount_of_isLine (h : IsLine s.text.toList before line after) (hsome : line ++ after ≠ []) :
    before.count '\n' < s.lineCount := by
  refine lt_length_linesOf (getElem?_segments_of_isLine h) ?_
  rcases h.closes with rfl | hnewline
  · exact .inr (by simpa using hsome)
  · left
    have hpos : 0 < after.count '\n' := List.count_pos_iff.2 (List.mem_of_head? hnewline)
    rw [segments, Text.length_splitChars, h.text, List.count_append, List.count_append]
    omega

end

/-! ## There and back -/

/-- The row and the column of an offset lead back to it, and to its line, which is what stands between the newlines
around it. Lines without a number are those that there are not. -/
theorem offsetAt_rowOf (s : Source) {offset : Nat} (h : offset ≤ s.byteCount) :
    s.positionAt offset = ⟨s.rowOf offset, s.columnOf offset⟩ ∧
      s.offsetAt (s.rowOf offset + 1) (s.columnOf offset + 1) = offset ∧
      (∃ before line after, IsLine s.text.toList before line after ∧
        byteLength before + s.columnOf offset = offset ∧ s.columnOf offset ≤ byteLength line ∧
        s.lineText? (s.rowOf offset + 1) = some (String.ofList (dropReturn line))) ∧
      (offset < s.byteCount → s.rowOf offset + 1 ≤ s.lineCount) ∧
      s.lineText? 0 = none ∧
      ∀ line, s.bytes.count newline + 1 < line → s.lineText? line = none := by
  obtain ⟨before, line, after, hline, hstart, hstop, hposition⟩ := exists_isLine_of_offset s h
  have hrow := rowOf_of_isLine hline hstart hstop
  have hcolumn := columnOf_of_isLine hline hstart hstop
  have hsum : byteLength before + (offset - byteLength before) = offset := Nat.add_sub_cancel' hstart
  refine ⟨by rw [hposition, hrow, hcolumn], ?_, ⟨before, line, after, hline, ?_, ?_, ?_⟩, ?_, rfl, ?_⟩
  · rw [hrow, hcolumn, offsetAt_of_isLine hline, hsum]
  · rw [hcolumn, hsum]
  · rw [hcolumn]
    omega
  · rw [hrow, lineText?_of_isLine hline]
  · intro hinside
    rw [hrow]
    refine lt_lineCount_of_isLine hline fun hempty => ?_
    obtain ⟨rfl, rfl⟩ := List.append_eq_nil_iff.1 hempty
    rw [byteCount, hline.text] at hinside
    simp only [List.append_nil] at hinside
    omega
  · intro number hnumber
    obtain ⟨n, rfl⟩ : ∃ n, number = n + 1 := ⟨number - 1, by omega⟩
    rw [lineText?_succ, List.getElem?_eq_none (by rw [length_segments]; omega), Option.map_none]

/-- The offset inside the last character, which takes two bytes and has no newline behind it. -/
theorem offsetAt_rowOf_insideLetter :
    let s : Source := ⟨"a\r\nb\u00e9"⟩
    5 ≤ s.byteCount ∧ s.rowOf 5 = 1 ∧ s.columnOf 5 = 2 ∧ s.offsetAt (s.rowOf 5 + 1) (s.columnOf 5 + 1) = 5 ∧
      s.rowOf 5 + 1 ≤ s.lineCount := by
  intro s
  have hinside : 5 < s.byteCount := by decide
  obtain ⟨-, hoffset, -, hcount, -, -⟩ := s.offsetAt_rowOf (Nat.le_of_lt hinside)
  exact ⟨Nat.le_of_lt hinside, rfl, rfl, hoffset, hcount hinside⟩

end Guardrails.Source
