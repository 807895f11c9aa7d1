import Mathlib.Data.List.TakeWhile
import Mathlib.Tactic.ByContra
import Guardrails.Source

/-!
# Lines and offsets

A line of a text is given by what stands before it, what it holds, and what stands after it. Rows are counted
by the newlines before a line, and columns by the bytes from its start on.
-/

namespace Guardrails

/-- Whether a text falls into what stands before a line, the line without its newline, and what stands
after it. -/
structure IsLine (text before line after : List Char) : Prop where
  text : text = before ++ line ++ after
  opens : before = [] ∨ before.getLast? = some '\n'
  inside : '\n' ∉ line
  closes : after = [] ∨ after.head? = some '\n'

namespace IsLine

variable {text before line after : List Char}

theorem first (text : List Char) :
    IsLine text [] (text.takeWhile (· != '\n')) (text.dropWhile (· != '\n')) where
  text := by rw [List.nil_append, List.takeWhile_append_dropWhile]
  opens := .inl rfl
  inside hmem := by simpa using List.mem_takeWhile_imp hmem
  closes := by
    cases hafter : text.dropWhile (· != '\n') with
    | nil => exact .inl rfl
    | cons c rest =>
      have hhead := List.head?_dropWhile_not (· != '\n') text
      rw [hafter] at hhead
      exact .inr (by simpa using hhead)

theorem newline (h : IsLine text before line after) : IsLine ('\n' :: text) ('\n' :: before) line after where
  text := by rw [h.text, List.cons_append, List.cons_append]
  opens := by
    rw [List.getLast?_cons]
    rcases h.opens with rfl | hlast
    · exact .inr rfl
    · exact .inr (by rw [hlast, Option.getD_some])
  inside := h.inside
  closes := h.closes

theorem cons_nil {c : Char} (hc : c ≠ '\n') (h : IsLine text [] line after) :
    IsLine (c :: text) [] (c :: line) after where
  text := by rw [h.text, List.nil_append, List.nil_append, List.cons_append]
  opens := .inl rfl
  inside hmem := by
    rcases List.mem_cons.1 hmem with hmem | hmem
    · exact hc hmem.symm
    · exact h.inside hmem
  closes := h.closes

theorem cons {c : Char} (hbefore : before ≠ []) (h : IsLine text before line after) :
    IsLine (c :: text) (c :: before) line after where
  text := by rw [h.text, List.cons_append, List.cons_append]
  opens := by
    rw [List.getLast?_cons, h.opens.resolve_left hbefore, Option.getD_some]
    exact .inr rfl
  inside := h.inside
  closes := h.closes

theorem tail {c : Char} (h : IsLine (c :: text) (c :: before) line after) : IsLine text before line after where
  text := by
    have htext := h.text
    rw [List.cons_append, List.cons_append] at htext
    exact List.tail_eq_of_cons_eq htext
  opens := by
    cases before with
    | nil => exact .inl rfl
    | cons d before =>
      have hlast := h.opens.resolve_left (List.cons_ne_nil _ _)
      rw [List.getLast?_cons_cons] at hlast
      exact .inr hlast
  inside := h.inside
  closes := h.closes

theorem count_pos (h : IsLine text before line after) (hbefore : before ≠ []) : 0 < before.count '\n' :=
  List.count_pos_iff.2 (List.mem_of_getLast? (h.opens.resolve_left hbefore))

end IsLine

namespace Source

@[simp] theorem byteLength_nil : byteLength [] = 0 := rfl

@[simp] theorem byteLength_cons (c : Char) (rest : List Char) :
    byteLength (c :: rest) = c.utf8Size + byteLength rest := rfl

@[simp] theorem byteLength_append (a b : List Char) : byteLength (a ++ b) = byteLength a + byteLength b := by
  induction a with
  | nil => simp
  | cons c a ih => simp [ih, Nat.add_assoc]

/-! ## Lines by number -/

/-- The line with `n` newlines before it is number `n` of the pieces between newlines. -/
theorem piece?_of_isLine {text before line after : List Char} (h : IsLine text before line after) :
    Text.piece? '\n' (before.count '\n') text = some line := by
  induction before generalizing text with
  | nil =>
    obtain ⟨htext, -, hinside, hcloses⟩ := h
    have hstop : after.takeWhile (· != '\n') = [] := by
      cases after with
      | nil => rfl
      | cons c after =>
        obtain rfl : c = '\n' := by simpa using hcloses
        rfl
    have hline : ∀ c ∈ line, (c != '\n') = true := by
      intro c hc
      rw [bne_iff_ne]
      rintro rfl
      exact hinside hc
    rw [htext, List.count_nil, Text.piece?, List.nil_append, List.takeWhile_append_of_pos hline, hstop,
      List.append_nil]
  | cons c before ih =>
    have htext := h.text
    cases text with
    | nil => simp at htext
    | cons d text =>
      obtain rfl : d = c := by
        rw [List.cons_append, List.cons_append] at htext
        exact List.head_eq_of_cons_eq htext
      have hrest := ih h.tail
      by_cases hnewline : d = '\n'
      · subst hnewline
        rw [List.count_cons_self, Text.piece?]
        exact hrest
      · have hcount : before.count '\n' ≠ 0 := by
          have hpos := h.count_pos (List.cons_ne_nil _ _)
          rw [List.count_cons_of_ne hnewline] at hpos
          exact Nat.ne_of_gt hpos
        rw [List.count_cons_of_ne hnewline, Text.piece?_cons_of_ne hnewline, if_neg hcount, hrest]

theorem exists_isLine_of_getElem? {text line : List Char} {n : Nat}
    (h : (Text.splitChars '\n' text)[n]? = some line) :
    ∃ before after, IsLine text before line after ∧ before.count '\n' = n ∧
      byteLength before = startAfter ((Text.splitChars '\n' text).take n) := by
  induction text generalizing n line with
  | nil =>
    obtain ⟨rfl, rfl⟩ : n = 0 ∧ line = [] := by
      cases n with
      | zero => exact ⟨rfl, (Option.some.inj h).symm⟩
      | succ n => cases h
    exact ⟨[], [], .first [], rfl, rfl⟩
  | cons c rest ih =>
    by_cases hnewline : c = '\n'
    · subst hnewline
      rw [Text.splitChars_cons_self] at h ⊢
      cases n with
      | zero =>
        obtain rfl := Option.some.inj h
        exact ⟨[], _, .first _, rfl, rfl⟩
      | succ n =>
        obtain ⟨before, after, hline, hcount, hlength⟩ := ih h
        refine ⟨'\n' :: before, after, hline.newline, ?_, ?_⟩
        · rw [List.count_cons_self, hcount]
        · rw [List.take_succ_cons, startAfter, ← hlength]
          rfl
    · obtain ⟨piece, pieces, hrest, hsplit⟩ := Text.exists_splitChars_cons_of_ne hnewline rest
      rw [hrest] at ih
      rw [hsplit] at h ⊢
      cases n with
      | zero =>
        obtain rfl := Option.some.inj h
        obtain ⟨before, after, hline, hcount, -⟩ := ih (n := 0) rfl
        obtain rfl : before = [] := by
          by_contra hbefore
          exact absurd (hline.count_pos hbefore) (by rw [hcount]; exact Nat.lt_irrefl 0)
        exact ⟨[], after, hline.cons_nil hnewline, rfl, rfl⟩
      | succ n =>
        obtain ⟨before, after, hline, hcount, hlength⟩ := ih (n := n + 1) h
        have hbefore : before ≠ [] := by
          rintro rfl
          cases hcount
        refine ⟨c :: before, after, hline.cons hbefore, ?_, ?_⟩
        · rw [List.count_cons_of_ne hnewline, hcount]
        · rw [byteLength_cons, hlength, List.take_succ_cons, List.take_succ_cons, startAfter, startAfter,
            byteLength_cons]
          omega

/-! ## Positions -/

theorem exists_isLine_of_advance (p : Position) {offset : Nat} {text : List Char}
    (h : offset ≤ byteLength text) :
    ∃ before line after, IsLine text before line after ∧ byteLength before ≤ offset ∧
      offset ≤ byteLength before + byteLength line ∧
      advance p offset text = ⟨p.row + before.count '\n',
        (if before = [] then p.column else 0) + (offset - byteLength before)⟩ := by
  induction p, offset, text using advance.induct with
  | case1 text p => exact ⟨[], _, _, .first text, Nat.le_refl 0, Nat.zero_le _, by cases text <;> rfl⟩
  | case2 p offset => exact absurd h (Nat.not_succ_le_zero offset)
  | case3 p offset rest ih =>
    have hsize : ('\n').utf8Size = 1 := rfl
    rw [byteLength_cons, hsize] at h
    obtain ⟨before, line, after, hline, hstart, hstop, heq⟩ := ih (by omega)
    refine ⟨'\n' :: before, line, after, hline.newline, ?_, ?_, ?_⟩
    · rw [byteLength_cons, hsize]
      omega
    · rw [byteLength_cons, hsize]
      omega
    · rw [advance, if_pos rfl, heq, List.count_cons_self, if_neg (List.cons_ne_nil _ _), byteLength_cons, hsize]
      simp only [ite_self, Position.mk.injEq]
      omega
  | case4 p offset c rest hnewline hfits ih =>
    rw [byteLength_cons] at h
    obtain ⟨before, line, after, hline, hstart, hstop, heq⟩ := ih (by omega)
    rw [advance, if_neg hnewline, if_pos hfits, heq]
    by_cases hbefore : before = []
    · subst hbefore
      rw [byteLength_nil] at hstart hstop
      refine ⟨[], c :: line, after, hline.cons_nil hnewline, Nat.zero_le _, ?_, ?_⟩
      · rw [byteLength_nil, byteLength_cons]
        omega
      · simp only [List.count_nil, if_pos, byteLength_nil, Position.mk.injEq, true_and]
        omega
    · refine ⟨c :: before, line, after, hline.cons hbefore, ?_, ?_, ?_⟩
      · rw [byteLength_cons]
        omega
      · rw [byteLength_cons]
        omega
      · rw [List.count_cons_of_ne hnewline, if_neg hbefore, if_neg (List.cons_ne_nil _ _), byteLength_cons]
        simp only [Position.mk.injEq, true_and]
        omega
  | case5 p offset c rest hnewline hinside =>
    -- The offset is inside the character, and so in the first line.
    refine ⟨[], _, _, .first (c :: rest), Nat.zero_le _, ?_, ?_⟩
    · rw [List.takeWhile_cons_of_pos (by rwa [bne_iff_ne]), byteLength_cons, byteLength_nil]
      omega
    · rw [advance, if_neg hnewline, if_neg hinside]
      rfl

/-- Where an offset of the text is: the row counts the newlines before the line, and the column the bytes
between the start of the line and the offset. -/
theorem exists_isLine_of_offset (s : Source) {offset : Nat} (h : offset ≤ s.byteCount) :
    ∃ before line after, IsLine s.text.toList before line after ∧ byteLength before ≤ offset ∧
      offset ≤ byteLength before + byteLength line ∧
      s.positionAt offset = ⟨before.count '\n', offset - byteLength before⟩ := by
  obtain ⟨before, line, after, hline, hstart, hstop, heq⟩ := exists_isLine_of_advance ⟨0, 0⟩ h
  refine ⟨before, line, after, hline, hstart, hstop, ?_⟩
  rw [positionAt, heq]
  simp

theorem lineText?_of_isLine {s : Source} {before line after : List Char}
    (h : IsLine s.text.toList before line after) :
    s.lineText? (before.count '\n' + 1) = some (String.ofList (dropReturn line)) := by
  rw [lineText?, piece?_of_isLine h, Option.map_some]

theorem exists_isLine_of_lt (s : Source) {n : Nat} (h : n < s.segments.length) :
    ∃ before line after, IsLine s.text.toList before line after ∧ before.count '\n' = n ∧
      s.offsetAt (n + 1) 1 = byteLength before := by
  obtain ⟨before, after, hline, hcount, hlength⟩ := exists_isLine_of_getElem? (List.getElem?_eq_getElem h)
  refine ⟨before, _, after, hline, hcount, ?_⟩
  rw [offsetAt, if_pos h, segments, ← hlength]
  rfl

theorem length_linesOf_le (pieces : List (List Char)) : (linesOf pieces).length ≤ pieces.length := by
  fun_induction linesOf pieces with
  | case1 => exact Nat.le_refl 0
  | case2 | case3 => simp
  | case4 line rest _ ih => simpa using ih

end Source
end Guardrails
