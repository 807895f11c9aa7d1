import Mathlib.Data.List.Basic
import Guardrails.Proofs.Allow.Deciding
import Guardrails.Proofs.Source.Lines

/-!
# Markers

What a text must hold for a line of it to carry a directive, said by the text alone: two slashes or more, blanks,
and the keyword. Lines are searched for it wherever it stands, in a comment or not.
-/

namespace Guardrails

open Source (byteLength dropReturn linesOf)

/-- Whether a text starts like a line comment with the keyword of directives on its first line. -/
def IsMarker (text : List Char) : Prop :=
  ∃ slashes blanks rest, text = "//".toList ++ (slashes ++ (blanks ++ ("guardlint:".toList ++ rest))) ∧
    (∀ c ∈ slashes, c = '/') ∧ ∀ c ∈ blanks, Text.isBlank c = true ∧ c ≠ '\n'

/-- Whether a marker stands at an offset of a text. -/
def Source.MarkerAt (s : Source) (offset : Nat) : Prop :=
  ∃ before rest, s.text.toList = before ++ rest ∧ byteLength before = offset ∧ IsMarker rest

theorem IsMarker.append {text : List Char} (h : IsMarker text) (more : List Char) : IsMarker (text ++ more) := by
  obtain ⟨slashes, blanks, rest, rfl, hslashes, hblanks⟩ := h
  refine ⟨slashes, blanks, rest ++ more, ?_, hslashes, hblanks⟩
  simp only [List.append_assoc]

theorem Text.afterStart?_append (start rest : List Char) : afterStart? start (start ++ rest) = some rest := by
  rw [afterStart?, if_pos (List.isPrefixOf_iff_prefix.2 (List.prefix_append start rest)), List.drop_left]

theorem Text.eq_append_of_afterStart? {start text rest : List Char} (h : afterStart? start text = some rest) :
    text = start ++ rest := by
  rw [afterStart?, Option.ite_none_right_eq_some, List.isPrefixOf_iff_prefix] at h
  obtain ⟨⟨tail, rfl⟩, hrest⟩ := h
  rw [List.drop_left, Option.some.injEq] at hrest
  rw [hrest]

/-! ## From directives to markers -/

namespace AllowDirective

theorem isMarker_of_bodyHere? {text body : List Char} (hline : '\n' ∉ text) (h : bodyHere? text = some body) :
    IsMarker text := by
  simp only [bodyHere?, Option.bind_eq_bind, Option.bind_eq_some_iff] at h
  obtain ⟨comment, hcomment, keyword, hkeyword, -⟩ := h
  -- The slashes and the blanks that are skipped stand in front of what is left.
  have hslashes := List.takeWhile_append_dropWhile (p := (· == '/')) (l := comment)
  have hblanks := List.takeWhile_append_dropWhile (p := Text.isBlank) (l := comment.dropWhile (· == '/'))
  rw [Text.trimLeft] at hkeyword
  have htext : text = "//".toList ++ (comment.takeWhile (· == '/') ++
      ((comment.dropWhile (· == '/')).takeWhile Text.isBlank ++ ("guardlint:".toList ++ keyword))) := by
    rw [← Text.eq_append_of_afterStart? hkeyword, hblanks, hslashes]
    exact Text.eq_append_of_afterStart? hcomment
  refine ⟨_, _, keyword, htext, fun c hc => beq_iff_eq.1 (List.mem_takeWhile_imp (p := (· == '/')) hc), ?_⟩
  intro c hc
  refine ⟨List.mem_takeWhile_imp hc, ?_⟩
  rintro rfl
  rw [htext] at hline
  exact hline (List.mem_append_right _ (List.mem_append_right _ (List.mem_append_left _ hc)))

theorem bodyHere?_append {slashes blanks : List Char} (hslashes : ∀ c ∈ slashes, c = '/')
    (hblanks : ∀ c ∈ blanks, Text.isBlank c = true) (rest : List Char) :
    bodyHere? ("//".toList ++ (slashes ++ (blanks ++ ("guardlint:".toList ++ rest)))) =
      some (Text.trimLeft rest) := by
  have hskip : (slashes ++ (blanks ++ ("guardlint:".toList ++ rest))).dropWhile (· == '/') =
      blanks ++ ("guardlint:".toList ++ rest) := by
    rw [List.dropWhile_append_of_pos fun c hc => beq_iff_eq.2 (hslashes c hc)]
    cases blanks with
    | nil => rfl
    | cons c blanks =>
      refine List.dropWhile_cons_of_neg ?_
      rw [beq_iff_eq]
      rintro rfl
      exact absurd (hblanks '/' List.mem_cons_self) (by decide)
  have htrim : Text.trimLeft (blanks ++ ("guardlint:".toList ++ rest)) = "guardlint:".toList ++ rest := by
    rw [Text.trimLeft, List.dropWhile_append_of_pos hblanks]
    rfl
  simp only [bodyHere?, Text.afterStart?_append, Option.bind_eq_bind, Option.bind_some, hskip, htrim]
  rfl

theorem isSome_bodyHere? {text : List Char} (h : IsMarker text) : (bodyHere? text).isSome = true := by
  obtain ⟨slashes, blanks, rest, rfl, hslashes, hblanks⟩ := h
  rw [bodyHere?_append hslashes fun c hc => (hblanks c hc).1]
  rfl

theorem exists_isMarker_of_body? {text body : List Char} (hline : '\n' ∉ text) (h : body? text = some body) :
    ∃ before rest, text = before ++ rest ∧ IsMarker rest := by
  induction text with
  | nil => cases h
  | cons c text ih =>
    rw [body?, Option.orElse_eq_orElse] at h
    cases hhere : bodyHere? (c :: text) with
    | some found => exact ⟨[], c :: text, rfl, isMarker_of_bodyHere? hline hhere⟩
    | none =>
      rw [hhere, Option.orElse_none] at h
      obtain ⟨before, rest, htext, hmarker⟩ := ih (fun hmem => hline (List.mem_cons_of_mem c hmem)) h
      exact ⟨c :: before, rest, by rw [htext, List.cons_append], hmarker⟩

theorem body?_cons_eq_none_iff {c : Char} {text : List Char} :
    body? (c :: text) = none ↔ bodyHere? (c :: text) = none ∧ body? text = none := by
  rw [body?]
  cases bodyHere? (c :: text) <;> simp

theorem not_isMarker_of_body? {before rest : List Char} (h : body? (before ++ rest) = none) : ¬ IsMarker rest := by
  induction before with
  | nil =>
    intro hmarker
    have hhere := isSome_bodyHere? hmarker
    cases rest with
    | nil => cases hhere
    | cons c rest =>
      rw [(body?_cons_eq_none_iff.1 h).1] at hhere
      cases hhere
  | cons c before ih => exact ih (body?_cons_eq_none_iff.1 h).2

end AllowDirective

namespace Source

theorem exists_append_of_dropReturn (line : List Char) : ∃ rest, line = dropReturn line ++ rest := by
  unfold dropReturn
  split
  · rename_i hlast
    exact ⟨['\r'], (List.dropLast_append_getLast? '\r' hlast).symm⟩
  · exact ⟨[], (List.append_nil line).symm⟩

theorem exists_piece_of_linesOf {pieces : List (List Char)} {n : Nat} {line : List Char}
    (h : (linesOf pieces)[n]? = some line) : ∃ rest, pieces[n]? = some (line ++ rest) := by
  induction pieces using linesOf.induct generalizing n with
  | case1 => cases h
  | case2 last hempty => simp [linesOf, hempty] at h
  | case3 last hempty =>
    rw [linesOf, if_neg hempty] at h
    exact ⟨[], by rwa [List.append_nil]⟩
  | case4 piece rest hrest ih =>
    rw [linesOf.eq_3 piece rest hrest] at h
    cases n with
    | zero =>
      obtain rfl := Option.some.inj h
      obtain ⟨ending, hpiece⟩ := exists_append_of_dropReturn piece
      exact ⟨ending, congrArg some hpiece⟩
    | succ n => exact ih h

theorem row_advance_append (p : Position) (before rest : List Char) :
    (advance p (byteLength before) (before ++ rest)).row = p.row + before.count '\n' := by
  induction before generalizing p with
  | nil => cases rest <;> rfl
  | cons c before ih =>
    obtain ⟨k, hk⟩ : ∃ k, c.utf8Size + byteLength before = k + 1 :=
      ⟨_, (Nat.sub_add_cancel (Nat.add_pos_left c.utf8Size_pos _)).symm⟩
    rw [byteLength_cons, List.cons_append, hk, advance]
    by_cases hnewline : c = '\n'
    · have hrest : k = byteLength before := by
        have hone : c.utf8Size = 1 := by rw [hnewline]; rfl
        omega
      rw [if_pos hnewline, hrest, ih, hnewline, List.count_cons_self, Nat.add_right_comm, Nat.add_assoc]
    · have hrest : k + 1 - c.utf8Size = byteLength before := by omega
      rw [if_neg hnewline, if_pos (by omega), hrest, ih, List.count_cons_of_ne hnewline]

/-- A directive on a line comes from a marker that starts in this line. -/
theorem exists_markerAt_of_directiveOn? {s : Source} {line : Nat} {d : AllowDirective}
    (h : s.directiveOn? line = some d) : ∃ offset, s.MarkerAt offset ∧ (s.positionAt offset).line = line := by
  obtain ⟨n, -, rfl⟩ := lt_length_of_directiveOn? h
  obtain ⟨text, htext, hd⟩ := Option.bind_eq_some_iff.1 h
  rw [lines, List.getElem?_map, Option.map_eq_some_iff] at htext
  obtain ⟨chars, hchars, rfl⟩ := htext
  obtain ⟨ending, hpiece⟩ := exists_piece_of_linesOf hchars
  obtain ⟨before, after, hisLine, hcount, -⟩ := exists_isLine_of_getElem? hpiece
  have hinside : '\n' ∉ chars := fun hmem => hisLine.inside (List.mem_append_left _ hmem)
  rw [AllowDirective.ofLine?, String.toList_ofList, Option.bind_eq_bind, Option.bind_eq_some_iff] at hd
  obtain ⟨body, hbody, -⟩ := hd
  obtain ⟨inLine, marker, hline, hmarker⟩ := AllowDirective.exists_isMarker_of_body? hinside hbody
  -- No newline stands between the start of the line and the marker.
  have hnone : inLine.count '\n' = 0 := by
    refine List.count_eq_zero.2 fun hmem => hinside ?_
    rw [hline]
    exact List.mem_append_left _ hmem
  have hsplit : s.text.toList = (before ++ inLine) ++ (marker ++ (ending ++ after)) := by
    rw [hisLine.text, hline]
    simp only [List.append_assoc]
  refine ⟨byteLength (before ++ inLine), ⟨before ++ inLine, _, hsplit, rfl, hmarker.append _⟩, ?_⟩
  rw [Position.line, positionAt, hsplit, row_advance_append, List.count_append, hcount, hnone, Nat.zero_add,
    Nat.add_zero]

theorem not_markerAt {s : Source} (h : AllowDirective.body? s.text.toList = none) (offset : Nat) :
    ¬ s.MarkerAt offset := by
  rintro ⟨before, rest, htext, -, hmarker⟩
  rw [htext] at h
  exact AllowDirective.not_isMarker_of_body? h hmarker

end Source
end Guardrails
