import Guardrails.Text.Search

/-!
# Texts in pieces

What stands between the separators of a text, and the text that the pieces make up again.
-/

namespace Guardrails.Text

theorem splitChars_eq_splitOn (separator : Char) (text : List Char) :
    splitChars separator text = text.splitOn separator := by
  induction text with
  | nil => rfl
  | cons c rest ih =>
    rw [List.splitOn_cons_eq_if_modifyHead, ← ih]
    by_cases hc : c = separator
    · simp [hc]
    · obtain ⟨piece, pieces, hrest, hsplit⟩ := exists_splitChars_cons_of_ne hc rest
      simp [hc, hrest, hsplit]

theorem not_mem_of_mem_splitChars {separator : Char} {text piece : List Char}
    (h : piece ∈ splitChars separator text) : separator ∉ piece := by
  induction text generalizing piece with
  | nil =>
    obtain rfl := List.mem_singleton.1 h
    exact List.not_mem_nil
  | cons c rest ih =>
    by_cases hc : c = separator
    · rw [hc, splitChars_cons_self] at h
      rcases List.mem_cons.1 h with rfl | h
      · exact List.not_mem_nil
      · exact ih h
    · obtain ⟨first, pieces, hrest, hsplit⟩ := exists_splitChars_cons_of_ne hc rest
      rw [hrest] at ih
      rw [hsplit] at h
      rcases List.mem_cons.1 h with rfl | h
      · rw [List.mem_cons, not_or]
        exact ⟨fun heq => hc heq.symm, ih List.mem_cons_self⟩
      · exact ih (List.mem_cons_of_mem _ h)

theorem append_cons_inj {separator : Char} {front front' behind behind' : List Char} (h : separator ∉ front)
    (h' : separator ∉ front') :
    front ++ separator :: behind = front' ++ separator :: behind' ↔ front = front' ∧ behind = behind' := by
  constructor
  · intro heq
    induction front generalizing front' with
    | nil =>
      cases front' with
      | nil => exact ⟨rfl, (List.cons.inj heq).2⟩
      | cons c front' => exact absurd ((List.cons.inj heq).1 ▸ List.mem_cons_self) h'
    | cons c front ih =>
      cases front' with
      | nil => exact absurd ((List.cons.inj heq).1 ▸ List.mem_cons_self) h
      | cons c' front' =>
        obtain ⟨rfl, hrest⟩ := List.cons.inj heq
        obtain ⟨rfl, hbehind⟩ := ih (mt (List.mem_cons_of_mem c) h) (mt (List.mem_cons_of_mem c) h') hrest
        exact ⟨rfl, hbehind⟩
  · rintro ⟨rfl, rfl⟩
    rfl

theorem splitChars_of_not_mem {separator : Char} {text : List Char} (h : separator ∉ text) :
    splitChars separator text = [text] := by
  induction text with
  | nil => rfl
  | cons c text ih =>
    obtain ⟨hc, htext⟩ := not_or.1 (mt List.mem_cons.2 h)
    rw [splitChars, ih htext]
    exact if_neg fun heq => hc heq.symm

theorem length_splitChars (separator : Char) (text : List Char) :
    (splitChars separator text).length = text.count separator + 1 := by
  induction text with
  | nil => rfl
  | cons c text ih =>
    by_cases hc : c = separator
    · rw [hc, splitChars_cons_self, List.length_cons, ih, List.count_cons_self]
    · obtain ⟨piece, pieces, htext, hsplit⟩ := exists_splitChars_cons_of_ne hc text
      rw [hsplit, List.count_cons_of_ne hc, ← ih, htext, List.length_cons, List.length_cons]

theorem subset_of_mem_splitChars {separator : Char} {text piece : List Char} (h : piece ∈ splitChars separator text) :
    piece ⊆ text := by
  induction text generalizing piece with
  | nil =>
    rw [List.mem_singleton.1 h]
    exact List.nil_subset _
  | cons c text ih =>
    by_cases hc : c = separator
    · rw [hc, splitChars_cons_self] at h
      rcases List.mem_cons.1 h with rfl | h
      · exact List.nil_subset _
      · exact List.subset_cons_of_subset c (ih h)
    · obtain ⟨first, pieces, htext, hsplit⟩ := exists_splitChars_cons_of_ne hc text
      rw [htext] at ih
      rw [hsplit] at h
      rcases List.mem_cons.1 h with rfl | h
      · exact List.cons_subset_cons c (ih List.mem_cons_self)
      · exact List.subset_cons_of_subset c (ih (List.mem_cons_of_mem first h))

theorem splitChars_append (separator : Char) (front behind : List Char) :
    splitChars separator (front ++ separator :: behind) =
      splitChars separator front ++ splitChars separator behind := by
  induction front with
  | nil => rw [List.nil_append, splitChars_cons_self, splitChars, List.singleton_append]
  | cons c front ih =>
    by_cases hc : c = separator
    · rw [hc, List.cons_append, splitChars_cons_self, ih, splitChars_cons_self, List.cons_append]
    · obtain ⟨piece, pieces, hfront, hsplit⟩ := exists_splitChars_cons_of_ne hc front
      rw [hfront] at ih
      rw [List.cons_append, splitChars, ih, hsplit]
      exact if_neg hc

theorem splitChars_intercalate {separator : Char} {pieces : List (List Char)} (hsome : pieces ≠ [])
    (h : ∀ piece ∈ pieces, separator ∉ piece) :
    splitChars separator (List.intercalate [separator] pieces) = pieces := by
  rw [splitChars_eq_splitOn]
  exact List.splitOn_intercalate separator h hsome

theorem intercalate_splitChars (separator : Char) (text : List Char) :
    List.intercalate [separator] (splitChars separator text) = text := by
  rw [splitChars_eq_splitOn]
  exact List.intercalate_splitOn separator

/-! ## Strings -/

section

variable {separator : Char} {mark : String} (hmark : mark.toList = [separator])

include hmark

theorem split_intercalate {texts : List String} (h : ∀ t ∈ texts, separator ∉ t.toList) (hsome : texts ≠ []) :
    split separator (mark.intercalate texts) = texts := by
  have hpieces : ∀ piece ∈ texts.map String.toList, separator ∉ piece := by
    intro piece hpiece
    obtain ⟨t, ht, rfl⟩ := List.mem_map.1 hpiece
    exact h t ht
  rw [split, String.toList_intercalate, hmark, splitChars_intercalate (by simpa using hsome) hpieces, List.map_map]
  simp

theorem intercalate_split (text : String) : mark.intercalate (split separator text) = text := by
  apply String.toList_injective
  rw [String.toList_intercalate, hmark, split, List.map_map]
  simp [Function.comp_def, intercalate_splitChars]

theorem split_append (front behind : String) :
    split separator (front ++ mark ++ behind) = split separator front ++ split separator behind := by
  have htext : (front ++ mark ++ behind).toList = front.toList ++ separator :: behind.toList := by simp [hmark]
  unfold split
  rw [htext, splitChars_append, List.map_append]

end

theorem not_mem_of_mem_split {separator : Char} {text piece : String} (h : piece ∈ split separator text) :
    separator ∉ piece.toList := by
  obtain ⟨chars, hchars, rfl⟩ := List.mem_map.1 h
  rw [String.toList_ofList]
  exact not_mem_of_mem_splitChars hchars

theorem length_split (separator : Char) (text : String) :
    (split separator text).length = text.toList.count separator + 1 := by
  rw [split, List.length_map, length_splitChars]

end Guardrails.Text
