import Mathlib.Data.List.Basic
import Mathlib.Tactic.SplitIfs
import Guardrails.Proofs.Path.Joining
import Guardrails.Report.Text
import Guardrails.Source

/-!
# Texts of one line

Texts without a line break. What is put together from such texts is one line again, and lines that are written
one below the other are found again where the line breaks are.
-/

namespace Guardrails

/-- Whether a text has no line break in it. -/
def IsOneLine (text : String) : Prop :=
  '\n' ∉ text.toList

instance (text : String) : Decidable (IsOneLine text) :=
  inferInstanceAs (Decidable ('\n' ∉ text.toList))

@[simp] theorem isOneLine_append {a b : String} : IsOneLine (a ++ b) ↔ IsOneLine a ∧ IsOneLine b := by
  simp [IsOneLine]

theorem not_mem_toList_toString {c : Char} (hc : c.isDigit = false) (n : Nat) : c ∉ (toString n).toList := by
  rw [Nat.toString_eq_ofList_toDigits, String.toList_ofList]
  intro hmem
  rw [Nat.isDigit_of_mem_toDigits (by decide) (by decide) hmem] at hc
  cases hc

theorem toList_toString_inj {a b : Nat} : (toString a).toList = (toString b).toList ↔ a = b := by
  refine ⟨fun h => ?_, fun h => h ▸ rfl⟩
  rw [Nat.toString_eq_ofList_toDigits, Nat.toString_eq_ofList_toDigits, String.toList_ofList, String.toList_ofList] at h
  rw [← Nat.ofDigitChars_ten_toDigits (n := a), h, Nat.ofDigitChars_ten_toDigits]

@[simp] theorem isOneLine_toString (n : Nat) : IsOneLine (toString n) :=
  not_mem_toList_toString rfl n

@[simp] theorem isOneLine_toString_string (text : String) : IsOneLine (toString text) ↔ IsOneLine text :=
  .rfl

theorem IsOneLine.between {before text after : String} (hbefore : IsOneLine before) (h : IsOneLine text)
    (hafter : IsOneLine after) : IsOneLine (before ++ text ++ after) :=
  isOneLine_append.2 ⟨isOneLine_append.2 ⟨hbefore, h⟩, hafter⟩

theorem mem_intersperse {α : Type _} {separator a : α} {l : List α} (h : a ∈ l.intersperse separator) :
    a = separator ∨ a ∈ l := by
  induction l with
  | nil => cases h
  | cons b l ih =>
    cases l with
    | nil => exact .inr h
    | cons c l =>
      rw [List.intersperse_cons_cons, List.mem_cons, List.mem_cons] at h
      rcases h with rfl | rfl | h
      · exact .inr List.mem_cons_self
      · exact .inl rfl
      · exact (ih h).imp_right (List.mem_cons_of_mem b)

theorem isOneLine_intercalate {separator : String} {texts : List String} (hseparator : IsOneLine separator)
    (h : ∀ t ∈ texts, IsOneLine t) : IsOneLine (separator.intercalate texts) := by
  intro hmem
  rw [String.toList_intercalate, List.intercalate, List.mem_flatten] at hmem
  obtain ⟨piece, hpiece, hmem⟩ := hmem
  rcases mem_intersperse hpiece with rfl | hpiece
  · exact hseparator hmem
  · obtain ⟨t, ht, rfl⟩ := List.mem_map.1 hpiece
    exact h t ht hmem

theorem IsOneLine.of_mem_split {separator : Char} {text piece : String} (h : IsOneLine text)
    (hpiece : piece ∈ Text.split separator text) : IsOneLine piece := by
  obtain ⟨chars, hchars, rfl⟩ := List.mem_map.1 hpiece
  rw [IsOneLine, String.toList_ofList]
  exact fun hmem => h (Text.subset_of_mem_splitChars hchars hmem)

/-! ## Lines one below the other -/

theorem segments_unlines (lines : List String) :
    Text.splitChars '\n' (Report.unlines lines).toList =
      (lines.flatMap fun l => Text.splitChars '\n' l.toList) ++ [[]] := by
  induction lines with
  | nil => rfl
  | cons line lines ih =>
    have hunlines : (Report.unlines (line :: lines)).toList = line.toList ++ '\n' :: (Report.unlines lines).toList := by
      simp [Report.unlines, String.toList_join]
    rw [hunlines, Text.splitChars_append, ih, List.flatMap_cons, List.append_assoc]

/-- Texts that are written one below the other have one line each, and one more for each line break in them. -/
theorem lineCount_unlines (lines : List String) :
    (Source.mk (Report.unlines lines)).lineCount = lines.length + (lines.flatMap String.toList).count '\n' := by
  have hlast : ∀ pieces : List (List Char), (Source.linesOf (pieces ++ [[]])).length = pieces.length := by
    intro pieces
    induction pieces with
    | nil => rfl
    | cons piece pieces ih =>
      rw [List.cons_append, Source.linesOf.eq_3 _ _ (by simp), List.length_cons, ih, List.length_cons]
  rw [Source.lineCount, Source.segments, segments_unlines, hlast]
  induction lines with
  | nil => rfl
  | cons line lines ih =>
    rw [List.flatMap_cons, List.length_append, ih, Text.length_splitChars, List.flatMap_cons, List.count_append,
      List.length_cons]
    omega

theorem lineCount_unlines_eq_length {lines : List String} :
    (Source.mk (Report.unlines lines)).lineCount = lines.length ↔ ∀ l ∈ lines, IsOneLine l := by
  have hnone : (lines.flatMap String.toList).count '\n' = 0 ↔ ∀ l ∈ lines, IsOneLine l := by
    simp [IsOneLine, List.count_eq_zero]
  rw [lineCount_unlines, ← hnone]
  omega

theorem split_unlines {lines : List String} (h : ∀ l ∈ lines, IsOneLine l) :
    Text.split '\n' (Report.unlines lines) = lines ++ [""] := by
  have hself : (lines.flatMap fun l => Text.splitChars '\n' l.toList) = lines.map String.toList := by
    rw [List.flatMap_congr fun l hl => Text.splitChars_of_not_mem (h l hl), List.map_eq_flatMap]
  rw [Text.split, segments_unlines, hself, List.map_append, List.map_map]
  simp

end Guardrails
