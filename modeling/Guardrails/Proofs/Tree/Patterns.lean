import Guardrails.Proofs.Text.Pieces
import Guardrails.Syntax.Access

/-!
# Dotted patterns

A dotted pattern is compared with the segments of a path one by one, from the last one on. It so matches where its
text stands at the end of the path and begins where a segment begins, and never inside of a segment.
-/

namespace Guardrails

theorem Text.endsWith_iff {text ending : String} :
    endsWith text ending = true ↔ ∃ front, text = front ++ ending := by
  unfold endsWith
  rw [List.isSuffixOf_iff_suffix]
  constructor
  · rintro ⟨front, h⟩
    refine ⟨String.ofList front, String.toList_injective ?_⟩
    rw [String.toList_append, String.toList_ofList, h]
  · rintro ⟨front, rfl⟩
    rw [String.toList_append]
    exact List.suffix_append _ _

/-! ## Patterns and segments -/

theorem endsWithPath_iff {segments : List String} {pattern : String} :
    endsWithPath segments pattern = true ↔ Text.split '.' pattern <:+ segments := by
  unfold endsWithPath
  rw [Bool.and_eq_true, decide_eq_true_eq, beq_iff_eq, List.suffix_iff_eq_drop]
  constructor
  · rintro ⟨-, h⟩
    exact h.symm
  · intro h
    have hlength := congrArg List.length h
    rw [List.length_drop] at hlength
    exact ⟨by omega, h.symm⟩

theorem endsWithPath_intercalate_iff {segments wanted : List String} (hsome : wanted ≠ [])
    (h : ∀ x ∈ wanted, '.' ∉ x.toList) :
    endsWithPath segments (".".intercalate wanted) = true ↔ wanted <:+ segments := by
  rw [endsWithPath_iff, Text.split_intercalate rfl h hsome]

theorem endsWithPath_iff_endsWith {segments : List String} (h : ∀ x ∈ segments, '.' ∉ x.toList) (pattern : String) :
    endsWithPath segments pattern = true ↔
      segments ≠ [] ∧ Text.endsWith ("." ++ ".".intercalate segments) ("." ++ pattern) = true := by
  have hmark : ".".toList = ['.'] := rfl
  rw [endsWithPath_iff, Text.endsWith_iff]
  constructor
  · rintro ⟨front, rfl⟩
    refine ⟨by simp [Text.split_ne_nil], ?_⟩
    by_cases hfront : front = []
    · exact ⟨"", by simp [hfront, Text.intercalate_split hmark]⟩
    · refine ⟨"." ++ ".".intercalate front, ?_⟩
      rw [String.intercalate_append_of_ne_nil hfront (Text.split_ne_nil pattern), Text.intercalate_split hmark]
      simp [String.append_assoc]
  · rintro ⟨hsome, front, hspelled⟩
    -- Both sides are cut at their dots: what is in front of the pattern's own dot gives the segments in front.
    have hpieces : "" :: segments = Text.split '.' front ++ Text.split '.' pattern := by
      have hleft := Text.split_append hmark "" (".".intercalate segments)
      have hright := Text.split_append hmark front pattern
      rw [Text.split_intercalate hmark h hsome, String.empty_append] at hleft
      rw [← hright, String.append_assoc, ← hspelled, hleft]
      rfl
    have hfront : Text.split '.' front ≠ [] := Text.split_ne_nil front
    obtain ⟨first, others, hsplit⟩ := List.exists_cons_of_ne_nil hfront
    rw [hsplit, List.cons_append] at hpieces
    exact ⟨others, (List.cons.inj hpieces).2.symm⟩

/-! ## Callees -/

theorem dotted_iff {name : String} : '.' ∈ name.toList ↔ 2 ≤ (Text.split '.' name).length := by
  rw [Text.length_split, ← List.count_pos_iff]
  omega

theorem dotted_and_endsWithPath_iff {segments : List String} {name : String} :
    '.' ∈ name.toList ∧ endsWithPath segments name = true ↔
      ∃ wanted, 2 ≤ wanted.length ∧ (∀ x ∈ wanted, '.' ∉ x.toList) ∧ wanted <:+ segments ∧
        name = ".".intercalate wanted := by
  rw [dotted_iff, endsWithPath_iff]
  constructor
  · rintro ⟨hlength, hsuffix⟩
    exact ⟨_, hlength, fun x hx => Text.not_mem_of_mem_split hx, hsuffix, (Text.intercalate_split rfl name).symm⟩
  · rintro ⟨wanted, hlength, h, hsuffix, rfl⟩
    have hsome : wanted ≠ [] := List.ne_nil_of_length_pos (by omega)
    rw [Text.split_intercalate rfl h hsome]
    exact ⟨hlength, hsuffix⟩

theorem Node.calleeMatches_iff {s : Source} {callee : Node} {names : List String} :
    callee.calleeMatches s names = true ↔ ∃ name ∈ names, (callee.accessTail s).getLast? = some name ∨
      ∃ wanted, 2 ≤ wanted.length ∧ (∀ x ∈ wanted, '.' ∉ x.toList) ∧ wanted <:+ callee.accessTail s ∧
        name = ".".intercalate wanted := by
  simp only [← dotted_and_endsWithPath_iff]
  unfold calleeMatches
  cases hlast : (callee.accessTail s).getLast? with
  | none =>
    rw [List.getLast?_eq_none_iff.1 hlast]
    simp [endsWithPath_iff, Text.split_ne_nil]
  | some last =>
    simp only [hlast, List.any_eq_true]
    refine exists_congr fun name => and_congr_right fun _ => ?_
    rw [Bool.or_eq_true, Bool.and_eq_true, beq_iff_eq, List.contains_iff_mem, Option.some_inj, eq_comm]

/-- A pattern matches a path of segments without dots where it stands at the end of the path behind a dot, when the
path is written with a dot in front of each segment; so a pattern that is written from segments matches where these
are the last ones. A callee is accepted for a name that is its last one, or is written from some of its last ones. -/
theorem matches_at_segments {segments : List String} (h : ∀ x ∈ segments, '.' ∉ x.toList) :
    (∀ pattern, endsWithPath segments pattern = true ↔
      segments ≠ [] ∧ Text.endsWith ("." ++ ".".intercalate segments) ("." ++ pattern) = true) ∧
    (∀ wanted, wanted ≠ [] → (∀ x ∈ wanted, '.' ∉ x.toList) →
      (endsWithPath segments (".".intercalate wanted) = true ↔ wanted <:+ segments)) ∧
    ∀ (s : Source) (callee : Node) (names : List String),
      callee.calleeMatches s names = true ↔ ∃ name ∈ names, (callee.accessTail s).getLast? = some name ∨
        ∃ wanted, 2 ≤ wanted.length ∧ (∀ x ∈ wanted, '.' ∉ x.toList) ∧ wanted <:+ callee.accessTail s ∧
          name = ".".intercalate wanted :=
  ⟨endsWithPath_iff_endsWith h, fun _ hsome hwanted => endsWithPath_intercalate_iff hsome hwanted,
    fun _ _ _ => Node.calleeMatches_iff⟩

theorem matches_at_segments_pushState :
    (∀ x ∈ ["myhistory", "pushState"], '.' ∉ x.toList) ∧
      endsWithPath ["myhistory", "pushState"] "history.pushState" = false ∧
      endsWithPath ["myhistory", "pushState"] "pushState" = true := by
  have hdots : ∀ x ∈ ["myhistory", "pushState"], '.' ∉ x.toList := by decide
  obtain ⟨-, hwanted, -⟩ := matches_at_segments hdots
  have hpartial := hwanted ["history", "pushState"] (by decide) (by decide)
  have hwhole := hwanted ["pushState"] (by decide) (by decide)
  refine ⟨hdots, ?_, hwhole.2 (by decide)⟩
  rw [Bool.eq_false_iff]
  exact fun hmatches => absurd (hpartial.1 hmatches) (by decide)

end Guardrails
