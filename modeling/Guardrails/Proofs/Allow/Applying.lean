import Mathlib.Data.List.Sort
import Mathlib.Tactic.SplitIfs
import Guardrails.Proofs.Allow.Deciding

/-!
# Applying directives

What the directives of a file leave of its violations: those that no directive allows, as they were, and a
warning for each directive without a reason that hides an error of some rule.
-/

namespace Guardrails.Allowances

/-! ## Directives without a reason, in order -/

namespace Unexplained

theorem isBefore_iff {u v : Unexplained} :
    u.isBefore v = true ↔ u.line < v.line ∨ u.line = v.line ∧ u.rule.number < v.rule.number := by
  simp [isBefore]

theorem isBefore_irrefl (u : Unexplained) : ¬ u.isBefore u = true := by
  rw [isBefore_iff]
  omega

theorem isBefore_trans {u v w : Unexplained} (huv : u.isBefore v = true) (hvw : v.isBefore w = true) :
    u.isBefore w = true := by
  rw [isBefore_iff] at *
  omega

theorem isBefore_or {u v : Unexplained} (h : u ≠ v) : u.isBefore v = true ∨ v.isBefore u = true := by
  obtain ⟨line, rule⟩ := u
  obtain ⟨line', rule'⟩ := v
  have hrule : rule.number = rule'.number → rule = rule' := Rule.number_injective
  rw [isBefore_iff, isBefore_iff]
  by_cases hsame : rule = rule'
  · have hline : line ≠ line' := fun hline => h (by rw [hline, hsame])
    simp only
    omega
  · have hnumber : rule.number ≠ rule'.number := fun heq => hsame (hrule heq)
    simp only
    omega

theorem eq_of_mem_iff {us vs : List Unexplained} (hus : us.Pairwise fun u v => u.isBefore v = true)
    (hvs : vs.Pairwise fun u v => u.isBefore v = true) (h : ∀ u, u ∈ us ↔ u ∈ vs) : us = vs := by
  have hirrefl : Std.Irrefl fun u v : Unexplained => u.isBefore v = true := ⟨isBefore_irrefl⟩
  have hantisymm : Std.Antisymm fun u v : Unexplained => u.isBefore v = true :=
    ⟨fun u v huv hvu => absurd (isBefore_trans huv hvu) (isBefore_irrefl u)⟩
  exact hus.eq_of_mem_iff hvs h

theorem mem_insert {u w : Unexplained} {us : List Unexplained} : w ∈ u.insert us ↔ w = u ∨ w ∈ us := by
  induction us with
  | nil => simp [insert]
  | cons v vs ih =>
    rw [insert]
    split_ifs with hbefore hsame
    · rw [List.mem_cons]
    · rw [hsame, List.mem_cons]
      exact (or_iff_right_of_imp .inl).symm
    · rw [List.mem_cons, ih, List.mem_cons]
      exact or_left_comm

theorem pairwise_insert {us : List Unexplained} (u : Unexplained)
    (h : us.Pairwise fun u v => u.isBefore v = true) :
    (u.insert us).Pairwise fun u v => u.isBefore v = true := by
  induction us with
  | nil => exact List.pairwise_singleton _ u
  | cons v vs ih =>
    obtain ⟨hv, hvs⟩ := List.pairwise_cons.1 h
    rw [insert]
    split_ifs with hbefore hsame
    · refine List.pairwise_cons.2 ⟨?_, h⟩
      intro w hw
      rcases List.mem_cons.1 hw with rfl | hw
      · exact hbefore
      · exact isBefore_trans hbefore (hv w hw)
    · exact h
    · refine List.pairwise_cons.2 ⟨?_, ih hvs⟩
      intro w hw
      rcases mem_insert.1 hw with rfl | hw
      · exact (isBefore_or hsame).resolve_left hbefore
      · exact hv w hw

theorem mem_foldl_insert {w : Unexplained} {us vs : List Unexplained} :
    w ∈ us.foldl (fun vs u => u.insert vs) vs ↔ w ∈ us ∨ w ∈ vs := by
  induction us generalizing vs with
  | nil => simp
  | cons u us ih =>
    rw [List.foldl_cons, ih, mem_insert, List.mem_cons]
    exact or_left_comm.trans (or_assoc).symm

theorem pairwise_foldl_insert {us vs : List Unexplained}
    (h : vs.Pairwise fun u v => u.isBefore v = true) :
    (us.foldl (fun vs u => u.insert vs) vs).Pairwise fun u v => u.isBefore v = true := by
  induction us generalizing vs with
  | nil => exact h
  | cons u us ih => exact ih (pairwise_insert u h)

end Unexplained

/-! ## What is left -/

/-- The directives without a reason that hide an error among the violations, in order. -/
def unexplained (a : Allowances) (vs : List Violation) : List Unexplained :=
  (vs.filterMap a.unexplained?).foldl (fun us u => u.insert us) []

theorem apply_eq (a : Allowances) (ctx : FileContext) (vs : List Violation) :
    a.apply ctx vs = vs.filter (fun v => (a.decisionOn? v).isNone) ++
      (a.unexplained vs).map (Unexplained.violation ctx) := rfl

theorem pairwise_unexplained (a : Allowances) (vs : List Violation) :
    (a.unexplained vs).Pairwise fun u v => u.isBefore v = true :=
  Unexplained.pairwise_foldl_insert .nil

theorem mem_unexplained {a : Allowances} {vs : List Violation} {u : Unexplained} :
    u ∈ a.unexplained vs ↔ ∃ v ∈ vs, a.unexplained? v = some u := by
  rw [unexplained, Unexplained.mem_foldl_insert, List.mem_filterMap]
  simp

theorem unexplained?_eq_some_iff {a : Allowances} {v : Violation} {u : Unexplained} :
    a.unexplained? v = some u ↔ ∃ d, a.decisionOn? v = some d ∧ v.severity = .error ∧
      d.reason? = none ∧ d.line = u.line ∧ v.rule = u.rule := by
  unfold unexplained?
  cases hdecision : a.decisionOn? v with
  | none => simp
  | some d =>
    obtain ⟨line, rule⟩ := u
    simp only [Option.some.injEq, exists_eq_left', Option.ite_none_right_eq_some, Bool.and_eq_true,
      beq_iff_eq, Option.isNone_iff_eq_none, Unexplained.mk.injEq, and_assoc]

/-- What the directives of a file leave are the violations that none of them allows, and behind these one
warning for each line and rule where a directive without a reason hides an error. -/
theorem apply_ofSource (s : Source) (ctx : FileContext) (vs : List Violation) :
    ∃ us : List Unexplained,
      (ofSource s).apply ctx vs =
        vs.filter (fun v => !s.allows v.rule v.location.line?) ++ us.map (Unexplained.violation ctx) ∧
      (us.Pairwise fun u v => u.isBefore v = true) ∧
      (∀ u, u ∈ us ↔ ∃ v ∈ vs, ∃ d, s.Decides v.rule v.location.line? u.line d ∧ v.rule = u.rule ∧
        v.severity = .error ∧ d.reason? = none) ∧
      ∀ u ∈ us, (u.violation ctx).rule = u.rule ∧ (u.violation ctx).severity = .warning ∧
        (u.violation ctx).location.line? = some u.line := by
  refine ⟨(ofSource s).unexplained vs, ?_, pairwise_unexplained _ vs, ?_, ?_⟩
  · rw [apply_eq]
    congr 1
    refine List.filter_congr fun v _ => ?_
    rw [← isSome_allowing?, ← decisionOn?, Option.not_isSome]
  · intro u
    rw [mem_unexplained]
    refine exists_congr fun v => and_congr_right fun _ => ?_
    rw [unexplained?_eq_some_iff]
    refine exists_congr fun d => ?_
    constructor
    · rintro ⟨hdecision, herror, hreason, hline, hrule⟩
      exact ⟨hline ▸ decides_of_allowing? hdecision, hrule, herror, hreason⟩
    · rintro ⟨hdecides, hrule, herror, hreason⟩
      obtain ⟨hdecision, hline⟩ := allowing?_of_decides hdecides
      exact ⟨hdecision, herror, hreason, hline, hrule⟩
  · intro u _
    exact ⟨rfl, rfl, rfl⟩

/-! ## Some of the rules -/

section

variable (p : Rule → Bool) (a : Allowances) (ctx : FileContext) (vs : List Violation)

theorem filter_unexplained : (a.unexplained vs).filter (fun u => p u.rule) =
    a.unexplained (vs.filter fun v => p v.rule) := by
  refine Unexplained.eq_of_mem_iff ((pairwise_unexplained a vs).filter _) (pairwise_unexplained a _) ?_
  intro u
  have hrule : ∀ v, a.unexplained? v = some u → v.rule = u.rule := fun v hv => by
    obtain ⟨d, -, -, -, -, hrule⟩ := unexplained?_eq_some_iff.1 hv
    exact hrule
  rw [List.mem_filter, mem_unexplained, mem_unexplained]
  constructor
  · rintro ⟨⟨v, hv, hu⟩, hp⟩
    exact ⟨v, List.mem_filter.2 ⟨hv, by rw [hrule v hu]; exact hp⟩, hu⟩
  · rintro ⟨v, hv, hu⟩
    obtain ⟨hv, hp⟩ := List.mem_filter.1 hv
    exact ⟨⟨v, hv, hu⟩, by rw [← hrule v hu]; exact hp⟩

/-- What the directives leave of some rules does not hang on the other rules. -/
theorem filter_apply : (a.apply ctx vs).filter (fun v => p v.rule) =
    a.apply ctx (vs.filter fun v => p v.rule) := by
  rw [apply_eq, apply_eq, List.filter_append, List.filter_map, ← filter_unexplained]
  congr 1
  rw [List.filter_filter, List.filter_filter]
  refine List.filter_congr fun v _ => Bool.and_comm _ _

end

end Guardrails.Allowances
