import Mathlib.Data.List.Forall2
import Mathlib.Data.List.Lex
import Mathlib.Data.Prod.Lex
import Mathlib.Data.String.Basic
import Mathlib.Order.WithBot
import Guardrails.Proofs.Report.Sorting

/-!
# The canonical order of violations

Violations come in the order of their keys. Keys are ordered linearly, so that the keys of a sorted list are
known by which they are, whatever order the list was in before. Violations with one key stay in the order in
which they were.
-/

namespace Guardrails

/-! ## Keys -/

/-- The place of a component in the order of paths: root first, then `.`, then `..`, then the names. -/
def Path.Component.place : Path.Component → ℕ ×ₗ String
  | .root => toLex (0, "")
  | .current => toLex (1, "")
  | .parent => toLex (2, "")
  | .named name => toLex (3, name)

/-- The line, where a file as a whole comes before its lines. -/
def Location.place (l : Location) : WithBot ℕ :=
  match l.line? with
  | none => ⊥
  | some line => .some line

/-- File, rule, line, column and message. -/
abbrev Violation.Key : Type := List (ℕ ×ₗ String) ×ₗ ℕ ×ₗ WithBot ℕ ×ₗ ℕ ×ₗ String

def Violation.key (v : Violation) : Violation.Key :=
  toLex (v.location.file.components.map Path.Component.place, toLex (v.rule.number,
    toLex (v.location.place, toLex (v.location.column, v.message))))

/-! ## Comparing keys -/

namespace Path

theorem Component.place_eq (c : Component) : c.place = toLex (c.rank, c.name) := by
  cases c <;> rfl

theorem Component.place_injective : Function.Injective place := by
  intro a b h
  cases a <;> cases b <;> simp_all [place]

theorem Component.compare_eq_lt {a b : Component} : compare a b = .lt ↔ a.place < b.place := by
  rw [place_eq, place_eq, Prod.Lex.toLex_lt_toLex, ← compare_lt_iff_lt (a := a.rank),
    ← compare_lt_iff_lt (a := a.name), ← compare_eq_iff_eq (a := a.rank)]
  exact Ordering.then_eq_lt

theorem compare_components_eq_lt {as bs : List Component} :
    compare as bs = .lt ↔ as.map Component.place < bs.map Component.place := by
  induction as generalizing bs with
  | nil => cases bs <;> simp
  | cons a as ih =>
    cases bs with
    | nil => simp
    | cons b bs =>
      rw [List.compare_cons_cons, Ordering.then_eq_lt, ih, Component.compare_eq_lt,
        Std.LawfulEqOrd.compare_eq_iff_eq, List.map_cons, List.map_cons, List.cons_lt_cons_iff,
        Component.place_injective.eq_iff]

theorem compare_eq_lt {p q : Path} :
    compare p q = .lt ↔ p.components.map Component.place < q.components.map Component.place :=
  compare_components_eq_lt

theorem map_place_inj {p q : Path} :
    p.components.map Component.place = q.components.map Component.place ↔ compare p q = .eq := by
  rw [Component.place_injective.list_map.eq_iff, compare_eq_iff, beq_iff]

end Path

namespace Location

variable {l m : Location}

theorem compare_line?_eq_lt : compare l.line? m.line? = .lt ↔ l.place < m.place := by
  unfold place
  cases l.line? with
  | none =>
    cases m.line? with
    | none => exact iff_of_false (by decide) (lt_irrefl _)
    | some line => exact iff_of_true rfl (WithBot.bot_lt_coe line)
  | some line =>
    cases m.line? with
    | none => exact iff_of_false (by exact Ordering.noConfusion) not_lt_bot
    | some line' => exact Nat.compare_eq_lt.trans WithBot.coe_lt_coe.symm

theorem place_inj : l.place = m.place ↔ l.line? = m.line? := by
  unfold place
  cases l.line? <;> cases m.line? <;> simp

end Location

namespace Violation

variable {v w : Violation}

theorem order_eq_lt : v.order w = .lt ↔ v.key < w.key := by
  simp only [order, key, Ordering.then_eq_lt, Prod.Lex.toLex_lt_toLex, Path.compare_eq_lt, Path.map_place_inj,
    Location.compare_line?_eq_lt, Location.place_inj, Std.LawfulEqOrd.compare_eq_iff_eq, compare_lt_iff_lt]

theorem order_eq_eq : v.order w = .eq ↔ v.key = w.key := by
  simp only [order, key, Ordering.then_eq_eq, toLex_inj, Prod.mk.injEq, Path.map_place_inj,
    Location.place_inj, Std.LawfulEqOrd.compare_eq_iff_eq]

theorem isLE_order : (v.order w).isLE = true ↔ v.key ≤ w.key := by
  rw [Ordering.isLE_iff_eq_lt_or_eq_eq, order_eq_lt, order_eq_eq, le_iff_lt_or_eq]

end Violation

/-! ## Sorting -/

namespace Report

theorem pairwise_sortViolations (vs : List Violation) :
    (sortViolations vs).Pairwise fun v w => v.key ≤ w.key :=
  ((isRanking_of_transCmp Violation.order).pairwise_mergeSort vs).imp Violation.isLE_order.1

theorem sortViolations_of_pairwise {vs : List Violation} (h : vs.Pairwise fun v w => v.key ≤ w.key) :
    sortViolations vs = vs :=
  List.mergeSort_of_pairwise (h.imp Violation.isLE_order.2)

theorem filter_key_sortViolations (vs : List Violation) (k : Violation.Key) :
    (sortViolations vs).filter (·.key = k) = vs.filter (·.key = k) := by
  refine (isRanking_of_transCmp Violation.order).filter_mergeSort_of_forall fun v w hv hw => ?_
  exact Violation.isLE_order.2 ((of_decide_eq_true hv).trans (of_decide_eq_true hw).symm).le

section

variable {vs ws : List Violation}

theorem map_key_sortViolations (h : ws.Perm vs) :
    (sortViolations ws).map Violation.key = (sortViolations vs).map Violation.key := by
  have hkeys : ((sortViolations ws).map Violation.key).Perm ((sortViolations vs).map Violation.key) :=
    ((List.mergeSort_perm ws _).trans (h.trans (List.mergeSort_perm vs _).symm)).map _
  have hsorted : ∀ us, ((sortViolations us).map Violation.key).Pairwise (· ≤ ·) := fun us =>
    List.pairwise_map.2 (pairwise_sortViolations us)
  exact hkeys.eq_of_pairwise (fun _ _ _ _ => le_antisymm) (hsorted ws) (hsorted vs)

/-- Where violations with one key are the same in some respect, so are the lists that any two orders are
sorted into. -/
theorem forall₂_sortViolations (h : ws.Perm vs) {same : Violation → Violation → Prop}
    (hsame : ∀ v ∈ vs, ∀ w ∈ vs, v.key = w.key → same v w) :
    List.Forall₂ same (sortViolations ws) (sortViolations vs) := by
  have hkeys := map_key_sortViolations h
  rw [← List.forall₂_eq_eq_eq, List.forall₂_map_left_iff, List.forall₂_map_right_iff,
    List.forall₂_iff_zip] at hkeys
  refine List.forall₂_iff_zip.2 ⟨hkeys.1, fun {v w} hvw => ?_⟩
  obtain ⟨hv, hw⟩ := List.of_mem_zip hvw
  exact hsame v (h.subset (List.mem_mergeSort.1 hv)) w (List.mem_mergeSort.1 hw) (hkeys.2 hvw)

/-- Sorting gives the same violations in ascending order of their keys, and those with one key in the order in
which they were. To sort twice is to sort once. Two orders of the same violations are sorted into lists with the
same keys, which are equal when no two violations that differ have one key; this holds in whatever respect
violations are told apart, such as with paths compared by their components. -/
theorem sortViolations_isCanonical (h : ws.Perm vs) :
    (sortViolations vs).Perm vs ∧
      ((sortViolations vs).Pairwise fun v w => v.key ≤ w.key) ∧
      (∀ k, (sortViolations vs).filter (·.key = k) = vs.filter (·.key = k)) ∧
      sortViolations (sortViolations vs) = sortViolations vs ∧
      (sortViolations ws).map Violation.key = (sortViolations vs).map Violation.key ∧
      ((∀ v ∈ vs, ∀ w ∈ vs, v.key = w.key → v = w) → sortViolations ws = sortViolations vs) ∧
      ∀ same : Violation → Violation → Prop, (∀ v ∈ vs, ∀ w ∈ vs, v.key = w.key → same v w) →
        List.Forall₂ same (sortViolations ws) (sortViolations vs) := by
  refine ⟨List.mergeSort_perm vs _, pairwise_sortViolations vs, filter_key_sortViolations vs,
    sortViolations_of_pairwise (pairwise_sortViolations vs), map_key_sortViolations h, ?_, ?_⟩
  · intro hequal
    exact List.forall₂_eq_eq_eq.le _ _ (forall₂_sortViolations h hequal)
  · intro same hsame
    exact forall₂_sortViolations h hsame

/-- Two calls that begin at one place, in a file that is spelled in two ways, and a finding about the whole
file. -/
theorem sortViolations_nestedCalls :
    let outer : Violation := .ofRule .apiClient ⟨⟨"static//a.js"⟩, some 2, 1, 10, 30⟩ "network call"
    let inner : Violation := .ofRule .apiClient ⟨⟨"static/a.js"⟩, some 2, 1, 10, 20⟩ "network call"
    let whole : Violation := .ofRule .apiClient (.ofFile ⟨"static/a.js"⟩) "no client"
    [inner, whole, outer].Perm [outer, whole, inner] ∧ outer.key = inner.key ∧
      (sortViolations [outer, whole, inner]).filter (·.key = outer.key) = [outer, inner] ∧
      (sortViolations [inner, whole, outer]).map Violation.key =
        (sortViolations [outer, whole, inner]).map Violation.key ∧
      [whole, outer].Perm [outer, whole] ∧
      sortViolations [whole, outer] = sortViolations [outer, whole] := by
  intro outer inner whole
  have hperm : [inner, whole, outer].Perm [outer, whole, inner] :=
    List.reverse_perm [outer, whole, inner]
  have hsame : outer.key = inner.key := by decide +kernel
  have hother : whole.key ≠ outer.key := by decide +kernel
  have hinner : whole.key ≠ inner.key := hsame ▸ hother
  obtain ⟨-, -, hfilter, -, hkeys, -, -⟩ := sortViolations_isCanonical hperm
  have hswap : [whole, outer].Perm [outer, whole] := .swap outer whole []
  obtain ⟨-, -, -, -, -, hequal, -⟩ := sortViolations_isCanonical hswap
  refine ⟨hperm, hsame, ?_, hkeys, hswap, hequal ?_⟩
  · rw [hfilter]
    simp [hsame, hinner]
  · intro v hv w hw hkey
    simp only [List.mem_cons, List.not_mem_nil, or_false] at hv hw
    rcases hv with rfl | rfl <;> rcases hw with rfl | rfl
    · rfl
    · exact absurd hkey.symm hother
    · exact absurd hkey hother
    · rfl

end

end Report
end Guardrails
