import Guardrails.Proofs.Walk.Document

/-!
# Subscribers

The dispatch table of a walk lists each checker once under each kind that it asked for. So no place is handed to a
checker twice, and none that it asked for is kept from it, unless it failed or passed over what is there.
-/

namespace Guardrails.Walk

variable {cs : List Checker} {bound : Nat} {ctx : FileContext} {root : Node} {f : Focus} {i : Nat}

/-- Whether the checker with this number started, has not failed at an earlier place, and does not skip the place. -/
def IsWilling (w : Walk) (cs : List Checker) (ctx : FileContext) (number : Nat) (f : Focus) : Prop :=
  ∃ c, cs[number]? = some c ∧ (c.start ctx).isOk = true ∧ hasFailedBefore (w.callsOf number) f = false ∧
    isSkipped (w.callsOf number) f = false

theorem isDue_iff {w : Walk} :
    w.isDue cs ctx i f = true ↔
      i ∈ (Dispatch.ofCheckers cs).subscribers f.node.kind ∧ w.IsWilling cs ctx i f := by
  rw [Dispatch.subscribers_ofCheckers, Dispatch.mem_listing]
  unfold isDue IsWilling Checker.wants
  cases cs[i]? with
  | none => simp
  | some c => simp [and_assoc]

theorem mem_visits_run_iff : (f, i) ∈ (run cs bound ctx root).visits ↔
    f ∈ (Focus.root root).within bound ∧ i ∈ (Dispatch.ofCheckers cs).subscribers f.node.kind ∧
      (run cs bound ctx root).IsWilling cs ctx i f := by
  rw [visits_run, List.mem_flatMap, ← isDue_iff]
  constructor
  · rintro ⟨g, hg, hmem⟩
    obtain ⟨j, hj, heq⟩ := List.mem_map.1 hmem
    cases heq
    obtain ⟨hdepth, hdue⟩ := Bool.and_eq_true_iff.1 (List.mem_filter.1 hj).2
    exact ⟨List.mem_filter.2 ⟨hg, hdepth⟩, hdue⟩
  · rintro ⟨hf, hdue⟩
    obtain ⟨hf, hdepth⟩ := List.mem_filter.1 hf
    have hi : i < cs.length := by
      obtain ⟨c, hc, -⟩ := (Option.any_eq_true _ _).1 hdue
      exact (List.getElem?_eq_some_iff.1 hc).1
    refine ⟨f, hf, List.mem_map.2 ⟨i, List.mem_filter.2 ⟨List.mem_range.2 hi, ?_⟩, rfl⟩⟩
    exact Bool.and_eq_true_iff.2 ⟨hdepth, hdue⟩

theorem nodup_visits_run (cs : List Checker) (bound : Nat) (ctx : FileContext) (root : Node) :
    (run cs bound ctx root).visits.Nodup := by
  rw [visits_run, List.nodup_flatMap]
  constructor
  · intro f _
    exact (List.nodup_range.filter _).map fun i j h => (Prod.mk.inj h).2
  · refine (Focus.subtree_pairwise (Focus.root root)).imp fun {f g} hbefore => ?_
    intro visit hf hg
    obtain ⟨i, -, rfl⟩ := List.mem_map.1 hf
    obtain ⟨j, -, heq⟩ := List.mem_map.1 hg
    rw [(Prod.mk.inj heq).1, Focus.isBefore_irrefl] at hbefore
    cases hbefore

/-- The subscribers of a kind are the checkers that list it, in ascending order and so each of them once. In a walk
no place is handed to a checker twice, and it is handed to all subscribers of its kind that are willing. -/
theorem subscribers_exact (cs : List Checker) :
    (∀ kind, ((Dispatch.ofCheckers cs).subscribers kind).Pairwise (· < ·) ∧
      ∀ i, i ∈ (Dispatch.ofCheckers cs).subscribers kind ↔ ∃ c, cs[i]? = some c ∧ kind ∈ c.kinds) ∧
    ∀ (bound : Nat) (ctx : FileContext) (root : Node),
      (run cs bound ctx root).visits.Nodup ∧
        ∀ f i, (f, i) ∈ (run cs bound ctx root).visits ↔
          f ∈ (Focus.root root).within bound ∧ i ∈ (Dispatch.ofCheckers cs).subscribers f.node.kind ∧
            (run cs bound ctx root).IsWilling cs ctx i f := by
  constructor
  · intro kind
    rw [Dispatch.subscribers_ofCheckers]
    exact ⟨Dispatch.pairwise_listing kind 0 cs, fun _ => Dispatch.mem_listing⟩
  · intro bound ctx root
    exact ⟨nodup_visits_run cs bound ctx root, fun _ _ => mem_visits_run_iff⟩

end Guardrails.Walk
