import Guardrails.Proofs.Walk.Document

/-!
# A checker alone

The walk of one checker over a tree. When the checker looks at each node by itself, and goes on below every
one, it finds what there is to find at the places of its kinds in document order, up to the first place at
which it fails.
-/

namespace Guardrails

/-- What is found at a place; nothing where the search fails. -/
def foundAt (findings : FileContext → Focus → Except Failure (List Violation)) (ctx : FileContext)
    (f : Focus) : List Violation :=
  match findings ctx f with
  | .ok vs => vs
  | .error _ => []

namespace Walk

/-! ## One lane -/

section

variable {c : Checker} {ctx : FileContext} {f : Focus} {w : Walk}

theorem swept_singleton {lane : Lane} (step : LaneStep) (h : w.lanes = [lane]) :
    w.swept step = w.after [(step 0 w.violations.length lane).1]
      (step 0 w.violations.length lane).2.toList := by
  simp [swept, sweep, h]

theorem swept_eq_self {lane : Lane} {step : LaneStep} (h : w.lanes = [lane])
    (hstep : step 0 w.violations.length lane = (lane, none)) : w.swept step = w := by
  rw [swept_singleton step h, hstep, ← h]
  exact after_nil w

theorem started_singleton (ctx : FileContext) (c : Checker) :
    started ctx [c] = (idle [c]).after [(startLane ctx 0 0 c).1] [(startLane ctx 0 0 c).2] :=
  rfl

theorem visitStep_of_mem {state : c.State} (h : f.node.kind ∈ c.kinds) (i k : Nat) :
    visitStep ctx f i k ⟨c, some state, none⟩ =
      (settleLane f.depth ⟨c, some state, none⟩ (c.visit ctx state f k).result,
        some (visitCall ctx f i k c (c.visit ctx state f k))) := by
  unfold visitStep
  exact if_pos h

theorem visitStep_of_not_mem {lane : Lane} (h : f.node.kind ∉ lane.checker.kinds) (i k : Nat) :
    visitStep ctx f i k lane = (releaseLane f.depth lane, none) := by
  unfold visitStep
  exact if_neg h

theorem visitStep_of_failed (i k : Nat) :
    visitStep ctx f i k ⟨c, none, none⟩ = (⟨c, none, none⟩, none) := by
  unfold visitStep
  split_ifs <;> rfl

theorem visitAll_of_failed (fs : List Focus) (h : w.lanes = [⟨c, none, none⟩]) :
    w.visitAll ctx fs = w := by
  induction fs generalizing w with
  | nil => rfl
  | cons f fs ih =>
    rw [visitAll_cons, swept_eq_self h (visitStep_of_failed 0 _)]
    exact ih h

end

end Walk

/-! ## Checkers that look at each node by itself -/

/-- The places of some kinds in document order, up to the first one at which the search fails. -/
def Focus.lookedAt (kinds : List String)
    (findings : FileContext → Focus → Except Failure (List Violation)) (ctx : FileContext) (bound : Nat)
    (f : Focus) : List Focus :=
  ((f.within bound).filter (·.node.kind ∈ kinds)).takeWhile fun g => (findings ctx g).isOk

/-- Whether a checker reports what is found at each place it is handed, and nothing else. -/
structure Checker.Looks (c : Checker)
    (findings : FileContext → Focus → Except Failure (List Violation)) : Prop where
  start : ∀ ctx, ∃ state, c.start ctx = .ok state
  visit : ∀ ctx state f k, ∃ next, c.visit ctx state f k =
    ⟨foundAt findings ctx f, (findings ctx f).map fun _ => (next, .enter)⟩
  finish : ∀ ctx state k, (c.finish ctx state k).reports = []

theorem Checker.looks_ofFindings (name : String) (rules : List Rule) (kinds : List String)
    (findings : FileContext → Focus → Except Failure (List Violation)) :
    (ofFindings name rules kinds .enter findings).Looks findings where
  start _ := ⟨(), rfl⟩
  visit := by
    intro ctx state f k
    refine ⟨(), ?_⟩
    simp only [ofFindings, bind, Reporting.bind, foundAt]
    cases findings ctx f with
    | error e => rfl
    | ok vs => simp [Reply.ofExcept, Reply.report, Except.map, liftM, monadLift, MonadLift.monadLift, pure]
  finish _ _ _ := rfl

namespace Walk

section

variable {c : Checker} {findings : FileContext → Focus → Except Failure (List Violation)}
  {ctx : FileContext} {w : Walk} {state : c.State}

theorem visitAll_of_looks (hc : c.Looks findings) (fs : List Focus)
    (h : w.lanes = [⟨c, some state, none⟩]) :
    (w.visitAll ctx fs).violations = w.violations ++
      ((fs.filter (·.node.kind ∈ c.kinds)).takeWhile fun f => (findings ctx f).isOk).flatMap
        (foundAt findings ctx) ∧
    ∃ state?, (w.visitAll ctx fs).lanes = [⟨c, state?, none⟩] := by
  induction fs generalizing w state with
  | nil => exact ⟨by simp [visitAll_nil], some state, h⟩
  | cons f fs ih =>
    rw [visitAll_cons]
    by_cases hkind : f.node.kind ∈ c.kinds
    · obtain ⟨next, hvisit⟩ := hc.visit ctx state f w.violations.length
      rw [swept_singleton _ h, visitStep_of_mem hkind, hvisit, List.filter_cons_of_pos (by simpa using hkind)]
      cases hfound : findings ctx f with
      | error e =>
        simp only [Except.map, settleLane]
        rw [visitAll_of_failed (c := c) fs rfl]
        exact ⟨by simp [after, visitCall, foundAt, hfound, Except.isOk, Except.toBool], none, rfl⟩
      | ok vs =>
        simp only [Except.map, settleLane]
        obtain ⟨hviolations, hlanes⟩ := ih (lanes_after w [⟨c, some next, none⟩] _)
        rw [hviolations]
        exact ⟨by simp [after, visitCall, foundAt, hfound, Except.isOk, Except.toBool], hlanes⟩
    · rw [swept_eq_self h (visitStep_of_not_mem hkind 0 _), List.filter_cons_of_neg (by simpa using hkind)]
      exact ih h

theorem violations_of_looks (hc : c.Looks findings) (bound : Nat) (ctx : FileContext) (root : Node) :
    (FileAnalysis.ofWalk [c] bound ctx root).violations =
      ((Focus.root root).lookedAt c.kinds findings ctx bound).flatMap (foundAt findings ctx) := by
  obtain ⟨state, hstart⟩ := hc.start ctx
  have hlanes : (started ctx [c]).lanes = [⟨c, some state, none⟩] := by
    simp [started_singleton, startLane, hstart, Reply.ofExcept, Reply.value?]
  obtain ⟨hviolations, state?, hvisited⟩ :=
    visitAll_of_looks hc ((Focus.root root).within bound) hlanes
  have hfinish : ((finishLane? ctx 0 (visited [c] bound ctx root).violations.length
      ⟨c, state?, none⟩).toList.flatMap (·.reports)) = [] := by
    cases state? with
    | none => rfl
    | some last => simp [finishLane?, finishCall, hc.finish]
  have hlast : (visited [c] bound ctx root).lanes = [⟨c, state?, none⟩] := hvisited
  rw [FileAnalysis.ofWalk, run_eq, swept_singleton _ hlast]
  simp only [after, finishStep, hfinish, List.append_nil]
  exact hviolations

end

end Walk
end Guardrails
