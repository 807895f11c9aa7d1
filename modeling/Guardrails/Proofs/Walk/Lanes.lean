import Guardrails.Proofs.Tree.Tour
import Guardrails.Proofs.Walk.Calls
import Guardrails.Proofs.Walk.Phases

/-!
# Lanes on the way

What a lane holds is what the calls to its checker have come to. On the way from one place to the next, a
lane skips from some depth on exactly when its checker asked for it at a place around.
-/

namespace Guardrails.Lane

open Walk

/-- Whether a lane is where the calls to its checker have brought it. -/
structure IsAfter (ctx : FileContext) (lane : Lane) (calls : List Call) : Prop where
  state : lane.state? = lane.checker.stateAfter ctx calls
  alive : lane.state?.isSome = ((lane.checker.start ctx).isOk && !calls.any (·.failedAt?.isSome))
  answers : lane.checker.Answers ctx calls

/-- A lane before its checker may be handed the place `f`. -/
structure ComesTo (ctx : FileContext) (f : Focus) (lane : Lane) (calls : List Call) : Prop
    extends IsAfter ctx lane calls where
  before : ∀ call ∈ calls, ∀ g, call.focus? = some g → g.isBefore f = true
  skip : ∀ depth, (releaseLane f.depth lane).skipFrom? = some depth ↔
    ∃ call ∈ calls, ∃ g, call.skippedAt? = some g ∧ g.isAbove f = true ∧ g.depth = depth

/-- A lane after its checker may have been handed the place `f`. -/
structure HasPassed (ctx : FileContext) (f : Focus) (lane : Lane) (calls : List Call) : Prop
    extends IsAfter ctx lane calls where
  before : ∀ call ∈ calls, ∀ g, call.focus? = some g → g.isBefore f = true ∨ g = f
  skip : ∀ depth, lane.skipFrom? = some depth ↔
    ∃ call ∈ calls, ∃ g, call.skippedAt? = some g ∧ g.steps <+: f.steps ∧ g.depth = depth

/-! ## Starting -/

theorem isAfter_start (ctx : FileContext) (i k : Nat) (lane : Lane) :
    IsAfter ctx (startStep ctx i k lane).1 (startStep ctx i k lane).2.toList where
  state := rfl
  alive := by
    simp only [startStep, startLane, Reply.ofExcept, Reply.value?]
    cases lane.checker.start ctx <;> rfl
  answers := ⟨rfl, trivial⟩

theorem comesTo_start (ctx : FileContext) (f : Focus) (i k : Nat) (lane : Lane) :
    ComesTo ctx f (startStep ctx i k lane).1 (startStep ctx i k lane).2.toList where
  toIsAfter := isAfter_start ctx i k lane
  before := by
    intro call hcall g hg
    obtain rfl := List.mem_singleton.1 hcall
    cases hg
  skip := by
    intro depth
    simp [startStep, startLane, startCall, releaseLane, Call.skippedAt?]

/-! ## From one place to the next -/

theorem skipFrom?_releaseLane (depth d : Nat) (lane : Lane) :
    (releaseLane depth lane).skipFrom? = some d ↔ lane.skipFrom? = some d ∧ d < depth := by
  unfold releaseLane
  split
  · rename_i skipped hskipped
    split_ifs with hdepth
    · simp only [hskipped, Option.some.injEq, false_iff]
      omega
    · rw [hskipped, Option.some.injEq]
      omega
  · rename_i hnone
    simp [hnone]

theorem isAbove_iff_of_leadsTo {f g x : Focus} (h : f.LeadsTo g) :
    x.isAbove g = true ↔ x.steps <+: f.steps ∧ x.depth < g.depth := by
  have hlength : g.steps.dropLast.length = g.depth - 1 := by simp
  rw [Focus.isAbove_iff]
  constructor
  · rintro ⟨hdepth, hx⟩
    refine ⟨?_, hdepth⟩
    have hdrop : x.steps <+: g.steps.dropLast := by
      rw [List.dropLast_eq_take]
      exact List.prefix_take_iff.2 ⟨hx, by simp only [Focus.length_steps]; omega⟩
    exact hdrop.trans h
  · rintro ⟨hx, hdepth⟩
    have hdrop : x.steps <+: g.steps.dropLast :=
      List.prefix_of_prefix_length_le hx h (by rw [Focus.length_steps, hlength]; omega)
    exact ⟨hdepth, hdrop.trans (List.dropLast_prefix _)⟩

theorem HasPassed.comesTo {ctx : FileContext} {f g : Focus} {lane : Lane} {calls : List Call}
    (h : HasPassed ctx f lane calls) (hleads : f.LeadsTo g) (hbefore : f.isBefore g = true) :
    ComesTo ctx g lane calls where
  toIsAfter := h.toIsAfter
  before := by
    intro call hcall x hx
    rcases h.before call hcall x hx with hx | rfl
    · exact Focus.isBefore_trans hx hbefore
    · exact hbefore
  skip := by
    intro depth
    rw [skipFrom?_releaseLane, h.skip]
    constructor
    · rintro ⟨⟨call, hcall, x, hx, hsteps, rfl⟩, hdepth⟩
      exact ⟨call, hcall, x, hx, (isAbove_iff_of_leadsTo hleads).2 ⟨hsteps, hdepth⟩, rfl⟩
    · rintro ⟨call, hcall, x, hx, habove, rfl⟩
      obtain ⟨hsteps, hdepth⟩ := (isAbove_iff_of_leadsTo hleads).1 habove
      exact ⟨⟨call, hcall, x, hx, hsteps, rfl⟩, hdepth⟩

/-! ## Visiting -/

section

variable {ctx : FileContext} {f : Focus} {lane : Lane} {calls : List Call}

theorem ComesTo.hasFailedBefore_eq (h : ComesTo ctx f lane calls) :
    hasFailedBefore calls f = calls.any (·.failedAt?.isSome) := by
  unfold hasFailedBefore
  rw [Bool.eq_iff_iff, List.any_eq_true, List.any_eq_true]
  refine exists_congr fun call => and_congr_right fun hcall => ?_
  cases hfailed : call.failedAt? with
  | none => rfl
  | some g =>
    have := h.before call hcall g (Call.focus?_of_failedAt? hfailed)
    simpa using this

theorem ComesTo.isSkipped_eq (h : ComesTo ctx f lane calls) :
    isSkipped calls f = (releaseLane f.depth lane).skipFrom?.isSome := by
  unfold isSkipped
  rw [Bool.eq_iff_iff, List.any_eq_true, Option.isSome_iff_exists]
  constructor
  · rintro ⟨call, hcall, hany⟩
    obtain ⟨g, hg, habove⟩ := (Option.any_eq_true _ _).1 hany
    exact ⟨g.depth, (h.skip _).2 ⟨call, hcall, g, hg, habove, rfl⟩⟩
  · rintro ⟨depth, hdepth⟩
    obtain ⟨call, hcall, g, hg, habove, -⟩ := (h.skip _).1 hdepth
    exact ⟨call, hcall, (Option.any_eq_true _ _).2 ⟨g, hg, habove⟩⟩

/-- A checker is called at a place exactly when its record says so. -/
theorem ComesTo.wants_eq (h : ComesTo ctx f lane calls) (i k : Nat) :
    (visitStep ctx f i k lane).2.isSome = lane.checker.wants ctx calls f := by
  rw [Checker.wants, h.hasFailedBefore_eq, h.isSkipped_eq, Bool.and_assoc (lane.checker.kinds.contains _),
    ← h.alive]
  obtain ⟨skipFrom?, hrelease⟩ := exists_releaseLane f.depth lane
  unfold visitStep visitLane?
  rw [hrelease]
  by_cases hkind : f.node.kind ∈ lane.checker.kinds
  · rw [if_pos hkind, List.contains_iff_mem.2 hkind]
    cases skipFrom? <;> cases lane.state? <;> rfl
  · rw [if_neg hkind, Bool.eq_false_iff.2 fun hcontains => hkind (List.contains_iff_mem.1 hcontains)]
    rfl

theorem failedAt?_visitCall (i k : Nat) (c : Checker) (reply : Reply (c.State × Visit)) :
    (visitCall ctx f i k c reply).failedAt? = if reply.failure?.isSome then some f else none := by
  simp only [Call.failedAt?, visitCall, Option.isSome_map]
  rfl

theorem skippedAt?_visitCall (i k : Nat) (c : Checker) (reply : Reply (c.State × Visit)) :
    (visitCall ctx f i k c reply).skippedAt? =
      if reply.value?.map (·.2) = some .skipChildren then some f else none := rfl

theorem IsAfter.visit {state : lane.checker.State} (h : IsAfter ctx lane calls)
    (hstate : lane.state? = some state) (i k depth : Nat) :
    IsAfter ctx (settleLane depth lane (lane.checker.visit ctx state f k).result)
      (visitCall ctx f i k lane.checker (lane.checker.visit ctx state f k) :: calls) := by
  have hrecord : lane.checker.stateAfter ctx calls = some state := h.state.symm.trans hstate
  have halive := h.alive
  rw [hstate, Option.isSome_some] at halive
  have hstep : lane.checker.stateAfter ctx
      (visitCall ctx f i k lane.checker (lane.checker.visit ctx state f k) :: calls) =
        (lane.checker.visit ctx state f k).value?.map (·.1) := by
    rw [Checker.stateAfter]
    simp only [visitCall, hrecord, Option.bind_some]
  have hanswers : lane.checker.Answers ctx
      (visitCall ctx f i k lane.checker (lane.checker.visit ctx state f k) :: calls) := by
    refine ⟨?_, h.answers⟩
    simp only [visitCall, Checker.call?, hrecord, Option.map_some]
  generalize hreply : lane.checker.visit ctx state f k = reply at *
  obtain ⟨reports, result⟩ := reply
  rcases result with failure | ⟨state', _ | _⟩
  · exact ⟨hstep.symm, by simp [settleLane, failedAt?_visitCall, Reply.failure?], hanswers⟩
  · exact ⟨hstep.symm, by simpa [settleLane, failedAt?_visitCall, Reply.failure?] using halive, hanswers⟩
  · exact ⟨hstep.symm, by simpa [settleLane, failedAt?_visitCall, Reply.failure?] using halive, hanswers⟩

theorem skipFrom?_settleLane (depth : Nat) (h : lane.skipFrom? = none)
    (reply : Reply (lane.checker.State × Visit)) :
    (settleLane depth lane reply.result).skipFrom? =
      if reply.value?.map (·.2) = some .skipChildren then some depth else none := by
  obtain ⟨reports, failure | ⟨state', _ | _⟩⟩ := reply <;> simp [settleLane, Reply.value?, h]

theorem ComesTo.skip_prefix (h : ComesTo ctx f lane calls) (depth : Nat) :
    (releaseLane f.depth lane).skipFrom? = some depth ↔
      ∃ call ∈ calls, ∃ g, call.skippedAt? = some g ∧ g.steps <+: f.steps ∧ g.depth = depth := by
  rw [h.skip]
  refine exists_congr fun call => and_congr_right fun hcall => exists_congr fun g =>
    and_congr_right fun hg => and_congr_left fun _ => ?_
  have hbefore := h.before call hcall g (Call.focus?_of_skippedAt? hg)
  rw [Focus.isAbove_iff]
  refine ⟨And.right, fun hsteps => ⟨?_, hsteps⟩⟩
  have hlength := hsteps.length_le
  rw [Focus.length_steps, Focus.length_steps] at hlength
  refine Nat.lt_of_le_of_ne hlength fun hdepth => ?_
  have hsame : g.steps = f.steps := hsteps.eq_of_length (by simpa using hdepth)
  rw [Focus.isBefore_iff, hsame] at hbefore
  exact List.lt_irrefl _ hbefore

theorem IsAfter.release (h : IsAfter ctx lane calls) (depth : Nat) :
    IsAfter ctx (releaseLane depth lane) calls := by
  obtain ⟨skipFrom?, hrelease⟩ := exists_releaseLane depth lane
  rw [hrelease]
  exact ⟨h.state, h.alive, h.answers⟩

theorem IsAfter.visitStep (h : IsAfter ctx lane calls) (f : Focus) (i k : Nat) :
    IsAfter ctx (visitStep ctx f i k lane).1 ((visitStep ctx f i k lane).2.toList ++ calls) := by
  rcases visitStep_cases ctx f i k lane with ⟨lane', call, -, hvisit, heq⟩ | ⟨-, heq⟩
  · obtain ⟨state, -, hstate, rfl, rfl⟩ := visitLane?_eq_some hvisit
    rw [heq]
    exact (h.release f.depth).visit hstate i k f.depth
  · rw [heq]
    exact h.release f.depth

theorem ComesTo.visit (h : ComesTo ctx f lane calls) (i k : Nat) :
    HasPassed ctx f (visitStep ctx f i k lane).1 ((visitStep ctx f i k lane).2.toList ++ calls) where
  toIsAfter := h.toIsAfter.visitStep f i k
  before := by
    intro call hcall g hg
    rcases List.mem_append.1 hcall with hcall | hcall
    · obtain ⟨state, rfl⟩ := visitStep_eq_some (Option.mem_toList.1 hcall)
      cases hg
      exact .inr rfl
    · exact .inl (h.before call hcall g hg)
  skip := by
    intro depth
    have hskip := h.skip_prefix
    rcases visitStep_cases ctx f i k lane with ⟨lane', call, -, hvisit, heq⟩ | ⟨-, heq⟩
    · obtain ⟨state, hnone, -, rfl, rfl⟩ := visitLane?_eq_some hvisit
      rw [heq, skipFrom?_settleLane f.depth hnone]
      -- Whoever is called skips nothing yet, so the call alone decides.
      have hold : ¬ ∃ call ∈ calls, ∃ g, call.skippedAt? = some g ∧ g.steps <+: f.steps ∧
          g.depth = depth := by
        rw [← hskip, hnone]
        simp
      simp only [Option.toList_some, List.singleton_append, List.mem_cons, or_and_right, exists_or,
        exists_eq_left, skippedAt?_visitCall, hold, or_false]
      split_ifs <;> simp [eq_comm]
    · rw [heq]
      exact hskip depth

end

/-! ## Finishing -/

theorem IsAfter.finish {ctx : FileContext} {lane : Lane} {calls : List Call}
    (h : IsAfter ctx lane calls) (i k : Nat) :
    lane.checker.Answers ctx ((finishStep ctx i k lane).2.toList ++ calls) := by
  cases hcall : finishLane? ctx i k lane with
  | none =>
    rw [finishStep, hcall]
    exact h.answers
  | some call =>
    obtain ⟨state, hstate, rfl⟩ := finishLane?_eq_some hcall
    have hrecord : lane.checker.stateAfter ctx calls = some state := h.state.symm.trans hstate
    simp only [finishStep, hcall, Option.toList_some, List.singleton_append]
    refine ⟨?_, h.answers⟩
    simp only [finishCall, Checker.call?, hrecord, Option.map_some]

theorem isSome_finishStep (ctx : FileContext) (i k : Nat) (lane : Lane) :
    (finishStep ctx i k lane).2.isSome = lane.state?.isSome := by
  simp only [finishStep, finishLane?]
  cases lane.state? <;> rfl

end Guardrails.Lane
