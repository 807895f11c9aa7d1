import Mathlib.Data.List.Nodup
import Guardrails.Proofs.Walk.Document

/-!
# The life of a checker in a walk

A checker is started, handed places until it fails, and finished if it never failed. Its failure ends its
part in the walk and no more than that: what it reported stays, and the walk keeps one fault for it. All
calls of a walk, and with them the violations and the faults, come in one order.
-/

namespace Guardrails

/-! ## What a life is -/

/-- Whether these are the calls, in order, to a checker that is in good order: places are handed to it until
it fails at one of them, or it is finished. -/
inductive Lives : List Call → Prop
  | finished {call : Call} (isFinish : call.occasion = .finish) : Lives [call]
  | failed {call : Call} {f : Focus} (isVisit : call.occasion = .visit f)
      (hasFailed : call.fault?.isSome) : Lives [call]
  | visited {call : Call} {f : Focus} {later : List Call} (isVisit : call.occasion = .visit f)
      (isFine : call.fault? = none) (rest : Lives later) : Lives (call :: later)

/-- Whether these are the calls to a checker in a whole walk: it is started, and lives on unless that
fails. -/
inductive Lifecycle : List Call → Prop
  | failed {call : Call} (isStart : call.occasion = .start) (hasFailed : call.fault?.isSome) :
      Lifecycle [call]
  | started {call : Call} {later : List Call} (isStart : call.occasion = .start)
      (isFine : call.fault? = none) (rest : Lives later) : Lifecycle (call :: later)

/-- The order of the occasions in a walk: the start, the places in document order, the finish. -/
def Occasion.isBefore : Occasion → Occasion → Bool
  | start, start => false
  | start, _ => true
  | visit f, visit g => f.isBefore g
  | visit _, finish => true
  | _, _ => false

/-- The order of the calls in a walk. On one occasion the checkers come as they are listed. -/
def Call.Precedes (a b : Call) : Prop :=
  a.occasion.isBefore b.occasion = true ∨ a.occasion = b.occasion ∧ a.number < b.number

namespace Walk

/-- The calls at which checkers failed, in order. -/
def failures (w : Walk) : List Call :=
  w.log.filter (·.fault?.isSome)

/-- Whether a walk treats its checkers as it should, whatever they answer. -/
structure IsOrderly (cs : List Checker) (ctx : FileContext) (w : Walk) : Prop where
  number : ∀ call ∈ w.log, call.number < cs.length
  answers : ∀ (i : Nat) (c : Checker), cs[i]? = some c → c.Answers ctx (w.callsOf i)
  lifecycle : ∀ i < cs.length, Lifecycle (w.callsOf i).reverse
  /-- A checker is finished if and only if it has not failed before that. -/
  finish : ∀ i < cs.length, (∃ call ∈ w.callsOf i, call.occasion = .finish) ↔
    ∀ call ∈ w.callsOf i, call.occasion ≠ .finish → call.fault? = none
  order : w.log.Pairwise Call.Precedes
  violations : w.violations = w.log.flatMap (·.reports)
  faults : w.faults = w.failures.filterMap (·.fault?)
  once : (w.failures.map (·.number)).Nodup
  /-- A fault names the checker and the node that was handed to it, if there was one. -/
  fault : ∀ call ∈ w.log, ∀ fault, call.fault? = some fault →
    ∃ c e, cs[call.number]? = some c ∧ fault = faultAt ctx c call.occasion.node? e

end Walk

/-! ## Failing ends a life -/

theorem Lives.length_filter_le {calls : List Call} (h : Lives calls) :
    (calls.filter (·.fault?.isSome)).length ≤ 1 := by
  induction h with
  | finished => exact List.length_filter_le _ _
  | failed => exact List.length_filter_le _ _
  | visited isVisit isFine rest ih => rwa [List.filter_cons_of_neg (by simp [isFine])]

theorem Lifecycle.length_filter_le {calls : List Call} (h : Lifecycle calls) :
    (calls.filter (·.fault?.isSome)).length ≤ 1 := by
  cases h with
  | failed => exact List.length_filter_le _ _
  | started isStart isFine rest =>
    rw [List.filter_cons_of_neg (by simp [isFine])]
    exact rest.length_filter_le

theorem Lives.finish_iff {calls : List Call} (h : Lives calls) :
    (∃ call ∈ calls, call.occasion = .finish) ↔
      ∀ call ∈ calls, call.occasion ≠ .finish → call.fault? = none := by
  induction h with
  | finished isFinish => simp [isFinish]
  | failed isVisit hasFailed =>
    simp [isVisit, Option.isSome_iff_ne_none.1 hasFailed]
  | visited isVisit isFine rest ih => simpa [isVisit, isFine] using ih

theorem Lifecycle.finish_iff {calls : List Call} (h : Lifecycle calls) :
    (∃ call ∈ calls, call.occasion = .finish) ↔
      ∀ call ∈ calls, call.occasion ≠ .finish → call.fault? = none := by
  cases h with
  | failed isStart hasFailed =>
    simp [isStart, Option.isSome_iff_ne_none.1 hasFailed]
  | started isStart isFine rest => simpa [isStart, isFine] using rest.finish_iff

namespace Checker

/-! ## What answers make of a life -/

section

variable {c : Checker} {ctx : FileContext} {call : Call} {earlier : List Call}

theorem Answers.isSome_stateAfter (h : c.Answers ctx (call :: earlier)) (hstart : call.occasion ≠ .start) :
    (c.stateAfter ctx earlier).isSome := by
  obtain ⟨hcall, -⟩ := h
  cases hoccasion : call.occasion with
  | start => exact absurd hoccasion hstart
  | visit f =>
    rw [hoccasion] at hcall
    obtain ⟨state, hstate, -⟩ := Option.map_eq_some_iff.1 hcall
    rw [hstate, Option.isSome_some]
  | finish =>
    rw [hoccasion] at hcall
    obtain ⟨state, hstate, -⟩ := Option.map_eq_some_iff.1 hcall
    rw [hstate, Option.isSome_some]

theorem Answers.isSome_stateAfter_cons (h : c.Answers ctx (call :: earlier))
    (hfinish : call.occasion ≠ .finish) :
    (c.stateAfter ctx (call :: earlier)).isSome = !call.fault?.isSome := by
  obtain ⟨hcall, -⟩ := h
  cases hoccasion : call.occasion with
  | start =>
    rw [hoccasion] at hcall
    have hfault := congrArg (·.fault?) (Option.some.inj hcall)
    simp only [Walk.startCall] at hfault
    rw [stateAfter, hoccasion, ← hfault, Option.isSome_map, Reply.isSome_failure?, Bool.not_not]
  | visit f =>
    rw [hoccasion] at hcall
    obtain ⟨state, hstate, heq⟩ := Option.map_eq_some_iff.1 hcall
    have hfault := congrArg (·.fault?) heq
    simp only [Walk.visitCall] at hfault
    simp only [stateAfter, hoccasion, hstate, Option.bind_some, ← hfault, Option.isSome_map,
      Reply.isSome_failure?, Bool.not_not]
  | finish => exact absurd hoccasion hfinish

theorem Answers.stateAfter_of_failed (h : c.Answers ctx (call :: earlier)) (hfinish : call.occasion ≠ .finish)
    {fault : Fault} (hfault : call.fault? = some fault) : c.stateAfter ctx (call :: earlier) = none := by
  have hafter := h.isSome_stateAfter_cons hfinish
  rw [hfault] at hafter
  exact Option.isNone_iff_eq_none.1 (Option.isSome_eq_false_iff.1 hafter)

theorem Answers.isSome_stateAfter_of_fine (h : c.Answers ctx (call :: earlier))
    (hfinish : call.occasion ≠ .finish) (hfault : call.fault? = none) :
    (c.stateAfter ctx (call :: earlier)).isSome := by
  rw [h.isSome_stateAfter_cons hfinish, hfault]
  rfl

theorem Answers.isOk_start (h : c.Answers ctx (call :: earlier)) (hstart : call.occasion = .start) :
    (c.start ctx).isOk = !call.fault?.isSome := by
  have hafter := h.isSome_stateAfter_cons (by rw [hstart]; exact Occasion.noConfusion)
  rw [← hafter, stateAfter, hstart, Reply.ofExcept]
  cases c.start ctx <;> rfl

theorem Answers.eq_nil {later : List Call} (h : c.Answers ctx (later.reverse ++ earlier))
    (hstate : c.stateAfter ctx earlier = none) (hstart : ∀ call ∈ later, call.occasion ≠ .start) :
    later = [] := by
  cases later with
  | nil => rfl
  | cons call later =>
    rw [List.reverse_cons, List.append_assoc, List.singleton_append] at h
    have hfirst := h.of_append.isSome_stateAfter (hstart call List.mem_cons_self)
    rw [hstate] at hfirst
    cases hfirst

theorem Answers.lives {later : List Call} (h : c.Answers ctx (later.reverse ++ earlier))
    (hstate : (c.stateAfter ctx earlier).isSome) (hstart : ∀ call ∈ later, call.occasion ≠ .start)
    (hend : ∃ call ∈ later, call.occasion = .finish ∨ call.fault?.isSome) : Lives later := by
  induction later generalizing earlier with
  | nil =>
    obtain ⟨call, hcall, -⟩ := hend
    exact absurd hcall List.not_mem_nil
  | cons call later ih =>
    have hlater : ∀ call ∈ later, call.occasion ≠ .start := fun other hother =>
      hstart other (List.mem_cons_of_mem _ hother)
    rw [List.reverse_cons, List.append_assoc, List.singleton_append] at h
    cases hoccasion : call.occasion with
    | start => exact absurd hoccasion (hstart call List.mem_cons_self)
    | finish =>
      have hnone : c.stateAfter ctx (call :: earlier) = none := by rw [stateAfter, hoccasion]
      obtain rfl := h.eq_nil hnone hlater
      exact .finished hoccasion
    | visit f =>
      have hfinish : call.occasion ≠ .finish := by
        rw [hoccasion]
        exact Occasion.noConfusion
      cases hfault : call.fault? with
      | some fault =>
        obtain rfl := h.eq_nil (h.of_append.stateAfter_of_failed hfinish hfault) hlater
        exact .failed hoccasion (by rw [hfault, Option.isSome_some])
      | none =>
        have hafter := h.of_append.isSome_stateAfter_of_fine hfinish hfault
        have hrest : ∃ call ∈ later, call.occasion = .finish ∨ call.fault?.isSome := by
          obtain ⟨other, hother, hlast⟩ := hend
          rcases List.mem_cons.1 hother with rfl | hother
          · simp [hoccasion, hfault] at hlast
          · exact ⟨other, hother, hlast⟩
        exact .visited hoccasion hfault (ih h hafter hlater hrest)

/-- The calls from a start on are a lifecycle, if a checker that was started fails or is finished. -/
theorem Answers.lifecycle {later : List Call} (h : c.Answers ctx (call :: later).reverse)
    (hfirst : call.occasion = .start) (hstart : ∀ call ∈ later, call.occasion ≠ .start)
    (hend : call.fault? = none → ∃ call ∈ later, call.occasion = .finish ∨ call.fault?.isSome) :
    Lifecycle (call :: later) := by
  rw [List.reverse_cons] at h
  have hfinish : call.occasion ≠ .finish := by
    rw [hfirst]
    exact Occasion.noConfusion
  cases hfault : call.fault? with
  | some fault =>
    obtain rfl := h.eq_nil (h.of_append.stateAfter_of_failed hfinish hfault) hstart
    exact .failed hfirst (by rw [hfault, Option.isSome_some])
  | none =>
    have hafter := h.of_append.isSome_stateAfter_of_fine hfinish hfault
    exact .started hfirst hfault (h.lives hafter hstart (hend hfault))

end
end Checker

theorem Occasion.focus?_eq_some {o : Occasion} {f : Focus} : o.focus? = some f ↔ o = .visit f := by
  cases o <;> simp [focus?]

namespace Walk

/-! ## The order of the calls -/

theorem pairwise_precedes {calls : List Call} {o : Occasion} (hoccasion : ∀ call ∈ calls, call.occasion = o)
    (hnumber : (calls.map (·.number)).Pairwise (· < ·)) : calls.Pairwise Call.Precedes :=
  (List.pairwise_map.1 hnumber).imp_of_mem fun ha hb hlt =>
    .inr ⟨(hoccasion _ ha).trans (hoccasion _ hb).symm, hlt⟩

section

variable (cs : List Checker) (bound : Nat) (ctx : FileContext) (root : Node)

theorem log_started : (started ctx cs).log = (sweep (startStep ctx) 0 0 (cs.map idleLane)).2 := by
  rw [started, swept, log_after]
  rfl

theorem map_number_started : (started ctx cs).log.map (·.number) = List.range cs.length := by
  have hnumbers := map_number_sweep (p := fun _ => true) (isAccurate_startStep ctx) 0 0 (cs.map idleLane)
    fun _ _ _ _ => rfl
  rw [log_started, hnumbers, List.filter_eq_self.2 fun _ _ => rfl, List.length_map,
    ← List.range_eq_range']

theorem exists_started {i : Nat} (h : i < cs.length) :
    ∃ call, (started ctx cs).log.filter (·.number == i) = [call] := by
  have hlane : (cs.map idleLane)[i]? = some (idleLane cs[i]) := by
    rw [List.getElem?_map, List.getElem?_eq_getElem h, Option.map_some]
  obtain ⟨k, -, hcalls⟩ := sweep_getElem? (isAccurate_startStep ctx) 0 0 _ hlane
  rw [Nat.zero_add] at hcalls
  exact ⟨_, (congrArg _ (log_started cs ctx)).trans hcalls⟩

theorem exists_visit_of_mem_visitCalls {w : Walk} {call : Call} (h : call ∈ w.visitCalls) :
    ∃ f, call.occasion = .visit f := by
  obtain ⟨f, hf⟩ := Option.isSome_iff_exists.1 (List.mem_filter.1 h).2
  exact ⟨f, Occasion.focus?_eq_some.1 hf⟩

theorem occasion_of_mem_finishCalls {w : Walk} {call : Call} (h : call ∈ w.finishCalls) :
    call.occasion = .finish := by
  have hfinish := (List.mem_filter.1 h).2
  cases hoccasion : call.occasion with
  | finish => rfl
  | _ =>
    rw [hoccasion] at hfinish
    cases hfinish

theorem pairwise_visits : (run cs bound ctx root).visits.Pairwise fun a b =>
    a.1.isBefore b.1 = true ∨ a.1 = b.1 ∧ a.2 < b.2 := by
  rw [visits_run, List.pairwise_flatMap]
  constructor
  · intro f _
    rw [List.pairwise_map]
    exact (List.pairwise_lt_range.filter _).imp fun hlt => .inr ⟨rfl, hlt⟩
  · refine (Focus.subtree_pairwise (.root root)).imp ?_
    intro f g hbefore x hx y hy
    obtain ⟨i, -, rfl⟩ := List.mem_map.1 hx
    obtain ⟨j, -, rfl⟩ := List.mem_map.1 hy
    exact .inl hbefore

theorem pairwise_visitCalls : (run cs bound ctx root).visitCalls.Pairwise Call.Precedes := by
  have hpairs := List.pairwise_filterMap.1 (pairwise_visits cs bound ctx root)
  have hcalls : (run cs bound ctx root).visitCalls.Sublist (run cs bound ctx root).log :=
    List.filter_sublist
  refine (hpairs.sublist hcalls).imp_of_mem ?_
  intro a b ha hb hab
  obtain ⟨f, hf⟩ := exists_visit_of_mem_visitCalls ha
  obtain ⟨g, hg⟩ := exists_visit_of_mem_visitCalls hb
  have horder := hab (f, a.number) (by rw [Call.focus?, hf]; rfl) (g, b.number)
    (by rw [Call.focus?, hg]; rfl)
  rw [Call.Precedes, hf, hg]
  exact horder.imp_right fun heq => ⟨congrArg _ heq.1, heq.2⟩

theorem pairwise_log : (run cs bound ctx root).log.Pairwise Call.Precedes := by
  have hstarts : (started ctx cs).log.Pairwise Call.Precedes :=
    pairwise_precedes (fun _ hcall => (occasion_of_mem_started cs ctx hcall).1)
      (map_number_started cs ctx ▸ List.pairwise_lt_range)
  have hfinishes : (run cs bound ctx root).finishCalls.Pairwise Call.Precedes :=
    pairwise_precedes (fun _ hcall => occasion_of_mem_finishCalls hcall)
      (finishes_run cs bound ctx root ▸ List.pairwise_lt_range.filter _)
  rw [log_run, List.pairwise_append, List.pairwise_append]
  refine ⟨⟨hstarts, pairwise_visitCalls cs bound ctx root, ?_⟩, hfinishes, ?_⟩
  · intro a ha b hb
    obtain ⟨f, hf⟩ := exists_visit_of_mem_visitCalls hb
    rw [Call.Precedes, (occasion_of_mem_started cs ctx ha).1, hf]
    exact .inl rfl
  · intro a ha b hb
    rw [Call.Precedes, occasion_of_mem_finishCalls hb]
    rcases List.mem_append.1 ha with ha | ha
    · rw [(occasion_of_mem_started cs ctx ha).1]
      exact .inl rfl
    · obtain ⟨f, hf⟩ := exists_visit_of_mem_visitCalls ha
      rw [hf]
      exact .inl rfl

/-! ## The calls to one checker -/

theorem exists_callsOf {i : Nat} (h : i < cs.length) :
    ∃ first later, ((run cs bound ctx root).callsOf i).reverse = first :: later ∧
      first.occasion = .start ∧ (∀ call ∈ later, call.occasion ≠ .start) ∧
      ∀ call ∈ (run cs bound ctx root).finishCalls, call.number = i → call ∈ later := by
  obtain ⟨first, hfirst⟩ := exists_started cs ctx h
  have hstart : first ∈ (started ctx cs).log :=
    List.mem_of_mem_filter (hfirst ▸ List.mem_singleton_self first)
  refine ⟨first, ((run cs bound ctx root).visitCalls.filter (·.number == i)) ++
    (run cs bound ctx root).finishCalls.filter (·.number == i), ?_, ?_, ?_, ?_⟩
  · rw [reverse_callsOf]
    conv_lhs => rw [log_run]
    rw [List.filter_append, List.filter_append, hfirst, List.append_assoc, List.singleton_append]
  · exact (occasion_of_mem_started cs ctx hstart).1
  · intro call hcall
    rcases List.mem_append.1 hcall with hcall | hcall
    · obtain ⟨f, hf⟩ := exists_visit_of_mem_visitCalls (List.mem_of_mem_filter hcall)
      rw [hf]
      exact Occasion.noConfusion
    · rw [occasion_of_mem_finishCalls (List.mem_of_mem_filter hcall)]
      exact Occasion.noConfusion
  · intro call hcall hnumber
    exact List.mem_append_right _ (List.mem_filter.2 ⟨hcall, beq_iff_eq.2 hnumber⟩)

theorem exists_finish {i : Nat} {c : Checker} (hc : cs[i]? = some c) (hstart : (c.start ctx).isOk)
    (hfine : ∀ call ∈ (run cs bound ctx root).callsOf i, call.fault? = none) :
    ∃ call ∈ (run cs bound ctx root).finishCalls, call.number = i := by
  have hfailed : ((run cs bound ctx root).callsOf i).any (·.failedAt?.isSome) = false := by
    rw [List.any_eq_false]
    intro call hcall
    simp [Call.failedAt?, hfine call hcall]
  have hmem : i ∈ (run cs bound ctx root).finishCalls.map (·.number) := by
    rw [finishes_run, List.mem_filter, List.mem_range, isToFinish, hc, Option.any_some, hstart, hfailed]
    exact ⟨(List.getElem?_eq_some_iff.1 hc).1, rfl⟩
  exact List.mem_map.1 hmem

theorem lifecycle_run {i : Nat} (h : i < cs.length) :
    Lifecycle ((run cs bound ctx root).callsOf i).reverse := by
  obtain ⟨first, later, hcalls, hfirst, hlater, hfinish⟩ := exists_callsOf cs bound ctx root h
  have hanswers := answers_run cs bound ctx root i cs[i] (List.getElem?_eq_getElem h)
  rw [← List.reverse_reverse ((run cs bound ctx root).callsOf i), hcalls] at hanswers
  have hstarted := hanswers
  rw [List.reverse_cons] at hstarted
  rw [hcalls]
  refine hanswers.lifecycle hfirst hlater fun hfine => ?_
  -- Otherwise it never fails, and is among those that are finished.
  by_contra hend
  push Not at hend
  have hall : ∀ call ∈ (run cs bound ctx root).callsOf i, call.fault? = none := by
    intro call hcall
    rw [← List.mem_reverse, hcalls] at hcall
    rcases List.mem_cons.1 hcall with rfl | hcall
    · exact hfine
    · simpa using (hend call hcall).2
  have hok : (cs[i].start ctx).isOk := by
    rw [hstarted.of_append.isOk_start hfirst, hfine]
    rfl
  obtain ⟨call, hcall, hnumber⟩ := exists_finish cs bound ctx root (List.getElem?_eq_getElem h) hok hall
  exact (hend call (hfinish call hcall hnumber)).1 (occasion_of_mem_finishCalls hcall)

/-! ## Faults -/

theorem number_lt_of_mem_log {call : Call} (h : call ∈ (run cs bound ctx root).log) :
    call.number < cs.length := by
  obtain ⟨c, earlier, hc, -⟩ := exists_checker_of_mem_log cs bound ctx root h
  exact (List.getElem?_eq_some_iff.1 hc).1

theorem failures_run_nodup : ((run cs bound ctx root).failures.map (·.number)).Nodup := by
  rw [List.nodup_iff_count_le_one]
  intro i
  have hcount : ((run cs bound ctx root).failures.map (·.number)).count i =
      (((run cs bound ctx root).callsOf i).reverse.filter (·.fault?.isSome)).length := by
    rw [reverse_callsOf, List.count, List.countP_map, List.countP_eq_length_filter, failures,
      List.filter_filter, List.filter_filter]
    congr 1
    exact List.filter_congr fun call _ => Bool.and_comm _ _
  rw [hcount]
  by_cases hi : i < cs.length
  · exact (lifecycle_run cs bound ctx root hi).length_filter_le
  · have hnone : ((run cs bound ctx root).callsOf i).reverse = [] := by
      rw [reverse_callsOf, List.filter_eq_nil_iff]
      intro call hcall hnumber
      exact hi (beq_iff_eq.1 hnumber ▸ number_lt_of_mem_log cs bound ctx root hcall)
    rw [hnone]
    exact Nat.zero_le 1

theorem faults_run :
    (run cs bound ctx root).faults = (run cs bound ctx root).failures.filterMap (·.fault?) := by
  rw [(recorded_run cs bound ctx root).faults, failures, List.filterMap_filter]
  refine List.filterMap_congr fun call _ => ?_
  cases call.fault? <;> rfl

theorem exists_faultAt_of_mem_log {call : Call} {fault : Fault}
    (h : call ∈ (run cs bound ctx root).log) (hfault : call.fault? = some fault) :
    ∃ c e, cs[call.number]? = some c ∧ fault = faultAt ctx c call.occasion.node? e := by
  obtain ⟨c, earlier, hc, hcall⟩ := exists_checker_of_mem_log cs bound ctx root h
  obtain ⟨e, he⟩ := Checker.exists_faultAt_of_call? hcall hfault
  exact ⟨c, e, hc, he⟩

/-- Whatever the checkers do, a walk comes to an end with every checker having had its whole life, with all
that was reported kept, and with one fault for each checker that failed. -/
theorem ofWalk_isOrderly :
    (run cs bound ctx root).IsOrderly cs ctx ∧
      FileAnalysis.ofWalk cs bound ctx root =
        ⟨(run cs bound ctx root).log.flatMap (·.reports),
          (run cs bound ctx root).failures.filterMap (·.fault?),
          (run cs bound ctx root).depthLimited⟩ := by
  have hviolations := (recorded_run cs bound ctx root).violations
  have hfaults := faults_run cs bound ctx root
  constructor
  · exact {
      number := fun _ => number_lt_of_mem_log cs bound ctx root
      answers := answers_run cs bound ctx root
      lifecycle := fun _ => lifecycle_run cs bound ctx root
      finish := fun _ hi => by
        simpa only [List.mem_reverse] using (lifecycle_run cs bound ctx root hi).finish_iff
      order := pairwise_log cs bound ctx root
      violations := hviolations
      faults := hfaults
      once := failures_run_nodup cs bound ctx root
      fault := fun _ hcall _ => exists_faultAt_of_mem_log cs bound ctx root hcall }
  · rw [FileAnalysis.ofWalk, ← hviolations, ← hfaults]

end
end Walk
end Guardrails
