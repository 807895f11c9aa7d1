import Guardrails.Proofs.Walk.Document

/-!
# Checkers among others

A checker that only reports, and does not ask how much was reported before, is left alone by the other
checkers of its walk: a walk of some of the checkers makes of these what the walk of all of them does.
-/

namespace Guardrails

/-- Whether a checker uses the violations found so far for reporting alone. -/
structure Checker.OnlyReports (c : Checker) : Prop where
  visit : ∀ ctx state f k l, c.visit ctx state f k = c.visit ctx state f l
  finish : ∀ ctx state k l, c.finish ctx state k = c.finish ctx state l

theorem Checker.onlyReports_ofFindings (name : String) (rules : List Rule) (kinds : List String)
    (below : Visit) (findings : FileContext → Focus → Except Failure (List Violation)) :
    (ofFindings name rules kinds below findings).OnlyReports where
  visit := by
    intro ctx state f k l
    simp only [ofFindings, bind, Reporting.bind]
    cases findings ctx f <;> rfl
  finish _ _ _ _ := rfl

namespace Walk

/-! ## One lane -/

/-- Whether a step does the same to a lane whatever numbers it is told. -/
def IsSteady (step : LaneStep) (lane : Lane) : Prop :=
  ∀ i k j l, (step i k lane).1 = (step j l lane).1 ∧
    (step i k lane).2.map Call.outcome = (step j l lane).2.map Call.outcome

theorem isSteady_startStep (ctx : FileContext) (lane : Lane) : IsSteady (startStep ctx) lane :=
  fun _ _ _ _ => ⟨rfl, rfl⟩

theorem visitLane?_steady (ctx : FileContext) (f : Focus) {lane : Lane} (h : lane.checker.OnlyReports)
    (i k j l : Nat) :
    (visitLane? ctx f f.depth i k lane).map (fun visited => (visited.1, visited.2.outcome)) =
      (visitLane? ctx f f.depth j l lane).map (fun visited => (visited.1, visited.2.outcome)) := by
  unfold visitLane?
  cases lane.skipFrom? with
  | some depth => rfl
  | none =>
    cases lane.state? with
    | none => rfl
    | some state =>
      simp only [h.visit ctx state f k l]
      rfl

theorem isSteady_visitStep (ctx : FileContext) (f : Focus) {lane : Lane}
    (h : lane.checker.OnlyReports) : IsSteady (visitStep ctx f) lane := by
  intro i k j l
  have hreleased : (releaseLane f.depth lane).checker.OnlyReports := by rwa [checker_releaseLane]
  have hvisit := visitLane?_steady ctx f hreleased i k j l
  unfold visitStep
  by_cases hkind : f.node.kind ∈ lane.checker.kinds
  · rw [if_pos hkind, if_pos hkind]
    cases hone : visitLane? ctx f f.depth i k (releaseLane f.depth lane) with
    | none =>
      cases hother : visitLane? ctx f f.depth j l (releaseLane f.depth lane) with
      | none => exact ⟨rfl, rfl⟩
      | some other => simp [hone, hother] at hvisit
    | some one =>
      cases hother : visitLane? ctx f f.depth j l (releaseLane f.depth lane) with
      | none => simp [hone, hother] at hvisit
      | some other =>
        rw [hone, hother] at hvisit
        obtain ⟨hlane, houtcome⟩ := Prod.mk.inj (Option.some.inj hvisit)
        exact ⟨hlane, congrArg some houtcome⟩
  · rw [if_neg hkind, if_neg hkind]
    exact ⟨rfl, rfl⟩

theorem isSteady_finishStep (ctx : FileContext) {lane : Lane} (h : lane.checker.OnlyReports) :
    IsSteady (finishStep ctx) lane := by
  intro i k j l
  refine ⟨rfl, ?_⟩
  unfold finishStep finishLane?
  cases lane.state? with
  | none => rfl
  | some state =>
    simp only [h.finish ctx state k l]
    rfl

/-! ## A walk of some of the checkers -/

/-- Whether a walk is what the checkers with the kept numbers make of another one. -/
structure IsSelection (keep : Nat → Bool) (w w' : Walk) : Prop where
  lanes : w'.lanes = select keep 0 w.lanes
  outcomes : w'.log.map Call.outcome = (w.log.filter fun call => keep call.number).map Call.outcome

section

variable {keep : Nat → Bool} {cs : List Checker} {w w' : Walk}

theorem IsSelection.swept {step : LaneStep} (h : IsSelection keep w w') (hstep : LaneStep.IsAccurate step)
    (hsteady : ∀ lane ∈ w'.lanes, IsSteady step lane) :
    IsSelection keep (w.swept step) (w'.swept step) := by
  have hlanes := h.lanes
  rw [hlanes] at hsteady
  obtain ⟨hafter, hcalls⟩ :=
    sweep_select hstep 0 w.violations.length 0 w'.violations.length w.lanes hsteady
  refine ⟨?_, ?_⟩
  · rw [Walk.swept, Walk.swept, lanes_after, lanes_after, hlanes, hafter]
  · rw [Walk.swept, Walk.swept, log_after, log_after, List.map_append, List.filter_append,
      List.map_append, h.outcomes, hlanes, hcalls]

theorem IsSelection.checker_mem (h : IsSelection keep w w') (hcs : w.lanes.map (·.checker) = cs)
    {lane : Lane} (hlane : lane ∈ w'.lanes) : lane.checker ∈ select keep 0 cs := by
  rw [← hcs, ← map_select, ← h.lanes]
  exact List.mem_map_of_mem hlane

theorem IsSelection.visitAll (h : IsSelection keep w w') (hcs : w.lanes.map (·.checker) = cs)
    (honly : ∀ c ∈ select keep 0 cs, c.OnlyReports) (ctx : FileContext) (fs : List Focus) :
    IsSelection keep (w.visitAll ctx fs) (w'.visitAll ctx fs) := by
  induction fs generalizing w w' with
  | nil => exact h
  | cons f fs ih =>
    refine ih (h.swept (isAccurate_visitStep ctx f) fun lane hlane => ?_)
      ((map_checker_swept_visitStep ctx f w).trans hcs)
    exact isSteady_visitStep ctx f (honly _ (h.checker_mem hcs hlane))

theorem isSelection_idle (keep : Nat → Bool) (cs : List Checker) :
    IsSelection keep (idle cs) (idle (select keep 0 cs)) :=
  ⟨map_select idleLane keep 0 cs, rfl⟩

theorem isSelection_started (keep : Nat → Bool) (ctx : FileContext) (cs : List Checker) :
    IsSelection keep (started ctx cs) (started ctx (select keep 0 cs)) :=
  (isSelection_idle keep cs).swept (isAccurate_startStep ctx) fun lane _ => isSteady_startStep ctx lane

theorem isSelection_visited (honly : ∀ c ∈ select keep 0 cs, c.OnlyReports) (bound : Nat)
    (ctx : FileContext) (root : Node) :
    IsSelection keep (visited cs bound ctx root) (visited (select keep 0 cs) bound ctx root) := by
  obtain ⟨hlanes, houtcomes⟩ := (isSelection_started keep ctx cs).visitAll (map_checker_started ctx cs)
    honly ctx ((Focus.root root).within bound)
  exact ⟨hlanes, houtcomes⟩

/-- A walk of checkers that only report makes of them what a walk with more checkers does. -/
theorem isSelection_run (honly : ∀ c ∈ select keep 0 cs, c.OnlyReports) (bound : Nat)
    (ctx : FileContext) (root : Node) :
    IsSelection keep (run cs bound ctx root) (run (select keep 0 cs) bound ctx root) := by
  have h := isSelection_visited honly bound ctx root
  rw [run_eq, run_eq]
  refine h.swept (isAccurate_finishStep ctx) fun lane hlane => ?_
  exact isSteady_finishStep ctx (honly _ (h.checker_mem (map_checker_visited cs bound ctx root) hlane))

end

/-! ## One checker -/

/-- What a walk finds through the checker with this number. -/
def violationsOf (w : Walk) (number : Nat) : List Violation :=
  (w.log.filter (·.number == number)).flatMap (·.reports)

/-- The failures of the checker with this number. -/
def faultsOf (w : Walk) (number : Nat) : List Fault :=
  (w.log.filter (·.number == number)).filterMap (·.fault?)

theorem flatMap_reports_eq {calls calls' : List Call}
    (h : calls'.map Call.outcome = calls.map Call.outcome) :
    calls'.flatMap (·.reports) = calls.flatMap (·.reports) := by
  have := congrArg (List.flatMap Prod.fst) h
  rwa [List.flatMap_map, List.flatMap_map] at this

theorem filterMap_fault?_eq {calls calls' : List Call}
    (h : calls'.map Call.outcome = calls.map Call.outcome) :
    calls'.filterMap (·.fault?) = calls.filterMap (·.fault?) := by
  have := congrArg (List.filterMap Prod.snd) h
  rwa [List.filterMap_map, List.filterMap_map] at this

section

variable {cs : List Checker} {i : Nat} {c : Checker}

/-- A walk with all its checkers finds the sum of what it finds through each. For a checker that only
reports, this is what it finds when it is alone, whatever the other checkers do. -/
theorem isolation (hc : cs[i]? = some c) (honly : c.OnlyReports) (bound : Nat) (ctx : FileContext)
    (root : Node) :
    (run cs bound ctx root).violationsOf i = (FileAnalysis.ofWalk [c] bound ctx root).violations ∧
      (run cs bound ctx root).faultsOf i = (FileAnalysis.ofWalk [c] bound ctx root).faults ∧
      c.Answers ctx ((run cs bound ctx root).callsOf i) ∧
      (FileAnalysis.ofWalk cs bound ctx root).violations =
        (run cs bound ctx root).log.flatMap (·.reports) ∧
      (FileAnalysis.ofWalk cs bound ctx root).faults =
        (run cs bound ctx root).log.filterMap (·.fault?) := by
  have hselect : select (· == i) 0 cs = [c] := by
    have := select_eq_singleton 0 hc
    rwa [Nat.zero_add] at this
  have hselected : ∀ other ∈ select (· == i) 0 cs, other.OnlyReports := by
    rw [hselect]
    simpa using honly
  have hrun := isSelection_run hselected bound ctx root
  rw [hselect] at hrun
  have halone := recorded_run [c] bound ctx root
  have hall := recorded_run cs bound ctx root
  refine ⟨?_, ?_, answers_run cs bound ctx root i c hc, hall.violations, hall.faults⟩
  · rw [FileAnalysis.ofWalk, halone.violations, violationsOf, flatMap_reports_eq hrun.outcomes]
  · rw [FileAnalysis.ofWalk, halone.faults, faultsOf, filterMap_fault?_eq hrun.outcomes]

/-- Beside a checker that fails at once, the other still finds what it finds alone. -/
theorem isolation_beside_failure :
    let failing := Checker.ofFindings "failing" [] ["program"] .enter fun _ _ => .error (.breakdown none)
    let long := Checker.ofFindings "long" [.moduleSize] ["program"] .enter fun ctx _ =>
      .ok [ctx.fileViolation .moduleSize "long"]
    let ctx := FileContext.ofFile ⟨"/"⟩ ⟨"/a.js"⟩ ""
    let root : Node := ⟨"program", true, false, false, false, "", 0, 0, []⟩
    (run [failing, long] 1 ctx root).violationsOf 1 = (FileAnalysis.ofWalk [long] 1 ctx root).violations ∧
      (run [failing, long] 1 ctx root).faultsOf 1 = (FileAnalysis.ofWalk [long] 1 ctx root).faults ∧
      (run [failing, long] 1 ctx root).violationsOf 1 = [ctx.fileViolation .moduleSize "long"] ∧
      (run [failing, long] 1 ctx root).faults.map (·.checker) = ["failing"] := by
  intro failing long ctx root
  have hlong : [failing, long][1]? = some long := rfl
  obtain ⟨hviolations, hfaults, -⟩ :=
    isolation hlong (Checker.onlyReports_ofFindings _ _ _ _ _) 1 ctx root
  refine ⟨hviolations, hfaults, ?_, by decide +kernel⟩
  rw [violationsOf, run_eq]
  rfl

end

end Walk
end Guardrails
