import Guardrails.Proofs.Walk.Attribution

/-!
# Walks that mirror each other

Two walks of the same checkers over one tree, for two files, find the same in the eyes of someone who sees the
violations of some rules only, as long as no checker fails in either of them.
-/

namespace Guardrails

def Violation.inFile (v : Violation) (file : Path) : Violation :=
  { v with location := { v.location with file } }

/-- Whether violations are the same as some others but for the file they are in, in the eyes of someone who is
shown some rules only. -/
def IsMirrored (shown : Rule → Bool) (file : Path) (vs vs' : List Violation) : Prop :=
  vs'.filter (fun v => shown v.rule) = (vs.filter fun v => shown v.rule).map (·.inFile file)

namespace IsMirrored

variable {shown : Rule → Bool} {file : Path} {vs vs' ws ws' : List Violation}

theorem nil : IsMirrored shown file [] [] := rfl

theorem append (hvs : IsMirrored shown file vs vs') (hws : IsMirrored shown file ws ws') :
    IsMirrored shown file (vs ++ ws) (vs' ++ ws') := by
  unfold IsMirrored at *
  rw [List.filter_append, List.filter_append, List.map_append, hvs, hws]

theorem of_eq (h : vs' = vs.map (·.inFile file)) : IsMirrored shown file vs vs' := by
  unfold IsMirrored
  rw [h, List.filter_map]
  rfl

theorem of_hidden (hvs : ∀ v ∈ vs, shown v.rule = false) (hvs' : ∀ v ∈ vs', shown v.rule = false) :
    IsMirrored shown file vs vs' := by
  unfold IsMirrored
  rw [List.filter_eq_nil_iff.2 fun v hv => Bool.eq_false_iff.1 (hvs v hv),
    List.filter_eq_nil_iff.2 fun v hv => Bool.eq_false_iff.1 (hvs' v hv)]
  rfl

end IsMirrored

/-- Whether a reply comes to the same as another one, unless one of them is a failure. -/
def Reply.Mirrors {α : Type} (shown : Rule → Bool) (file : Path) (x x' : Reply α) : Prop :=
  ∀ a a', x.result = .ok a → x'.result = .ok a' → a' = a ∧ IsMirrored shown file x.reports x'.reports

/-- Whether a checker does for the file of `ctx'` what it does for the file of `ctx`, where it does not fail. -/
structure Checker.Mirrors (c : Checker) (shown : Rule → Bool) (ctx ctx' : FileContext) : Prop where
  start : c.start ctx' = c.start ctx
  visit : ∀ state f k, (c.visit ctx state f k).Mirrors shown ctx'.relative (c.visit ctx' state f k)
  finish : ∀ state k, (c.finish ctx state k).Mirrors shown ctx'.relative (c.finish ctx' state k)

theorem Checker.mirrors_ofFindings {name : String} {rules : List Rule} {kinds : List String} {below : Visit}
    {findings : FileContext → Focus → Except Failure (List Violation)} {shown : Rule → Bool}
    {ctx ctx' : FileContext}
    (h : ∀ f vs vs', findings ctx f = .ok vs → findings ctx' f = .ok vs' →
      IsMirrored shown ctx'.relative vs vs') :
    (ofFindings name rules kinds below findings).Mirrors shown ctx ctx' where
  start := rfl
  visit := by
    intro state f k next next' hnext hnext'
    simp only [ofFindings, bind, Reporting.bind] at hnext hnext' ⊢
    cases hvs : findings ctx f with
    | error e => rw [hvs] at hnext; cases hnext
    | ok vs =>
      cases hvs' : findings ctx' f with
      | error e => rw [hvs'] at hnext'; cases hnext'
      | ok vs' =>
        rw [hvs] at hnext
        rw [hvs'] at hnext'
        obtain rfl : ((), below) = next := Except.ok.inj hnext
        obtain rfl : ((), below) = next' := Except.ok.inj hnext'
        exact ⟨rfl, (h f vs vs' hvs hvs').append .nil⟩
  finish _ _ _ _ _ _ := ⟨rfl, .nil⟩

namespace Walk

section

variable {shown : Rule → Bool} {file : Path} {ctx ctx' : FileContext}

/-! ## One lane -/

/-- Whether two steps do the same to a lane, unless one of them comes upon a failure. -/
def StepMirrors (shown : Rule → Bool) (file : Path) (step step' : LaneStep) (lane : Lane) : Prop :=
  ∀ i k k', (step i k lane).2.bind (·.fault?) = none → (step' i k' lane).2.bind (·.fault?) = none →
    (step' i k' lane).1 = (step i k lane).1 ∧
      IsMirrored shown file ((step i k lane).2.toList.flatMap (·.reports))
        ((step' i k' lane).2.toList.flatMap (·.reports))

theorem stepMirrors_start {lane : Lane} (h : lane.checker.Mirrors shown ctx ctx') :
    StepMirrors shown file (startStep ctx) (startStep ctx') lane := by
  intro i k k' _ _
  unfold startStep startLane
  rw [h.start]
  exact ⟨rfl, .nil⟩

theorem exists_result_of_failure? {α : Type} {x : Reply α} (h : x.failure? = none) : ∃ a, x.result = .ok a := by
  unfold Reply.failure? at h
  split at h
  · rename_i a ha
    exact ⟨a, ha⟩
  · cases h

theorem stepMirrors_visit {f : Focus} {lane : Lane} (h : lane.checker.Mirrors shown ctx ctx')
    (honly : lane.checker.OnlyReports) :
    StepMirrors shown ctx'.relative (visitStep ctx f) (visitStep ctx' f) lane := by
  intro i k k' hfault hfault'
  obtain ⟨skipFrom?, hrelease⟩ := exists_releaseLane f.depth lane
  unfold visitStep at hfault hfault' ⊢
  rw [hrelease] at hfault hfault' ⊢
  by_cases hkind : f.node.kind ∈ lane.checker.kinds
  · rw [if_pos hkind] at hfault hfault' ⊢
    rw [if_pos hkind]
    unfold visitLane? at hfault hfault' ⊢
    cases skipFrom? with
    | some depth => exact ⟨rfl, .nil⟩
    | none =>
      cases hstate : lane.state? with
      | none => exact ⟨rfl, .nil⟩
      | some state =>
        simp only [hstate, Option.bind_some, visitCall, Option.map_eq_none_iff] at hfault hfault'
        simp only [visitCall, Option.toList_some, List.flatMap_cons, List.flatMap_nil, List.append_nil]
        rw [honly.visit ctx' state f k' k] at hfault' ⊢
        obtain ⟨next, hnext⟩ := exists_result_of_failure? hfault
        obtain ⟨next', hnext'⟩ := exists_result_of_failure? hfault'
        obtain ⟨heq, hreports⟩ := h.visit state f k next next' hnext hnext'
        refine ⟨?_, hreports⟩
        rw [hnext, hnext', heq]
  · rw [if_neg hkind, if_neg hkind]
    exact ⟨rfl, .nil⟩

theorem stepMirrors_finish {lane : Lane} (h : lane.checker.Mirrors shown ctx ctx')
    (honly : lane.checker.OnlyReports) :
    StepMirrors shown ctx'.relative (finishStep ctx) (finishStep ctx') lane := by
  intro i k k' hfault hfault'
  refine ⟨rfl, ?_⟩
  unfold finishStep finishLane? at hfault hfault' ⊢
  cases hstate : lane.state? with
  | none => exact .nil
  | some state =>
    simp only [hstate, Option.bind_some, finishCall, Option.map_eq_none_iff] at hfault hfault'
    simp only [finishCall, Option.toList_some, List.flatMap_cons, List.flatMap_nil, List.append_nil]
    rw [honly.finish ctx' state k' k] at hfault' ⊢
    obtain ⟨done, hdone⟩ := exists_result_of_failure? hfault
    obtain ⟨done', hdone'⟩ := exists_result_of_failure? hfault'
    exact (h.finish state k done done' hdone hdone').2

/-! ## All lanes -/

theorem sweep_mirrors {step step' : LaneStep} {number found found' : Nat} {lanes : List Lane}
    (h : ∀ lane ∈ lanes, StepMirrors shown file step step' lane)
    (hfaults : (sweep step number found lanes).2.filterMap (·.fault?) = [])
    (hfaults' : (sweep step' number found' lanes).2.filterMap (·.fault?) = []) :
    (sweep step' number found' lanes).1 = (sweep step number found lanes).1 ∧
      IsMirrored shown file ((sweep step number found lanes).2.flatMap (·.reports))
        ((sweep step' number found' lanes).2.flatMap (·.reports)) := by
  induction lanes generalizing number found found' with
  | nil => exact ⟨rfl, .nil⟩
  | cons lane rest ih =>
    simp only [sweep, List.filterMap_append, List.append_eq_nil_iff] at hfaults hfaults'
    have hone : ∀ call? : Option Call, call?.toList.filterMap (·.fault?) = [] → call?.bind (·.fault?) = none := by
      intro call? hnone
      cases call? with
      | none => rfl
      | some call => simpa using hnone
    obtain ⟨hlane, hreports⟩ := h lane List.mem_cons_self number found found' (hone _ hfaults.1) (hone _ hfaults'.1)
    obtain ⟨hlanes, hothers⟩ := ih (fun lane hlane => h lane (List.mem_cons_of_mem _ hlane)) hfaults.2 hfaults'.2
    simp only [sweep, List.flatMap_append]
    refine ⟨?_, hreports.append hothers⟩
    rw [hlane, hlanes]

/-- Whether a walk has come to the same as another one. -/
structure IsMirrorOf (shown : Rule → Bool) (file : Path) (w w' : Walk) : Prop where
  lanes : w'.lanes = w.lanes
  violations : IsMirrored shown file w.violations w'.violations

theorem IsMirrorOf.swept {step step' : LaneStep} {w w' : Walk} (h : IsMirrorOf shown file w w')
    (hstep : ∀ lane ∈ w.lanes, StepMirrors shown file step step' lane) (hfaults : (w.swept step).faults = [])
    (hfaults' : (w'.swept step').faults = []) : IsMirrorOf shown file (w.swept step) (w'.swept step') := by
  obtain ⟨-, hcalls⟩ := List.append_eq_nil_iff.1 hfaults
  obtain ⟨-, hcalls'⟩ := List.append_eq_nil_iff.1 hfaults'
  rw [h.lanes] at hcalls'
  obtain ⟨hlanes, hreports⟩ := sweep_mirrors hstep hcalls hcalls'
  unfold Walk.swept
  rw [h.lanes]
  exact ⟨hlanes, h.violations.append hreports⟩

/-! ## Faults stay -/

theorem faults_of_swept {w : Walk} {step : LaneStep} (h : (w.swept step).faults = []) : w.faults = [] :=
  (List.append_eq_nil_iff.1 h).1

theorem faults_of_visitAll {fs : List Focus} {w : Walk} (h : (w.visitAll ctx fs).faults = []) : w.faults = [] := by
  induction fs generalizing w with
  | nil => exact h
  | cons f fs ih => exact faults_of_swept (ih h)

theorem faults_run_filter {cs : List Checker} {p : Checker → Bool} (h : ∀ c ∈ cs, c.IsSelfContained) {bound : Nat}
    {root : Node} (hfaults : (run cs bound ctx root).faults = []) :
    (run (cs.filter p) bound ctx root).faults = [] := by
  rw [(recorded_run cs bound ctx root).faults, List.filterMap_eq_nil_iff] at hfaults
  rw [(recorded_run _ bound ctx root).faults, filterMap_fault?_eq (outcomes_filter h bound ctx root),
    List.filterMap_eq_nil_iff]
  exact fun call hcall => hfaults call (List.mem_of_mem_filter hcall)

/-! ## Whole walks -/

theorem IsMirrorOf.visitAll {cs : List Checker} (hcs : ∀ c ∈ cs, c.Mirrors shown ctx ctx' ∧ c.OnlyReports)
    {fs : List Focus} {w w' : Walk} (h : IsMirrorOf shown ctx'.relative w w') (hw : w.lanes.map (·.checker) = cs)
    (hfaults : (w.visitAll ctx fs).faults = []) (hfaults' : (w'.visitAll ctx' fs).faults = []) :
    IsMirrorOf shown ctx'.relative (w.visitAll ctx fs) (w'.visitAll ctx' fs) := by
  induction fs generalizing w w' with
  | nil => exact h
  | cons f fs ih =>
    refine ih (h.swept ?_ (faults_of_visitAll hfaults) (faults_of_visitAll hfaults'))
      ((map_checker_swept_visitStep ctx f w).trans hw) hfaults hfaults'
    intro lane hlane
    obtain ⟨hmirrors, honly⟩ := hcs lane.checker (hw ▸ List.mem_map_of_mem hlane)
    exact stepMirrors_visit hmirrors honly

/-- Checkers that mirror what they do find the same in both files, when none of them fails. -/
theorem isMirrored_run {cs : List Checker} (hcs : ∀ c ∈ cs, c.Mirrors shown ctx ctx' ∧ c.OnlyReports) {bound : Nat}
    {root : Node} (hfaults : (run cs bound ctx root).faults = []) (hfaults' : (run cs bound ctx' root).faults = []) :
    IsMirrored shown ctx'.relative (run cs bound ctx root).violations (run cs bound ctx' root).violations := by
  rw [run_eq] at hfaults hfaults' ⊢
  rw [run_eq]
  have hvisited : ((started ctx cs).visitAll ctx ((Focus.root root).within bound)).faults = [] :=
    faults_of_swept hfaults
  have hvisited' : ((started ctx' cs).visitAll ctx' ((Focus.root root).within bound)).faults = [] :=
    faults_of_swept hfaults'
  have hidle : ∀ lane ∈ (idle cs).lanes, lane.checker ∈ cs := by
    intro lane hlane
    obtain ⟨c, hc, rfl⟩ := List.mem_map.1 hlane
    exact hc
  have hstarted : IsMirrorOf shown ctx'.relative (started ctx cs) (started ctx' cs) :=
    IsMirrorOf.swept ⟨rfl, .nil⟩ (fun lane hlane => stepMirrors_start (hcs _ (hidle lane hlane)).1)
      (faults_of_visitAll hvisited) (faults_of_visitAll hvisited')
  have hall := hstarted.visitAll hcs (map_checker_started ctx cs) hvisited hvisited'
  have hmirror : IsMirrorOf shown ctx'.relative (visited cs bound ctx root) (visited cs bound ctx' root) :=
    ⟨hall.lanes, hall.violations⟩
  refine (hmirror.swept ?_ hfaults hfaults').violations
  intro lane hlane
  have hchecker := (map_checker_visitAll ctx ((Focus.root root).within bound) _).trans (map_checker_started ctx cs)
  obtain ⟨hmirrors, honly⟩ := hcs lane.checker (hchecker ▸ List.mem_map_of_mem hlane)
  exact stepMirrors_finish hmirrors honly

/-- Checkers that have no rule that is shown may do what they like. -/
theorem isMirrored_run_of_shown {cs : List Checker} (hself : ∀ c ∈ cs, c.IsSelfContained)
    (hcs : ∀ c ∈ cs, c.rules.any shown = true → c.Mirrors shown ctx ctx') {bound : Nat} {root : Node}
    (hfaults : (run cs bound ctx root).faults = []) (hfaults' : (run cs bound ctx' root).faults = []) :
    IsMirrored shown ctx'.relative (run cs bound ctx root).violations (run cs bound ctx' root).violations := by
  have hhidden : ∀ c ∈ cs, c.rules.any shown = false → ∀ r ∈ c.rules, shown r = false := by
    intro c _ hnone r hr
    exact Bool.eq_false_iff.2 (List.any_eq_false.1 hnone r hr)
  have hshown : ∀ c ∈ cs.filter fun c => c.rules.any shown, c.Mirrors shown ctx ctx' ∧ c.OnlyReports := by
    intro c hc
    obtain ⟨hmem, hany⟩ := List.mem_filter.1 hc
    exact ⟨hcs c hmem hany, (hself c hmem).onlyReports⟩
  have hmirrored :=
    isMirrored_run hshown (faults_run_filter hself hfaults) (faults_run_filter hself hfaults')
  unfold IsMirrored at hmirrored ⊢
  rwa [filter_violations_filter hself hhidden, filter_violations_filter hself hhidden] at hmirrored

end

end Walk
end Guardrails
