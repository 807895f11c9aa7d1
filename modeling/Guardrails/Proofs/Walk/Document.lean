import Guardrails.Proofs.Walk.Lanes

/-!
# Walks in document order

A walk that moves one cursor for all its checkers calls them as a plain recursion over the tree would, and
it says truly whether it has left something out.
-/

namespace Guardrails

namespace Walk

/-! ## What is on record -/

/-- Which place is handed to which checker, in order. -/
def visits (w : Walk) : List (Focus × Nat) :=
  w.log.filterMap fun call => call.focus?.map (·, call.number)

/-- Whether the checker with this number is to be handed a place, by what is on record about it. -/
def isDue (w : Walk) (cs : List Checker) (ctx : FileContext) (number : Nat) (f : Focus) : Bool :=
  cs[number]?.any fun c => c.wants ctx (w.callsOf number) f

/-- Whether the checker with this number is to be finished. -/
def isToFinish (w : Walk) (cs : List Checker) (ctx : FileContext) (number : Nat) : Bool :=
  cs[number]?.any fun c =>
    (c.start ctx).isOk && !(w.callsOf number).any (·.failedAt?.isSome)

def visitCalls (w : Walk) : List Call :=
  w.log.filter (·.focus?.isSome)

def finishCalls (w : Walk) : List Call :=
  w.log.filter (·.occasion.isFinish)

theorem reverse_callsOf (w : Walk) (i : Nat) : (w.callsOf i).reverse = w.log.filter (·.number == i) := by
  rw [callsOf, log, List.filter_reverse]

theorem mem_callsOf {w : Walk} {i : Nat} {call : Call} :
    call ∈ w.callsOf i ↔ call ∈ w.log ∧ call.number = i := by
  rw [← List.mem_reverse, reverse_callsOf, List.mem_filter, beq_iff_eq]

/-- Whether a walk is the plain one: the places within the depth are handed out in document order, each to
the checkers it is due in the order of the list, and every call says what its checker answers. -/
structure IsPlain (cs : List Checker) (bound : Nat) (ctx : FileContext) (root : Node) (w : Walk) : Prop where
  visits : w.visits = (Focus.root root).subtree.flatMap fun f =>
    ((List.range cs.length).filter fun i => decide (f.depth ≤ bound) && w.isDue cs ctx i f).map (f, ·)
  finishes : w.finishCalls.map (·.number) = (List.range cs.length).filter (w.isToFinish cs ctx)
  answers : ∀ (i : Nat) (c : Checker), cs[i]? = some c → c.Answers ctx (w.callsOf i)
  found : Accounted w.calls

/-! ## What later calls change -/

section

variable {ctx : FileContext} {f : Focus}

theorem wants_append {more calls : List Call} (c : Checker)
    (h : ∀ call ∈ more, ∀ g, call.focus? = some g → g.isBefore f = false) :
    c.wants ctx (more ++ calls) f = c.wants ctx calls f := by
  have hfailed : hasFailedBefore more f = false := by
    rw [hasFailedBefore, List.any_eq_false]
    intro call hcall hany
    obtain ⟨g, hg, hbefore⟩ := (Option.any_eq_true _ _).1 hany
    exact Bool.false_ne_true ((h call hcall g (Call.focus?_of_failedAt? hg)).symm.trans hbefore)
  have hskipped : isSkipped more f = false := by
    rw [isSkipped, List.any_eq_false]
    intro call hcall hany
    obtain ⟨g, hg, habove⟩ := (Option.any_eq_true _ _).1 hany
    have hbefore := Focus.isBefore_of_isAbove habove
    exact Bool.false_ne_true ((h call hcall g (Call.focus?_of_skippedAt? hg)).symm.trans hbefore)
  rw [hasFailedBefore] at hfailed
  rw [isSkipped] at hskipped
  simp only [Checker.wants, hasFailedBefore, isSkipped, List.any_append, hfailed, hskipped, Bool.false_or]

theorem isDue_of_append {w w' : Walk} {more : List Call} (hcalls : w'.calls = more ++ w.calls)
    (h : ∀ call ∈ more, ∀ g, call.focus? = some g → g.isBefore f = false)
    (cs : List Checker) (i : Nat) : w'.isDue cs ctx i f = w.isDue cs ctx i f := by
  unfold isDue callsOf
  rw [hcalls, List.filter_append]
  congr 1
  funext c
  exact wants_append c fun call hcall => h call (List.mem_of_mem_filter hcall)

/-! ## One place -/

/-- Whether all lanes of a walk come to a place. -/
def ComesTo (ctx : FileContext) (f : Focus) (w : Walk) : Prop :=
  ∀ (i : Nat) (lane : Lane), w.lanes[i]? = some lane → lane.ComesTo ctx f (w.callsOf i)

/-- Whether all lanes of a walk are where their checkers are. -/
def IsOnRecord (ctx : FileContext) (w : Walk) : Prop :=
  ∀ (i : Nat) (lane : Lane), w.lanes[i]? = some lane → lane.IsAfter ctx (w.callsOf i)

theorem IsOnRecord.visit {w : Walk} (h : w.IsOnRecord ctx) (f : Focus) :
    (w.swept (visitStep ctx f)).IsOnRecord ctx :=
  swept_lanes (isAccurate_visitStep ctx f) (fun i k _ _ hlane => hlane.visitStep f i k) h

theorem ComesTo.visit {w : Walk} (h : w.ComesTo ctx f) {g : Focus} (hleads : f.LeadsTo g)
    (hbefore : f.isBefore g = true) : (w.swept (visitStep ctx f)).ComesTo ctx g :=
  swept_lanes (isAccurate_visitStep ctx f) (fun i k _ _ hlane => (hlane.visit i k).comesTo hleads hbefore) h

theorem focus?_of_mem_sweep {number found : Nat} {lanes : List Lane} {call : Call}
    (h : call ∈ (sweep (visitStep ctx f) number found lanes).2) : call.focus? = some f := by
  obtain ⟨i, k, lane, -, hcall⟩ := exists_of_mem_sweep h
  obtain ⟨state, rfl⟩ := visitStep_eq_some hcall
  rfl

theorem visits_after (w : Walk) (lanes : List Lane) (calls : List Call) :
    (w.after lanes calls).visits =
      w.visits ++ calls.filterMap fun call => call.focus?.map (·, call.number) := by
  rw [visits, log_after, List.filterMap_append, visits]

/-- A place is handed to the checkers that it is due. -/
theorem ComesTo.visits_visit {w : Walk} (h : w.ComesTo ctx f) {cs : List Checker}
    (hcs : w.lanes.map (·.checker) = cs) :
    (w.swept (visitStep ctx f)).visits =
      w.visits ++ ((List.range cs.length).filter fun i => w.isDue cs ctx i f).map (f, ·) := by
  have hnumbers : (sweep (visitStep ctx f) 0 w.violations.length w.lanes).2.map (·.number) =
      (List.range' 0 w.lanes.length).filter fun i => w.isDue cs ctx i f := by
    refine map_number_sweep (isAccurate_visitStep ctx f) 0 _ _ fun i lane hlane k => ?_
    have hchecker : cs[i]? = some lane.checker := by rw [← hcs, List.getElem?_map, hlane]; rfl
    rw [Nat.zero_add, (h i lane hlane).wants_eq, isDue, hchecker, Option.any_some]
  have hlength : w.lanes.length = cs.length := by rw [← hcs, List.length_map]
  rw [← List.range_eq_range', hlength] at hnumbers
  rw [swept, visits_after, ← hnumbers, List.map_map, ← List.filterMap_eq_map]
  congr 1
  refine List.filterMap_congr fun call hcall => ?_
  rw [focus?_of_mem_sweep hcall]
  rfl

end

/-! ## All places -/

section

variable {ctx : FileContext} {cs : List Checker}

theorem IsOnRecord.visitAll {w : Walk} (h : w.IsOnRecord ctx) (fs : List Focus) :
    (w.visitAll ctx fs).IsOnRecord ctx := by
  induction fs generalizing w with
  | nil => exact h
  | cons f fs ih => exact ih (h.visit f)

theorem Recorded.visitAll {w : Walk} (h : w.Recorded) (ctx : FileContext) (fs : List Focus) :
    (w.visitAll ctx fs).Recorded := by
  induction fs generalizing w with
  | nil => exact h
  | cons f fs ih => exact ih (h.swept (isAccurate_visitStep ctx f))

theorem calls_visitAll (ctx : FileContext) (w : Walk) (fs : List Focus) :
    ∃ more, (w.visitAll ctx fs).calls = more ++ w.calls ∧
      ∀ call ∈ more, ∃ f ∈ fs, call.focus? = some f := by
  induction fs generalizing w with
  | nil => exact ⟨[], rfl, by simp⟩
  | cons f fs ih =>
    obtain ⟨more, hcalls, hmore⟩ := ih (w.swept (visitStep ctx f))
    rw [visitAll_cons, hcalls, swept, calls_after, ← List.append_assoc]
    refine ⟨_, rfl, ?_⟩
    intro call hcall
    rcases List.mem_append.1 hcall with hcall | hcall
    · obtain ⟨g, hg, hfocus⟩ := hmore call hcall
      exact ⟨g, List.mem_cons_of_mem _ hg, hfocus⟩
    · exact ⟨f, List.mem_cons_self, focus?_of_mem_sweep (List.mem_reverse.1 hcall)⟩

/-- The places of a chain are handed out one by one, each to the checkers that it is due by the record of
the whole walk. -/
theorem visits_visitAll {w final : Walk} {fs : List Focus} {more : List Call}
    (hchain : fs.IsChain Focus.LeadsTo) (hpairwise : fs.Pairwise fun f g => f.isBefore g = true)
    (hcomes : ∀ f ∈ fs.head?, w.ComesTo ctx f) (hcs : w.lanes.map (·.checker) = cs)
    (hfinal : final.calls = more ++ (w.visitAll ctx fs).calls)
    (hmore : ∀ call ∈ more, call.focus? = none) :
    (w.visitAll ctx fs).visits =
      w.visits ++ fs.flatMap fun f =>
        ((List.range cs.length).filter fun i => final.isDue cs ctx i f).map (f, ·) := by
  induction fs generalizing w with
  | nil => simp [visitAll_nil]
  | cons f fs ih =>
    obtain ⟨hlater, hpairwise⟩ := List.pairwise_cons.1 hpairwise
    have hhere : w.ComesTo ctx f := hcomes f rfl
    have hnext : ∀ g ∈ fs.head?, (w.swept (visitStep ctx f)).ComesTo ctx g := fun g hg =>
      hhere.visit (hchain.rel_head? hg) (hlater g (List.mem_of_mem_head? hg))
    have hrest := ih hchain.tail hpairwise hnext
      ((map_checker_swept_visitStep ctx f w).trans hcs) hfinal
    have hdue : ∀ i, final.isDue cs ctx i f = w.isDue cs ctx i f := by
      obtain ⟨next, hcalls, hfocus⟩ := calls_visitAll ctx w (f :: fs)
      rw [hcalls, ← List.append_assoc] at hfinal
      refine isDue_of_append hfinal ?_ cs
      intro call hcall g hg
      rcases List.mem_append.1 hcall with hcall | hcall
      · rw [hmore call hcall] at hg
        cases hg
      · obtain ⟨x, hx, hcallx⟩ := hfocus call hcall
        obtain rfl : x = g := Option.some.inj (hcallx.symm.trans hg)
        rcases List.mem_cons.1 hx with rfl | hx
        · exact Focus.isBefore_irrefl x
        · exact Focus.isBefore_asymm (hlater x hx)
    rw [visitAll_cons, hrest, hhere.visits_visit hcs, List.flatMap_cons, List.append_assoc]
    simp only [hdue]

end

/-! ## Whole walks -/

section

variable (cs : List Checker) (bound : Nat) (ctx : FileContext) (root : Node)

theorem recorded_started : (started ctx cs).Recorded :=
  Recorded.swept ⟨rfl, rfl, trivial, by simp [idle]⟩ (isAccurate_startStep ctx)

theorem comesTo_started (f : Focus) : (started ctx cs).ComesTo ctx f :=
  swept_lanes (P := fun _ calls => calls = []) (isAccurate_startStep ctx)
    (by
      rintro i k lane calls rfl
      rw [List.append_nil]
      exact Lane.comesTo_start ctx f i k lane)
    fun _ _ _ => rfl

theorem isOnRecord_visited : (visited cs bound ctx root).IsOnRecord ctx :=
  IsOnRecord.visitAll (fun i lane hlane => (comesTo_started cs ctx (.root root) i lane hlane).toIsAfter) _

theorem map_checker_visited : (visited cs bound ctx root).lanes.map (·.checker) = cs :=
  (map_checker_visitAll ctx _ _).trans (map_checker_started ctx cs)

theorem map_checker_run : (run cs bound ctx root).lanes.map (·.checker) = cs := by
  rw [run_eq, swept, lanes_after, sweep_finishStep_lanes, map_checker_visited]

theorem recorded_run : (run cs bound ctx root).Recorded := by
  rw [run_eq]
  have hvisited := (recorded_started cs ctx).visitAll ctx ((Focus.root root).within bound)
  exact Recorded.swept ⟨hvisited.violations, hvisited.faults, hvisited.found, hvisited.number⟩
    (isAccurate_finishStep ctx)

/-- The calls that finish the checkers of a walk, in order. -/
def lastCalls : List Call :=
  (sweep (finishStep ctx) 0 (visited cs bound ctx root).violations.length
    (visited cs bound ctx root).lanes).2

theorem occasion_of_mem_started {call : Call} (h : call ∈ (started ctx cs).log) :
    call.occasion = .start ∧ call.reports = [] := by
  rw [started, swept, log_after, idle] at h
  obtain ⟨i, k, lane, -, hcall⟩ := exists_of_mem_sweep (show call ∈ _ from h)
  cases hcall
  exact ⟨rfl, rfl⟩

theorem occasion_of_mem_lastCalls {call : Call} (h : call ∈ lastCalls cs bound ctx root) :
    call.occasion = .finish := by
  obtain ⟨i, k, lane, -, hcall⟩ := exists_of_mem_sweep h
  obtain ⟨state, -, rfl⟩ := finishLane?_eq_some hcall
  rfl

theorem focus?_of_mem_lastCalls {call : Call} (h : call ∈ lastCalls cs bound ctx root) :
    call.focus? = none := by
  rw [Call.focus?, occasion_of_mem_lastCalls cs bound ctx root h]
  rfl

theorem calls_run : (run cs bound ctx root).calls =
    (lastCalls cs bound ctx root).reverse ++ (visited cs bound ctx root).calls := by
  rw [run_eq]
  rfl

theorem callsOf_run (i : Nat) : (run cs bound ctx root).callsOf i =
    (lastCalls cs bound ctx root).reverse.filter (·.number == i) ++
      (visited cs bound ctx root).callsOf i := by
  rw [callsOf, calls_run, List.filter_append, callsOf]

theorem exists_log_run : ∃ handed, (∀ call ∈ handed, ∃ f, call.focus? = some f) ∧
    (run cs bound ctx root).log =
      (started ctx cs).log ++ handed ++ lastCalls cs bound ctx root := by
  obtain ⟨more, hcalls, hmore⟩ :=
    calls_visitAll ctx (started ctx cs) ((Focus.root root).within bound)
  refine ⟨more.reverse, ?_, ?_⟩
  · intro call hcall
    obtain ⟨f, -, hf⟩ := hmore call (List.mem_reverse.1 hcall)
    exact ⟨f, hf⟩
  · rw [log, calls_run, visited]
    simp only [hcalls, List.reverse_append, List.reverse_reverse, log]

theorem finishCalls_run : (run cs bound ctx root).finishCalls = lastCalls cs bound ctx root := by
  obtain ⟨handed, hhanded, hlog⟩ := exists_log_run cs bound ctx root
  rw [finishCalls, hlog, List.filter_append, List.filter_append, List.filter_eq_nil_iff.2,
    List.filter_eq_nil_iff.2, List.filter_eq_self.2, List.nil_append, List.nil_append]
  · intro call hcall
    simp [occasion_of_mem_lastCalls cs bound ctx root hcall, Occasion.isFinish]
  · intro call hcall
    obtain ⟨f, hf⟩ := hhanded call hcall
    simp [Call.isFinish_of_focus? hf]
  · intro call hcall
    simp [(occasion_of_mem_started cs ctx hcall).1, Occasion.isFinish]

/-- The record of a walk: the starts, then the places handed out, then the finishes. -/
theorem log_run : (run cs bound ctx root).log =
    (started ctx cs).log ++ (run cs bound ctx root).visitCalls ++ (run cs bound ctx root).finishCalls := by
  obtain ⟨handed, hhanded, hlog⟩ := exists_log_run cs bound ctx root
  have hvisits : (run cs bound ctx root).visitCalls = handed := by
    rw [visitCalls, hlog, List.filter_append, List.filter_append, List.filter_eq_nil_iff.2,
      List.filter_eq_self.2, List.filter_eq_nil_iff.2, List.nil_append, List.append_nil]
    · intro call hcall
      simp [focus?_of_mem_lastCalls cs bound ctx root hcall]
    · intro call hcall
      obtain ⟨f, hf⟩ := hhanded call hcall
      simp [hf]
    · intro call hcall
      simp [Call.focus?, (occasion_of_mem_started cs ctx hcall).1, Occasion.focus?]
  rw [hvisits, finishCalls_run, hlog]

/-! ## What a walk comes to -/

theorem visits_run : (run cs bound ctx root).visits = (Focus.root root).subtree.flatMap fun f =>
    ((List.range cs.length).filter fun i =>
      decide (f.depth ≤ bound) && (run cs bound ctx root).isDue cs ctx i f).map (f, ·) := by
  have hvisited : (run cs bound ctx root).visits =
      ((started ctx cs).visitAll ctx ((Focus.root root).within bound)).visits := by
    rw [run_eq, swept, visits_after, List.filterMap_eq_nil_iff.2, List.append_nil]
    · rfl
    · intro call hcall
      rw [focus?_of_mem_lastCalls cs bound ctx root hcall]
      rfl
  have hstarted : (started ctx cs).visits = [] := by
    rw [visits, List.filterMap_eq_nil_iff]
    intro call hcall
    rw [Call.focus?, (occasion_of_mem_started cs ctx hcall).1]
    rfl
  rw [hvisited, visits_visitAll (Focus.isChain_within bound root)
    ((Focus.subtree_pairwise (.root root)).filter _) (fun f _ => comesTo_started cs ctx f)
    (map_checker_started ctx cs) (calls_run cs bound ctx root)
    (fun call hcall => focus?_of_mem_lastCalls cs bound ctx root (List.mem_reverse.1 hcall)),
    hstarted, List.nil_append, Focus.flatMap_within]
  congr 1
  funext f
  by_cases hdepth : f.depth ≤ bound <;> simp [hdepth]

theorem finishes_run : (run cs bound ctx root).finishCalls.map (·.number) =
    (List.range cs.length).filter ((run cs bound ctx root).isToFinish cs ctx) := by
  have hfinish : ∀ i, (run cs bound ctx root).isToFinish cs ctx i =
      (visited cs bound ctx root).isToFinish cs ctx i := by
    intro i
    have hlast : ((lastCalls cs bound ctx root).reverse.filter (·.number == i)).any
        (·.failedAt?.isSome) = false := by
      rw [List.any_eq_false]
      intro call hcall
      have hmem := List.mem_reverse.1 (List.mem_of_mem_filter hcall)
      simp [Call.failedAt?, focus?_of_mem_lastCalls cs bound ctx root hmem]
    simp only [isToFinish, callsOf_run, List.any_append, hlast, Bool.false_or]
  have hnumbers : (lastCalls cs bound ctx root).map (·.number) =
      (List.range' 0 (visited cs bound ctx root).lanes.length).filter
        ((visited cs bound ctx root).isToFinish cs ctx) := by
    refine map_number_sweep (isAccurate_finishStep ctx) 0 _ _ fun i lane hlane k => ?_
    have hchecker : cs[i]? = some lane.checker := by
      rw [← map_checker_visited cs bound ctx root, List.getElem?_map, hlane]
      rfl
    rw [Lane.isSome_finishStep, (isOnRecord_visited cs bound ctx root i lane hlane).alive,
      Nat.zero_add, isToFinish, hchecker, Option.any_some]
  have hlength : (visited cs bound ctx root).lanes.length = cs.length := by
    rw [← List.length_map, map_checker_visited]
  rw [finishCalls_run, hnumbers, hlength, ← List.range_eq_range']
  exact List.filter_congr fun i _ => (hfinish i).symm

theorem answers_run (i : Nat) (c : Checker) (hc : cs[i]? = some c) :
    c.Answers ctx ((run cs bound ctx root).callsOf i) := by
  have hlanes : ∀ (i : Nat) (lane : Lane), (run cs bound ctx root).lanes[i]? = some lane →
      lane.checker.Answers ctx ((run cs bound ctx root).callsOf i) := by
    rw [run_eq]
    exact swept_lanes (isAccurate_finishStep ctx) (fun i k _ _ hlane => hlane.finish i k)
      (isOnRecord_visited cs bound ctx root)
  rw [← map_checker_run cs bound ctx root, List.getElem?_map, Option.map_eq_some_iff] at hc
  obtain ⟨lane, hlane, rfl⟩ := hc
  exact hlanes i lane hlane

theorem exists_checker_of_mem_log {call : Call} (h : call ∈ (run cs bound ctx root).log) :
    ∃ c earlier, cs[call.number]? = some c ∧
      c.call? ctx call.number call.found earlier call.occasion = some call := by
  have hlt := (recorded_run cs bound ctx root).number call (List.mem_reverse.1 h)
  rw [← List.length_map, map_checker_run] at hlt
  have hanswers := answers_run cs bound ctx root call.number _ (List.getElem?_eq_getElem hlt)
  obtain ⟨earlier, hearlier⟩ := hanswers.exists_call? (mem_callsOf.2 ⟨h, rfl⟩)
  exact ⟨_, earlier, List.getElem?_eq_getElem hlt, hearlier⟩

theorem violations_run : (run cs bound ctx root).violations =
    (run cs bound ctx root).visitCalls.flatMap (·.reports) ++
      (run cs bound ctx root).finishCalls.flatMap (·.reports) := by
  have hstarted : (started ctx cs).log.flatMap (·.reports) = [] :=
    List.flatMap_eq_nil_iff.2 fun call hcall => (occasion_of_mem_started cs ctx hcall).2
  rw [(recorded_run cs bound ctx root).violations]
  conv_lhs => rw [log_run]
  rw [List.flatMap_append, List.flatMap_append, hstarted, List.nil_append]

theorem depthLimited_run : (run cs bound ctx root).depthLimited = true ↔
    ∃ f ∈ (Focus.root root).subtree, f.depth = bound + 1 := by
  rw [run_eq, swept, depthLimited_after, visited]
  simp only [List.any_eq_true, beq_iff_eq]

theorem run_of_le {bigger : Nat} (h : (run cs bound ctx root).depthLimited = false)
    (hbigger : bound ≤ bigger) : run cs bigger ctx root = run cs bound ctx root := by
  have hdepth : ∀ f ∈ (Focus.root root).subtree, f.depth ≤ bound := by
    intro f hf
    by_contra hdeep
    obtain ⟨g, hg, hgdepth⟩ :=
      Focus.exists_depth_of_mem_subtree (d := bound + 1) hf (Nat.zero_le _) (by omega)
    rw [(depthLimited_run cs bound ctx root).2 ⟨g, hg, hgdepth⟩] at h
    cases h
  have hwithin : ∀ depth, bound ≤ depth →
      (Focus.root root).within depth = (Focus.root root).subtree :=
    fun depth hle => Focus.within_eq_subtree fun f hf => Nat.le_trans (hdepth f hf) hle
  have hlimited : ∀ depth, bound ≤ depth →
      (Focus.root root).subtree.any (·.depth == depth + 1) = false := by
    intro depth hle
    rw [List.any_eq_false]
    intro f hf heq
    have := hdepth f hf
    have := beq_iff_eq.1 heq
    omega
  have hbound : bound ≤ bound := Nat.le_refl bound
  rw [run_eq, run_eq, visited, visited, hwithin bigger hbigger, hwithin bound hbound,
    hlimited bigger hbigger, hlimited bound hbound]

/-- One cursor moved for all checkers makes the walk of the plain recursion, to its end. What is found is
what the visits and then the finishes report. The walk says truly whether it has left something out, and
otherwise going deeper makes no difference. -/
theorem ofWalk_isPlain :
    (run cs bound ctx root).IsPlain cs bound ctx root ∧
      (FileAnalysis.ofWalk cs bound ctx root).violations =
        (run cs bound ctx root).visitCalls.flatMap (·.reports) ++
          (run cs bound ctx root).finishCalls.flatMap (·.reports) ∧
      ((FileAnalysis.ofWalk cs bound ctx root).depthLimited = true ↔
        ∃ f ∈ (Focus.root root).subtree, f.depth = bound + 1) ∧
      ((FileAnalysis.ofWalk cs bound ctx root).depthLimited = false → ∀ bigger, bound ≤ bigger →
        FileAnalysis.ofWalk cs bigger ctx root = FileAnalysis.ofWalk cs bound ctx root) := by
  refine ⟨⟨?_, ?_, ?_, ?_⟩, ?_, ?_, ?_⟩
  · exact visits_run cs bound ctx root
  · exact finishes_run cs bound ctx root
  · exact answers_run cs bound ctx root
  · exact (recorded_run cs bound ctx root).found
  · exact violations_run cs bound ctx root
  · exact depthLimited_run cs bound ctx root
  · intro hlimited bigger hbigger
    rw [FileAnalysis.ofWalk, run_of_le cs bound ctx root hlimited hbigger, FileAnalysis.ofWalk]

end

end Walk
end Guardrails
