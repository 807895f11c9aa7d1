import Guardrails.Proofs.Walk.Isolation

/-!
# Walks that follow another

A walk over a second tree, or for a second file, follows one over a first when its checkers do at the places
of the second tree what they do at those of the first. Places of the first tree that no checker asks for and
that have nothing below them may be missing from the second.
-/

namespace Guardrails

def Reply.mapValue {α β : Type} (g : α → β) (x : Reply α) : Reply β :=
  ⟨x.reports, x.result.map g⟩

@[simp] theorem Reply.failure?_mapValue {α β : Type} (g : α → β) (x : Reply α) :
    (x.mapValue g).failure? = x.failure? := by
  unfold mapValue failure?
  cases x.result <;> rfl

/-- Whether a checker says about the file of `ctx'`, at the place that a place is moved to, what it says about
the file of `ctx`. Its states are changed by `image`. -/
structure Checker.Follows (c : Checker) (ctx ctx' : FileContext) (covers : Focus → Prop)
    (move : Focus → Focus) (image : c.State → c.State) : Prop where
  start : c.start ctx' = (c.start ctx).map image
  visit : ∀ state f k, covers f → f.node.kind ∈ c.kinds →
    c.visit ctx' (image state) (move f) k =
      (c.visit ctx state f k).mapValue fun next => (image next.1, next.2)
  finish : ∀ state k, c.finish ctx' (image state) k = c.finish ctx state k

/-- Whether places keep what a walk tells about them. -/
structure Focus.Keeps (covers : Focus → Prop) (move : Focus → Focus) : Prop where
  kind : ∀ f, covers f → (move f).node.kind = f.node.kind
  start : ∀ f, covers f → (move f).node.start = f.node.start
  depth : ∀ f, covers f → (move f).depth = f.depth

/-- Whether two files are the same in the eyes of a walk. -/
structure FileContext.LooksLike (ctx' ctx : FileContext) : Prop where
  relative : ctx'.relative = ctx.relative
  source : ctx'.source = ctx.source

namespace Walk

section

variable {ctx ctx' : FileContext} {covers : Focus → Prop} {move : Focus → Focus}
  {image : ∀ c : Checker, c.State → c.State}

/-! ## One lane -/

/-- The lane with its state changed. -/
def moveLane (image : ∀ c : Checker, c.State → c.State) (lane : Lane) : Lane :=
  ⟨lane.checker, lane.state?.map (image lane.checker), lane.skipFrom?⟩

/-- Whether a step does to a changed lane what another one does to the lane. -/
def StepFollows (image : ∀ c : Checker, c.State → c.State) (step step' : LaneStep) (lane : Lane) : Prop :=
  ∀ i k, (step' i k (moveLane image lane)).1 = moveLane image (step i k lane).1 ∧
    (step' i k (moveLane image lane)).2.map Call.outcome = (step i k lane).2.map Call.outcome

theorem faultAt_none (h : ctx'.LooksLike ctx) (c : Checker) : faultAt ctx' c none = faultAt ctx c none := by
  funext e
  unfold faultAt
  rw [h.relative]
  rfl

theorem faultAt_some (h : ctx'.LooksLike ctx) (c : Checker) {n n' : Node} (hkind : n'.kind = n.kind)
    (hstart : n'.start = n.start) : faultAt ctx' c (some n') = faultAt ctx c (some n) := by
  funext e
  simp only [faultAt, Option.map_some, Source.positionOf, h.relative, h.source, hkind, hstart]

theorem stepFollows_start (h : ctx'.LooksLike ctx) {lane : Lane}
    (hc : lane.checker.Follows ctx ctx' covers move (image lane.checker)) :
    StepFollows image (startStep ctx) (startStep ctx') lane := by
  intro i k
  unfold startStep startLane moveLane
  rw [hc.start]
  cases lane.checker.start ctx with
  | error e =>
    simp [Reply.ofExcept, Except.map, Reply.value?, startCall, Reply.failure?, Call.outcome,
      faultAt_none h]
  | ok state =>
    simp [Reply.ofExcept, Except.map, Reply.value?, startCall, Reply.failure?, Call.outcome]

theorem releaseLane_eq (depth : Nat) (lane : Lane) :
    releaseLane depth lane = ⟨lane.checker, lane.state?, lane.skipFrom?.filter (· < depth)⟩ := by
  obtain ⟨c, state?, skipFrom?⟩ := lane
  unfold releaseLane
  cases skipFrom? with
  | none => rfl
  | some skipped =>
    by_cases hdepth : depth ≤ skipped
    · simp [hdepth, Option.filter]
    · simp [hdepth, Option.filter, Nat.lt_of_not_le hdepth]

theorem releaseLane_moveLane (depth : Nat) (lane : Lane) :
    releaseLane depth (moveLane image lane) = moveLane image (releaseLane depth lane) := by
  rw [releaseLane_eq, releaseLane_eq]
  rfl

theorem settleLane_moveLane (depth : Nat) (lane : Lane)
    (result : Except Failure (lane.checker.State × Visit)) :
    settleLane depth (moveLane image lane) (result.map fun next => (image lane.checker next.1, next.2)) =
      moveLane image (settleLane depth lane result) := by
  rcases result with e | ⟨state, visit⟩
  · rfl
  · cases visit <;> rfl

theorem stepFollows_visit (h : ctx'.LooksLike ctx) (hkeeps : Focus.Keeps covers move) {f : Focus}
    (hf : covers f) {lane : Lane}
    (hc : lane.checker.Follows ctx ctx' covers move (image lane.checker)) :
    StepFollows image (visitStep ctx f) (visitStep ctx' (move f)) lane := by
  intro i k
  unfold visitStep
  have hchecker : (moveLane image lane).checker = lane.checker := rfl
  rw [hchecker, hkeeps.kind f hf, hkeeps.depth f hf, releaseLane_moveLane]
  by_cases hkind : f.node.kind ∈ lane.checker.kinds
  · rw [if_pos hkind, if_pos hkind]
    obtain ⟨skipFrom?, hreleased⟩ := exists_releaseLane f.depth lane
    rw [hreleased]
    unfold visitLane?
    simp only [moveLane]
    cases skipFrom? with
    | some skipped => exact ⟨rfl, rfl⟩
    | none =>
      cases lane.state? with
      | none => exact ⟨rfl, rfl⟩
      | some state =>
        simp only [Option.map_some, hc.visit state f k hf hkind]
        refine ⟨settleLane_moveLane f.depth ⟨lane.checker, some state, none⟩ _, ?_⟩
        have hfault : faultAt ctx' lane.checker (some (move f).node) =
            faultAt ctx lane.checker (some f.node) :=
          faultAt_some h lane.checker (hkeeps.kind f hf) (hkeeps.start f hf)
        simp only [visitCall, Call.outcome, hfault, Reply.failure?_mapValue]
        rfl
  · rw [if_neg hkind, if_neg hkind]
    exact ⟨rfl, rfl⟩

theorem stepFollows_finish (h : ctx'.LooksLike ctx) {lane : Lane}
    (hc : lane.checker.Follows ctx ctx' covers move (image lane.checker)) :
    StepFollows image (finishStep ctx) (finishStep ctx') lane := by
  intro i k
  refine ⟨rfl, ?_⟩
  unfold finishStep finishLane? moveLane
  cases lane.state? with
  | none => rfl
  | some state =>
    simp [hc.finish, finishCall, Call.outcome, faultAt_none h]

/-! ## All lanes -/

theorem sweep_follows {step step' : LaneStep} (number found : Nat) {lanes : List Lane}
    (h : ∀ lane ∈ lanes, StepFollows image step step' lane) :
    (sweep step' number found (lanes.map (moveLane image))).1 =
        (sweep step number found lanes).1.map (moveLane image) ∧
      (sweep step' number found (lanes.map (moveLane image))).2.map Call.outcome =
        (sweep step number found lanes).2.map Call.outcome := by
  induction lanes generalizing number found with
  | nil => exact ⟨rfl, rfl⟩
  | cons lane rest ih =>
    obtain ⟨hlane, hcall⟩ := h lane List.mem_cons_self number found
    have hreports : ((step' number found (moveLane image lane)).2.toList.flatMap (·.reports)) =
        (step number found lane).2.toList.flatMap (·.reports) := by
      cases hone : (step number found lane).2 <;>
        cases hother : (step' number found (moveLane image lane)).2 <;>
        simp_all [Call.outcome]
    obtain ⟨hlanes, hcalls⟩ := ih (number + 1)
      (found + ((step number found lane).2.toList.flatMap (·.reports)).length)
      fun lane hlane => h lane (List.mem_cons_of_mem _ hlane)
    rw [List.map_cons, sweep, sweep]
    simp only [hlane, hreports, hlanes, List.map_cons, List.map_append, hcalls, ← Option.toList_map, hcall]
    exact ⟨trivial, trivial⟩

/-- Whether a walk has come to the same as another one, its lanes being changed. -/
structure IsMoved (image : ∀ c : Checker, c.State → c.State) (w w' : Walk) : Prop where
  lanes : w'.lanes = w.lanes.map (moveLane image)
  violations : w'.violations = w.violations
  faults : w'.faults = w.faults

theorem IsMoved.swept {step step' : LaneStep} {w w' : Walk} (h : IsMoved image w w')
    (hstep : ∀ lane ∈ w.lanes, StepFollows image step step' lane) :
    IsMoved image (w.swept step) (w'.swept step') := by
  obtain ⟨hlanes, hcalls⟩ := sweep_follows 0 w.violations.length hstep
  have hreports := congrArg (List.flatMap Prod.fst) hcalls
  have hfaults := congrArg (List.filterMap Prod.snd) hcalls
  simp only [List.flatMap_map, List.filterMap_map] at hreports hfaults
  unfold Walk.swept
  rw [h.lanes, h.violations]
  refine ⟨hlanes, ?_, ?_⟩
  · simp only [after, h.violations]
    exact congrArg (w.violations ++ ·) hreports
  · simp only [after, h.faults]
    exact congrArg (w.faults ++ ·) hfaults

/-- Whether all lanes of a walk have checkers that follow. -/
def AllFollow (ctx ctx' : FileContext) (covers : Focus → Prop) (move : Focus → Focus)
    (image : ∀ c : Checker, c.State → c.State) (w : Walk) : Prop :=
  ∀ lane ∈ w.lanes, lane.checker.Follows ctx ctx' covers move (image lane.checker)

theorem AllFollow.of_map_checker {w : Walk} {cs : List Checker}
    (h : ∀ c ∈ cs, c.Follows ctx ctx' covers move (image c)) (hcs : w.lanes.map (·.checker) = cs) :
    AllFollow ctx ctx' covers move image w := by
  intro lane hlane
  apply h
  rw [← hcs]
  exact List.mem_map_of_mem hlane

theorem IsMoved.visitAll (hlike : ctx'.LooksLike ctx) (hkeeps : Focus.Keeps covers move) {fs : List Focus}
    (hfs : ∀ f ∈ fs, covers f) {w w' : Walk} (h : IsMoved image w w') {cs : List Checker}
    (hcs : w.lanes.map (·.checker) = cs) (hfollow : ∀ c ∈ cs, c.Follows ctx ctx' covers move (image c)) :
    IsMoved image (w.visitAll ctx fs) (w'.visitAll ctx' (fs.map move)) := by
  induction fs generalizing w w' with
  | nil => exact h
  | cons f fs ih =>
    rw [List.map_cons, visitAll_cons, visitAll_cons]
    refine ih (fun g hg => hfs g (List.mem_cons_of_mem _ hg)) (h.swept fun lane hlane => ?_)
      ((map_checker_swept_visitStep ctx f w).trans hcs)
    exact stepFollows_visit hlike hkeeps (hfs f List.mem_cons_self) (AllFollow.of_map_checker hfollow hcs lane hlane)

end

/-! ## Places that no checker asks for -/

section

variable {ctx : FileContext} {f : Focus} {keep : Focus → Bool}

theorem visitStep_releaseLane {depth : Nat} (h : f.depth ≤ depth) (i k : Nat) (lane : Lane) :
    visitStep ctx f i k (releaseLane depth lane) = visitStep ctx f i k lane := by
  have hrelease : releaseLane f.depth (releaseLane depth lane) = releaseLane f.depth lane := by
    simp only [releaseLane_eq, Option.filter_filter, Lane.mk.injEq, heq_eq_eq, true_and]
    congr 1
    funext skipped
    rw [← Bool.decide_and, decide_eq_decide]
    omega
  unfold visitStep
  rw [hrelease, checker_releaseLane]

theorem sweep_releaseLane {depth : Nat} (h : f.depth ≤ depth) (number found : Nat) (lanes : List Lane) :
    sweep (visitStep ctx f) number found (lanes.map (releaseLane depth)) =
      sweep (visitStep ctx f) number found lanes := by
  induction lanes generalizing number found with
  | nil => rfl
  | cons lane rest ih => simp only [List.map_cons, sweep, visitStep_releaseLane h, ih]

theorem sweep_of_unwanted (number found : Nat) {lanes : List Lane}
    (h : ∀ lane ∈ lanes, f.node.kind ∉ lane.checker.kinds) :
    sweep (visitStep ctx f) number found lanes = (lanes.map (releaseLane f.depth), []) := by
  induction lanes generalizing number found with
  | nil => rfl
  | cons lane rest ih =>
    have hlane : visitStep ctx f number found lane = (releaseLane f.depth lane, none) := by
      unfold visitStep
      exact if_neg (h lane List.mem_cons_self)
    simp [sweep, hlane, ih _ _ fun lane hlane => h lane (List.mem_cons_of_mem _ hlane)]

/-- The lane without its mark about skipping. -/
def unmarked (lane : Lane) : Lane :=
  ⟨lane.checker, lane.state?, none⟩

theorem sweep_finishStep_unmarked (number found : Nat) (lanes : List Lane) :
    (sweep (finishStep ctx) number found (lanes.map unmarked)).2 =
      (sweep (finishStep ctx) number found lanes).2 := by
  induction lanes generalizing number found with
  | nil => rfl
  | cons lane rest ih =>
    have hlane : (finishStep ctx number found (unmarked lane)).2 = (finishStep ctx number found lane).2 := by
      obtain ⟨c, state?, skipFrom?⟩ := lane
      cases state? <;> rfl
    simp only [List.map_cons, sweep, hlane, ih]

/-- Whether two walks have come to the same, marks about skipping aside. -/
structure IsLevel (w w' : Walk) : Prop where
  lanes : w'.lanes.map unmarked = w.lanes.map unmarked
  violations : w'.violations = w.violations
  faults : w'.faults = w.faults

theorem IsLevel.finish {w w' : Walk} (h : IsLevel w w') (ctx : FileContext) :
    (w'.swept (finishStep ctx)).violations = (w.swept (finishStep ctx)).violations ∧
      (w'.swept (finishStep ctx)).faults = (w.swept (finishStep ctx)).faults := by
  simp only [Walk.swept, after, ← sweep_finishStep_unmarked 0 _ w.lanes,
    ← sweep_finishStep_unmarked 0 _ w'.lanes, h.lanes, h.violations, h.faults, and_self]

/-- A place that no checker asks for, with nothing below it, only ends the skipping that the place after it ends
as well. -/
theorem isLevel_visitAll_filter {cs : List Checker} {fs : List Focus} {w : Walk}
    (hcs : w.lanes.map (·.checker) = cs)
    (hunwanted : ∀ f ∈ fs, keep f = false → ∀ c ∈ cs, f.node.kind ∉ c.kinds)
    (hchain : fs.IsChain fun f g => keep f = false → g.depth ≤ f.depth) :
    IsLevel (w.visitAll ctx fs) (w.visitAll ctx (fs.filter keep)) := by
  induction fs generalizing w with
  | nil => exact ⟨rfl, rfl, rfl⟩
  | cons f fs ih =>
    have hrest : ∀ g ∈ fs, keep g = false → ∀ c ∈ cs, g.node.kind ∉ c.kinds :=
      fun g hg => hunwanted g (List.mem_cons_of_mem _ hg)
    cases hkeep : keep f with
    | true =>
      rw [List.filter_cons_of_pos hkeep, visitAll_cons, visitAll_cons]
      exact ih ((map_checker_swept_visitStep ctx f w).trans hcs) hrest hchain.tail
    | false =>
      have hlanes : ∀ lane ∈ w.lanes, f.node.kind ∉ lane.checker.kinds := by
        intro lane hlane
        apply hunwanted f List.mem_cons_self hkeep
        rw [← hcs]
        exact List.mem_map_of_mem hlane
      have hswept : w.swept (visitStep ctx f) = { w with lanes := w.lanes.map (releaseLane f.depth) } := by
        rw [Walk.swept, sweep_of_unwanted _ _ hlanes]
        simp [after]
      rw [List.filter_cons_of_neg (by simp [hkeep]), visitAll_cons, hswept]
      cases fs with
      | nil =>
        refine ⟨?_, rfl, rfl⟩
        have hmark : ∀ lane, unmarked (releaseLane f.depth lane) = unmarked lane := by
          intro lane
          rw [releaseLane_eq]
          rfl
        simp only [List.filter_nil, visitAll_nil, List.map_map]
        exact List.map_congr_left fun lane _ => (hmark lane).symm
      | cons g fs =>
        have hdepth : g.depth ≤ f.depth := (List.isChain_cons_cons.1 hchain).1 hkeep
        have hsame : ({ w with lanes := w.lanes.map (releaseLane f.depth) } : Walk).visitAll ctx (g :: fs) =
            w.visitAll ctx (g :: fs) := by
          rw [visitAll_cons, visitAll_cons, Walk.swept, Walk.swept, sweep_releaseLane hdepth]
          rfl
        rw [hsame]
        exact ih hcs hrest hchain.tail

end

/-! ## Whole walks -/

theorem run_of_follows {ctx ctx' : FileContext} {covers : Focus → Prop} {move : Focus → Focus}
    {keep : Focus → Bool} {cs : List Checker} {bound : Nat} {root root' : Node} (hlike : ctx'.LooksLike ctx)
    (hkeeps : Focus.Keeps covers move)
    (hcs : ∀ c ∈ cs, ∃ image, c.Follows ctx ctx' covers move image)
    (hplaces : (Focus.root root').within bound = (((Focus.root root).within bound).filter keep).map move)
    (hcovers : ∀ f ∈ (Focus.root root).within bound, keep f = true → covers f)
    (hunwanted : ∀ f ∈ (Focus.root root).within bound, keep f = false → ∀ c ∈ cs, f.node.kind ∉ c.kinds)
    (hchain : ((Focus.root root).within bound).IsChain fun f g => keep f = false → g.depth ≤ f.depth) :
    (run cs bound ctx' root').violations = (run cs bound ctx root).violations ∧
      (run cs bound ctx' root').faults = (run cs bound ctx root).faults := by
  classical
  let image (c : Checker) : c.State → c.State :=
    if h : ∃ image, c.Follows ctx ctx' covers move image then h.choose else id
  have hfollow : ∀ c ∈ cs, c.Follows ctx ctx' covers move (image c) := by
    intro c hc
    have hexists := hcs c hc
    simp only [image, dif_pos hexists]
    exact hexists.choose_spec
  have hidle : IsMoved image (idle cs) (idle cs) :=
    ⟨by simp [idle, idleLane, moveLane], rfl, rfl⟩
  have hstarted : IsMoved image (started ctx cs) (started ctx' cs) := by
    have hcheckers : (idle cs).lanes.map (·.checker) = cs := by
      rw [idle, List.map_map]
      exact List.map_id cs
    exact hidle.swept fun lane hlane =>
      stepFollows_start hlike (AllFollow.of_map_checker hfollow hcheckers lane hlane)
  -- First the places that are missing are left out, and then the others are moved.
  have hlevel : IsLevel (visited cs bound ctx root)
      ((started ctx cs).visitAll ctx (((Focus.root root).within bound).filter keep)) := by
    obtain ⟨hlanes, hviolations, hfaults⟩ :=
      isLevel_visitAll_filter (map_checker_started ctx cs) hunwanted hchain
    exact ⟨hlanes, hviolations, hfaults⟩
  have hmoved : IsMoved image
      ((started ctx cs).visitAll ctx (((Focus.root root).within bound).filter keep)) (visited cs bound ctx' root') := by
    obtain ⟨hlanes, hviolations, hfaults⟩ := hstarted.visitAll hlike hkeeps
      (fun f hf => hcovers f (List.mem_of_mem_filter hf) (List.mem_filter.1 hf).2) (map_checker_started ctx cs)
      hfollow
    rw [← hplaces] at hlanes hviolations hfaults
    exact ⟨hlanes, hviolations, hfaults⟩
  have hfinished := hmoved.swept fun lane hlane => stepFollows_finish hlike (AllFollow.of_map_checker hfollow
    ((map_checker_visitAll ctx _ _).trans (map_checker_started ctx cs)) lane hlane)
  obtain ⟨hviolations, hfaults⟩ := hlevel.finish ctx
  rw [run_eq, run_eq]
  exact ⟨hfinished.violations.trans hviolations, hfinished.faults.trans hfaults⟩

end Walk
end Guardrails
