import Guardrails.Proofs.Tree.Tour
import Guardrails.Proofs.Walk.Dispatch
import Guardrails.Proofs.Walk.Sweep

/-!
# The parts of a walk

A walk starts its checkers, hands them the nodes of the tree down to the given depth in document order, and
finishes them. Each of these parts is a sweep over the lanes. The main statement, `run_eq`, puts a whole
walk together from sweeps.
-/

namespace Guardrails.Walk

/-! ## Starting -/

/-- A lane before its checker is started. -/
def idleLane (c : Checker) : Lane :=
  ⟨c, none, none⟩

def startStep (ctx : FileContext) : LaneStep := fun number found lane =>
  ((startLane ctx number found lane.checker).1, some (startLane ctx number found lane.checker).2)

theorem isAccurate_startStep (ctx : FileContext) : LaneStep.IsAccurate (startStep ctx) where
  number h := by
    cases h
    rfl
  found h := by
    cases h
    rfl

theorem foldl_startOne (ctx : FileContext) (cs : List Checker) (w : Walk) :
    cs.foldl (startOne ctx) w =
      w.after
        (w.lanes ++ (sweep (startStep ctx) w.lanes.length w.violations.length (cs.map idleLane)).1)
        (sweep (startStep ctx) w.lanes.length w.violations.length (cs.map idleLane)).2 := by
  induction cs generalizing w with
  | nil => simp [sweep, after_nil]
  | cons c cs ih =>
    rw [List.foldl_cons, ih, startOne, after_record]
    simp [record, sweep, startStep, idleLane]

def idle (cs : List Checker) : Walk :=
  ⟨cs.map idleLane, [], [], false, []⟩

theorem start_eq (ctx : FileContext) (cs : List Checker) :
    start ctx cs = (idle cs).swept (startStep ctx) := by
  rw [start, foldl_startOne]
  simp [swept, idle, after]

/-! ## Visiting -/

/-- What a visit does to one lane: the skipping may end, and the checker may be handed the node. -/
def visitStep (ctx : FileContext) (f : Focus) : LaneStep := fun number found lane =>
  if f.node.kind ∈ lane.checker.kinds then
    match visitLane? ctx f f.depth number found (releaseLane f.depth lane) with
    | some (lane, call) => (lane, some call)
    | none => (releaseLane f.depth lane, none)
  else (releaseLane f.depth lane, none)

theorem exists_releaseLane (depth : Nat) (lane : Lane) :
    ∃ skipFrom?, releaseLane depth lane = ⟨lane.checker, lane.state?, skipFrom?⟩ := by
  unfold releaseLane
  split
  · split_ifs
    · exact ⟨none, rfl⟩
    · exact ⟨lane.skipFrom?, rfl⟩
  · exact ⟨lane.skipFrom?, rfl⟩

@[simp] theorem checker_releaseLane (depth : Nat) (lane : Lane) :
    (releaseLane depth lane).checker = lane.checker := by
  obtain ⟨skipFrom?, hrelease⟩ := exists_releaseLane depth lane
  rw [hrelease]

@[simp] theorem checker_settleLane (depth : Nat) (lane : Lane)
    (result : Except Failure (lane.checker.State × Visit)) :
    (settleLane depth lane result).checker = lane.checker := by
  unfold settleLane
  split <;> rfl

theorem visitLane?_eq_some {ctx : FileContext} {f : Focus} {depth number found : Nat} {lane lane' : Lane}
    {call : Call} (h : visitLane? ctx f depth number found lane = some (lane', call)) :
    ∃ state, lane.skipFrom? = none ∧ lane.state? = some state ∧
      lane' = settleLane depth lane (lane.checker.visit ctx state f found).result ∧
      call = visitCall ctx f number found lane.checker (lane.checker.visit ctx state f found) := by
  unfold visitLane? at h
  split at h
  · rename_i state hskip hstate
    cases h
    exact ⟨state, hskip, hstate, rfl, rfl⟩
  · simp at h

theorem visitStep_cases (ctx : FileContext) (f : Focus) (number found : Nat) (lane : Lane) :
    (∃ lane' call, f.node.kind ∈ lane.checker.kinds ∧
        visitLane? ctx f f.depth number found (releaseLane f.depth lane) = some (lane', call) ∧
        visitStep ctx f number found lane = (lane', some call)) ∨
      ((f.node.kind ∉ lane.checker.kinds ∨
          visitLane? ctx f f.depth number found (releaseLane f.depth lane) = none) ∧
        visitStep ctx f number found lane = (releaseLane f.depth lane, none)) := by
  unfold visitStep
  split_ifs with hkind
  · cases hvisit : visitLane? ctx f f.depth number found (releaseLane f.depth lane) with
    | none => exact .inr ⟨.inr rfl, rfl⟩
    | some called => exact .inl ⟨called.1, called.2, hkind, rfl, rfl⟩
  · exact .inr ⟨.inl hkind, rfl⟩

theorem visitStep_eq_some {ctx : FileContext} {f : Focus} {i k : Nat} {lane : Lane} {call : Call}
    (h : (visitStep ctx f i k lane).2 = some call) :
    ∃ state, call = visitCall ctx f i k lane.checker (lane.checker.visit ctx state f k) := by
  rcases visitStep_cases ctx f i k lane with ⟨lane', call', -, hvisit, heq⟩ | ⟨-, heq⟩
  · rw [heq] at h
    cases h
    obtain ⟨skipFrom?, hrelease⟩ := exists_releaseLane f.depth lane
    rw [hrelease] at hvisit
    obtain ⟨state, -, -, -, hcall⟩ := visitLane?_eq_some hvisit
    exact ⟨state, hcall⟩
  · rw [heq] at h
    simp at h

theorem isAccurate_visitStep (ctx : FileContext) (f : Focus) : LaneStep.IsAccurate (visitStep ctx f) where
  number h := by
    obtain ⟨state, rfl⟩ := visitStep_eq_some h
    rfl
  found h := by
    obtain ⟨state, rfl⟩ := visitStep_eq_some h
    rfl

theorem checker_visitStep (ctx : FileContext) (f : Focus) (i k : Nat) (lane : Lane) :
    (visitStep ctx f i k lane).1.checker = lane.checker := by
  rcases visitStep_cases ctx f i k lane with ⟨lane', call, -, hvisit, heq⟩ | ⟨-, heq⟩
  · obtain ⟨state, -, -, rfl, -⟩ := visitLane?_eq_some hvisit
    rw [heq, checker_settleLane, checker_releaseLane]
  · rw [heq, checker_releaseLane]

/-- Handing a node to the subscribers is passing the lanes, of which those before number `pre.length` are
passed already. -/
theorem foldl_visitOne (ctx : FileContext) (f : Focus) (pre rest : List Lane) (w : Walk)
    (h : w.lanes = pre ++ rest.map (releaseLane f.depth)) :
    (Dispatch.listing f.node.kind pre.length (rest.map (·.checker))).foldl (visitOne ctx f f.depth) w =
      w.after (pre ++ (sweep (visitStep ctx f) pre.length w.violations.length rest).1)
        (sweep (visitStep ctx f) pre.length w.violations.length rest).2 := by
  induction rest generalizing pre w with
  | nil =>
    rw [List.map_nil, List.append_nil] at h
    simp [Dispatch.listing, sweep, ← h, after_nil]
  | cons lane rest ih =>
    have hlane : w.lanes[pre.length]? = some (releaseLane f.depth lane) := by simp [h]
    rw [List.map_cons, Dispatch.listing_cons, List.foldl_append, sweep]
    rcases visitStep_cases ctx f pre.length w.violations.length lane with
      ⟨lane', call, hkind, hvisit, heq⟩ | ⟨hno, heq⟩
    · have hone : visitOne ctx f f.depth w pre.length =
          { w.record call with lanes := pre ++ lane' :: rest.map (releaseLane f.depth) } := by
        rw [visitOne, hlane, Option.bind_some, hvisit]
        simp [h]
      have hrest := ih (pre ++ [lane'])
        { w.record call with lanes := pre ++ lane' :: rest.map (releaseLane f.depth) } (by simp)
      rw [if_pos hkind, List.foldl_cons, List.foldl_nil, hone, heq]
      rw [List.length_append, List.length_singleton] at hrest
      rw [hrest, after_record]
      simp [record]
    · have hone : (if f.node.kind ∈ lane.checker.kinds then [pre.length] else []).foldl
          (visitOne ctx f f.depth) w = w := by
        rcases hno with hno | hno
        · rw [if_neg hno, List.foldl_nil]
        · split_ifs
          · rw [List.foldl_cons, List.foldl_nil, visitOne, hlane, Option.bind_some, hno]
          · rfl
      have hrest := ih (pre ++ [releaseLane f.depth lane]) w (by simp [h])
      rw [List.length_append, List.length_singleton] at hrest
      rw [hone, hrest, heq]
      simp

theorem visit_eq (ctx : FileContext) (cs : List Checker) (w : Walk) (f : Focus)
    (h : w.lanes.map (·.checker) = cs) :
    visit ctx (.ofCheckers cs) w ⟨f, f.depth⟩ = w.swept (visitStep ctx f) := by
  have hfold := foldl_visitOne ctx f [] w.lanes
    { w with lanes := w.lanes.map (releaseLane f.depth) } rfl
  rw [h] at hfold
  rw [visit, Dispatch.subscribers_ofCheckers]
  exact hfold

/-- The walk after it has handed out these places. -/
def visitAll (ctx : FileContext) (fs : List Focus) (w : Walk) : Walk :=
  fs.foldl (fun w f => w.swept (visitStep ctx f)) w

theorem visitAll_nil (ctx : FileContext) (w : Walk) : w.visitAll ctx [] = w := rfl

theorem visitAll_cons (ctx : FileContext) (f : Focus) (fs : List Focus) (w : Walk) :
    w.visitAll ctx (f :: fs) = (w.swept (visitStep ctx f)).visitAll ctx fs := rfl

theorem visitAll_depthLimited (ctx : FileContext) (fs : List Focus) (w : Walk) (limited : Bool) :
    ({ w with depthLimited := limited } : Walk).visitAll ctx fs =
      { w.visitAll ctx fs with depthLimited := limited } := by
  induction fs generalizing w with
  | nil => rfl
  | cons f fs ih =>
    rw [visitAll_cons, visitAll_cons]
    exact ih (w.swept (visitStep ctx f))

theorem map_checker_swept_visitStep (ctx : FileContext) (f : Focus) (w : Walk) :
    (w.swept (visitStep ctx f)).lanes.map (·.checker) = w.lanes.map (·.checker) :=
  map_checker_sweep (checker_visitStep ctx f) 0 _ _

theorem map_checker_visitAll (ctx : FileContext) (fs : List Focus) (w : Walk) :
    (w.visitAll ctx fs).lanes.map (·.checker) = w.lanes.map (·.checker) := by
  induction fs generalizing w with
  | nil => rfl
  | cons f fs ih => rw [visitAll_cons, ih, map_checker_swept_visitStep]

/-- What a walk does at a place it comes to. -/
def arrive (ctx : FileContext) (dispatch : Dispatch) (bound : Nat) (w : Walk) (f : Focus) : Walk :=
  if f.depth ≤ bound then visit ctx dispatch w ⟨f, f.depth⟩ else { w with depthLimited := true }

theorem visitFrom_cons (ctx : FileContext) (dispatch : Dispatch) (bound : Nat) (w : Walk) (c : Cursor)
    (hc : c.IsCounted) :
    visitFrom ctx dispatch bound w c =
      match c.next? (decide (c.depth ≤ bound)) with
      | some next => visitFrom ctx dispatch bound (arrive ctx dispatch bound w c.focus) next
      | none => arrive ctx dispatch bound w c.focus := by
  obtain ⟨f, depth⟩ := c
  obtain rfl : depth = f.depth := hc
  rw [visitFrom]
  simp only [arrive, decide_eq_true_eq]
  split <;> simp [*]

theorem visitFrom_eq (ctx : FileContext) (dispatch : Dispatch) (bound : Nat) (w : Walk) (c : Cursor)
    (hc : c.IsCounted) :
    visitFrom ctx dispatch bound w c = (c.tour bound).foldl (arrive ctx dispatch bound) w := by
  induction c using Cursor.tour.induct bound generalizing w with
  | case1 c ih =>
    rw [visitFrom_cons ctx dispatch bound w c hc, Cursor.tour_cons, List.foldl_cons]
    cases hnext : c.next? (decide (c.depth ≤ bound)) with
    | none => rfl
    | some next => exact ih next hnext _ (Cursor.isCounted_of_next? hc hnext)

theorem foldl_arrive (ctx : FileContext) (cs : List Checker) (bound : Nat) (fs : List Focus) (w : Walk)
    (h : w.lanes.map (·.checker) = cs) :
    fs.foldl (arrive ctx (.ofCheckers cs) bound) w =
      { w.visitAll ctx (fs.filter (·.depth ≤ bound)) with
        depthLimited := w.depthLimited || fs.any (bound < ·.depth) } := by
  induction fs generalizing w with
  | nil => simp [visitAll_nil]
  | cons f fs ih =>
    rw [List.foldl_cons, arrive]
    by_cases hdepth : f.depth ≤ bound
    · rw [if_pos hdepth, visit_eq ctx cs w f h,
        ih _ ((map_checker_swept_visitStep ctx f w).trans h),
        List.filter_cons_of_pos (by simpa using hdepth), visitAll_cons, List.any_cons,
        decide_eq_false (Nat.not_lt.2 hdepth), Bool.false_or]
      rfl
    · rw [if_neg hdepth, ih { w with depthLimited := true } h, List.filter_cons_of_neg (by simpa using hdepth),
        visitAll_depthLimited, List.any_cons, decide_eq_true (Nat.not_le.1 hdepth)]
      simp

/-! ## Finishing -/

def finishStep (ctx : FileContext) : LaneStep := fun number found lane =>
  (lane, finishLane? ctx number found lane)

theorem finishLane?_eq_some {ctx : FileContext} {number found : Nat} {lane : Lane} {call : Call}
    (h : finishLane? ctx number found lane = some call) :
    ∃ state, lane.state? = some state ∧
      call = finishCall ctx number found lane.checker (lane.checker.finish ctx state found) := by
  unfold finishLane? at h
  split at h
  · simp at h
  · rename_i state hstate
    cases h
    exact ⟨state, hstate, rfl⟩

theorem isAccurate_finishStep (ctx : FileContext) : LaneStep.IsAccurate (finishStep ctx) where
  number h := by
    obtain ⟨state, -, rfl⟩ := finishLane?_eq_some h
    rfl
  found h := by
    obtain ⟨state, -, rfl⟩ := finishLane?_eq_some h
    rfl

theorem sweep_finishStep_lanes (ctx : FileContext) (number found : Nat) (lanes : List Lane) :
    (sweep (finishStep ctx) number found lanes).1 = lanes := by
  induction lanes generalizing number found with
  | nil => rfl
  | cons lane rest ih => rw [sweep, ih, finishStep]

theorem foldl_finishOne (ctx : FileContext) (number : Nat) (rest : List Lane) (w : Walk) :
    (rest.zipIdx number).foldl (finishOne ctx) w =
      w.after w.lanes (sweep (finishStep ctx) number w.violations.length rest).2 := by
  induction rest generalizing number w with
  | nil => simp [sweep, after_nil]
  | cons lane rest ih =>
    rw [List.zipIdx_cons, List.foldl_cons, ih, sweep, finishOne, finishStep]
    cases hcall : finishLane? ctx number w.violations.length lane with
    | none => simp
    | some call =>
      have hrecord := after_record w call w.lanes w.lanes
      simp only [Option.toList_some, List.flatMap_cons, List.flatMap_nil, List.append_nil,
        List.singleton_append]
      rw [← hrecord]
      simp [record]

theorem finish_eq (ctx : FileContext) (w : Walk) : finish ctx w = w.swept (finishStep ctx) := by
  rw [finish, foldl_finishOne, swept, sweep_finishStep_lanes]

/-! ## Whole walks -/

def started (ctx : FileContext) (cs : List Checker) : Walk :=
  (idle cs).swept (startStep ctx)

/-- The walk when it has been through the places of the tree within the depth. -/
def visited (cs : List Checker) (bound : Nat) (ctx : FileContext) (root : Node) : Walk :=
  { (started ctx cs).visitAll ctx ((Focus.root root).within bound) with
    depthLimited := (Focus.root root).subtree.any (·.depth == bound + 1) }

theorem map_checker_started (ctx : FileContext) (cs : List Checker) :
    (started ctx cs).lanes.map (·.checker) = cs := by
  rw [started, swept, lanes_after, map_checker_sweep fun _ _ _ => rfl, idle, List.map_map]
  exact List.map_id cs

theorem any_within_succ (bound : Nat) (root : Node) :
    ((Focus.root root).within (bound + 1)).any (bound < ·.depth) =
      (Focus.root root).subtree.any (·.depth == bound + 1) := by
  rw [Bool.eq_iff_iff, Focus.within]
  simp only [List.any_filter, List.any_eq_true, Bool.and_eq_true, decide_eq_true_eq, beq_iff_eq]
  refine exists_congr fun f => and_congr_right fun _ => ?_
  omega

theorem filter_within_succ (bound : Nat) (f : Focus) :
    (f.within (bound + 1)).filter (·.depth ≤ bound) = f.within bound := by
  rw [Focus.within, Focus.within, List.filter_filter]
  refine List.filter_congr fun g _ => ?_
  simp only [← Bool.decide_and, decide_eq_decide]
  omega

theorem run_eq (cs : List Checker) (bound : Nat) (ctx : FileContext) (root : Node) :
    run cs bound ctx root = (visited cs bound ctx root).swept (finishStep ctx) := by
  rw [run, start_eq, ← started, visitFrom_eq _ _ _ _ _ (Cursor.isCounted_start root),
    Focus.tour_start, foldl_arrive ctx cs bound _ _ (map_checker_started ctx cs), finish_eq,
    any_within_succ, filter_within_succ]
  rfl

end Guardrails.Walk
