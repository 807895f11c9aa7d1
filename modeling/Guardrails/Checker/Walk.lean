import Guardrails.Checker
import Guardrails.Syntax.Cursor

/-!
# Walks

One walk over a tree runs many checkers at once. Nodes come in document order, and at each node the
checkers subscribed to its kind in the order of the list. A checker that fails is left out from there on,
and what it reported until then is kept. A checker that skips the children of a node is left out below
that node only.

A checker is known by its number in the list of checkers, and is entered once for a kind however often it lists it.
-/

namespace Guardrails

/-! ## Dispatch tables -/

/-- The numbers of the subscribers under each kind. -/
structure Dispatch where
  entries : List (String × List Nat)

namespace Dispatch

def subscribersIn (kind : String) : List (String × List Nat) → List Nat
  | [] => []
  | (k, numbers) :: rest => if k = kind then numbers else subscribersIn kind rest

/-- The checkers that are to be handed nodes of this kind. -/
def subscribers (d : Dispatch) (kind : String) : List Nat :=
  subscribersIn kind d.entries

def subscribeIn (kind : String) (number : Nat) : List (String × List Nat) → List (String × List Nat)
  | [] => [(kind, [number])]
  | (k, numbers) :: rest =>
    if k = kind then (k, if number ∈ numbers then numbers else numbers ++ [number]) :: rest
    else (k, numbers) :: subscribeIn kind number rest

def subscribe (d : Dispatch) (kind : String) (number : Nat) : Dispatch :=
  ⟨subscribeIn kind number d.entries⟩

/-- Adds the checkers from number `number` on, each to all its kinds. -/
def subscribeAll (d : Dispatch) (number : Nat) : List Checker → Dispatch
  | [] => d
  | c :: cs => subscribeAll (c.kinds.foldl (fun d kind => d.subscribe kind number) d) (number + 1) cs

def ofCheckers (cs : List Checker) : Dispatch :=
  subscribeAll ⟨[]⟩ 0 cs

end Dispatch

/-! ## What a walk keeps -/

/-- What the checkers report on one file. -/
structure FileAnalysis where
  violations : List Violation
  faults : List Fault
  /-- Whether some node is too deep to have been visited. -/
  depthLimited : Bool

/-- A checker in a walk. -/
structure Lane where
  checker : Checker
  /-- Absent once the checker has failed. -/
  state? : Option checker.State
  /-- The depth of the node below which the checker wants to see nothing. -/
  skipFrom? : Option Nat

/-- On what occasion a walk calls a checker. -/
inductive Occasion
  | start
  | visit (focus : Focus)
  | finish

namespace Occasion

def focus? : Occasion → Option Focus
  | visit f => some f
  | _ => none

def node? (o : Occasion) : Option Node :=
  o.focus?.map (·.node)

end Occasion

/-- A call that a walk makes to the checker with the given number, and what comes of it. -/
structure Call where
  number : Nat
  occasion : Occasion
  /-- How many violations the file had when the call was made. -/
  found : Nat
  reports : List Violation
  /-- What the checker says about the nodes below the one that it was handed. -/
  answer? : Option Visit
  fault? : Option Fault

/-- A walk under way. -/
structure Walk where
  lanes : List Lane
  violations : List Violation
  faults : List Fault
  /-- Whether a node was too deep to be visited. -/
  depthLimited : Bool
  /-- The calls made so far, the latest first. -/
  calls : List Call

namespace Walk

def faultAt (ctx : FileContext) (checker : Checker) (node? : Option Node) (e : Failure) : Fault :=
  ⟨ctx.relative, checker.name, node?.map (·.kind),
    node?.map fun n => (ctx.source.positionOf n).line, e.message⟩

/-- Takes what came of a call to a checker into the walk. -/
def record (w : Walk) (call : Call) : Walk :=
  { w with
    violations := w.violations ++ call.reports
    faults := w.faults ++ call.fault?.toList
    calls := call :: w.calls }

/-! ## Starting -/

def startCall (ctx : FileContext) (number found : Nat) (c : Checker) (reply : Reply c.State) : Call :=
  ⟨number, .start, found, reply.reports, none, reply.failure?.map (faultAt ctx c none)⟩

/-- The lane of a checker, which has no state when the checker fails to start, and the call for it. -/
def startLane (ctx : FileContext) (number found : Nat) (c : Checker) : Lane × Call :=
  let reply := Reply.ofExcept (c.start ctx)
  (⟨c, reply.value?, none⟩, startCall ctx number found c reply)

def startOne (ctx : FileContext) (w : Walk) (c : Checker) : Walk :=
  let (lane, call) := startLane ctx w.lanes.length w.violations.length c
  { w.record call with lanes := w.lanes ++ [lane] }

def start (ctx : FileContext) (checkers : List Checker) : Walk :=
  checkers.foldl (startOne ctx) ⟨[], [], [], false, []⟩

/-! ## Visiting -/

/-- Ends the skipping of a lane once the walk is out of the subtree it skips. -/
def releaseLane (depth : Nat) (lane : Lane) : Lane :=
  match lane.skipFrom? with
  | some skipped => if depth ≤ skipped then { lane with skipFrom? := none } else lane
  | none => lane

/-- The lane after a reply about a node at this depth. -/
def settleLane (depth : Nat) (lane : Lane) :
    Except Failure (lane.checker.State × Visit) → Lane
  | .ok (state, .enter) => ⟨lane.checker, some state, lane.skipFrom?⟩
  | .ok (state, .skipChildren) => ⟨lane.checker, some state, some depth⟩
  | .error _ => ⟨lane.checker, none, lane.skipFrom?⟩

def visitCall (ctx : FileContext) (f : Focus) (number found : Nat) (c : Checker)
    (reply : Reply (c.State × Visit)) : Call :=
  ⟨number, .visit f, found, reply.reports, reply.value?.map (·.2),
    reply.failure?.map (faultAt ctx c (some f.node))⟩

/-- Hands a node to a checker that has not failed and does not skip the node. -/
def visitLane? (ctx : FileContext) (f : Focus) (depth number found : Nat) (lane : Lane) :
    Option (Lane × Call) :=
  match lane.skipFrom?, lane.state? with
  | none, some state =>
    let reply := lane.checker.visit ctx state f found
    some (settleLane depth lane reply.result, visitCall ctx f number found lane.checker reply)
  | _, _ => none

/-- Hands a node to the checker with this number. -/
def visitOne (ctx : FileContext) (f : Focus) (depth : Nat) (w : Walk) (number : Nat) : Walk :=
  match w.lanes[number]?.bind (visitLane? ctx f depth number w.violations.length) with
  | some (lane, call) => { w.record call with lanes := w.lanes.set number lane }
  | none => w

def visit (ctx : FileContext) (dispatch : Dispatch) (w : Walk) (c : Cursor) : Walk :=
  (dispatch.subscribers c.focus.node.kind).foldl (visitOne ctx c.focus c.depth)
    { w with lanes := w.lanes.map (releaseLane c.depth) }

/-- Visits the nodes from a cursor on, in document order. Below the given depth none is entered. -/
def visitFrom (ctx : FileContext) (dispatch : Dispatch) (bound : Nat) (w : Walk) (c : Cursor) : Walk :=
  let isWithin := decide (c.depth ≤ bound)
  let w := if isWithin then visit ctx dispatch w c else { w with depthLimited := true }
  match _ : c.next? isWithin with
  | some next => visitFrom ctx dispatch bound w next
  | none => w
termination_by c.focus.sizeFrom
decreasing_by
  rename_i h
  exact Cursor.sizeFrom_of_next? h

/-! ## Finishing -/

def finishCall (ctx : FileContext) (number found : Nat) (c : Checker) (reply : Reply Unit) : Call :=
  ⟨number, .finish, found, reply.reports, none, reply.failure?.map (faultAt ctx c none)⟩

/-- Finishes a checker that has not failed. -/
def finishLane? (ctx : FileContext) (number found : Nat) (lane : Lane) : Option Call :=
  match lane.state? with
  | none => none
  | some state =>
    some (finishCall ctx number found lane.checker (lane.checker.finish ctx state found))

def finishOne (ctx : FileContext) (w : Walk) (lane : Lane × Nat) : Walk :=
  match finishLane? ctx lane.2 w.violations.length lane.1 with
  | some call => w.record call
  | none => w

def finish (ctx : FileContext) (w : Walk) : Walk :=
  w.lanes.zipIdx.foldl (finishOne ctx) w

/-! ## Whole walks -/

/-- The walk of the checkers over a tree, down to the given depth. -/
def run (checkers : List Checker) (bound : Nat) (ctx : FileContext) (root : Node) : Walk :=
  finish ctx (visitFrom ctx (.ofCheckers checkers) bound (start ctx checkers) (.start root))

def log (w : Walk) : List Call :=
  w.calls.reverse

end Walk

/-- What the checkers report on the tree of a file, down to the given depth. -/
def FileAnalysis.ofWalk (checkers : List Checker) (bound : Nat) (ctx : FileContext) (root : Node) :
    FileAnalysis :=
  let w := Walk.run checkers bound ctx root
  ⟨w.violations, w.faults, w.depthLimited⟩

end Guardrails
