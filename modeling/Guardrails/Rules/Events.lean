import Guardrails.Checker
import Guardrails.Config
import Guardrails.Syntax.Access
import Guardrails.Text.LetterCase

/-!
# Custom events

Custom events are dispatched on a dedicated bus: one that the module creates, wherever in the file, or one
whose name says so.
-/

namespace Guardrails

/-- What makes a bus, and what makes a custom event. -/
structure EventBus where
  busConstructor : String
  eventConstructor : String
  /-- What the receiver's text contains in lowercase when it is a bus that was injected. -/
  busMarker : String

namespace EventBus

def ofConfig (c : Config) : EventBus :=
  let opts := c.options .eventBus
  let text := fun key default => ((opts.option? key).bind (·.string?)).getD default
  ⟨text "bus_constructor" "EventTarget", text "event_constructor" "CustomEvent",
    Text.lowercase (text "bus_marker" "bus")⟩

/-- A custom event that is dispatched on something. -/
structure Dispatched where
  receiver : String
  call : Node

/-- What was seen of a module so far. -/
structure Seen where
  /-- The texts of what holds a bus that the module creates. -/
  buses : List String
  /-- The dispatched events, in document order. -/
  events : List Dispatched

/-- The node that an initialization or an assignment gives a new bus to. -/
def busTarget? (x : EventBus) (ctx : FileContext) (n : Node) (target value : String) : Option Node :=
  match n.child? target, n.child? value with
  | some holder, some made =>
    if made.constructs ctx.source x.busConstructor then some holder else none
  | _, _ => none

def dispatches (x : EventBus) (ctx : FileContext) (call : Node) : Bool :=
  call.calledMethod? ctx.source == some "dispatchEvent" &&
    call.callArguments.head?.any fun a => a.constructs ctx.source x.eventConstructor

def seeBus (ctx : FileContext) (seen : Seen) : Option Node → Except Failure Seen
  | some holder => do
    let text ← ctx.text holder
    return { seen with buses := seen.buses ++ [text] }
  | none => return seen

def seeCall (x : EventBus) (ctx : FileContext) (seen : Seen) (call : Node) : Except Failure Seen :=
  match call.child? "function" with
  | some function =>
    if x.dispatches ctx call then
      match function.child? "object" with
      | some receiver => do
        let text ← ctx.text receiver
        return { seen with events := seen.events ++ [⟨text, call⟩] }
      | none => throw (ctx.shapeFailure function "member access without object")
    else return seen
  | none => return seen

def see (x : EventBus) (ctx : FileContext) (seen : Seen) (n : Node) : Except Failure Seen :=
  match n.kind with
  | "variable_declarator" => seeBus ctx seen (x.busTarget? ctx n "name" "value")
  | "assignment_expression" => seeBus ctx seen (x.busTarget? ctx n "left" "right")
  | "call_expression" => x.seeCall ctx seen n
  | _ => return seen

def isBus (x : EventBus) (buses : List String) (receiver : String) : Bool :=
  buses.contains receiver || Text.contains (Text.lowercase receiver) x.busMarker

def message (x : EventBus) (receiver : String) : String :=
  "`" ++ receiver ++ "` dispatches a " ++ x.eventConstructor ++ " outside a dedicated event bus"

def verdict (x : EventBus) (ctx : FileContext) (seen : Seen) : List Violation :=
  (seen.events.filter fun e => !x.isBus seen.buses e.receiver).map fun e =>
    (ctx.violationAt .eventBus e.call (x.message e.receiver)).withHint

def checker (x : EventBus) : Checker where
  name := "event-bus"
  rules := [.eventBus]
  kinds := ["variable_declarator", "assignment_expression", "call_expression"]
  State := Seen
  start _ := .ok ⟨[], []⟩
  visit ctx seen f := do
    let seen ← Reply.ofExcept (x.see ctx seen f.node)
    return (seen, .enter)
  finish ctx seen _ := Reply.report (x.verdict ctx seen)

end EventBus
end Guardrails
