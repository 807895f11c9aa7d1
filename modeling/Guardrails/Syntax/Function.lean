import Guardrails.Syntax.Access
import Guardrails.Syntax.Descent

/-!
# Functions

The functions around a place, what they are called, and which names their parameters bind.
-/

namespace Guardrails

/-! ## All below a node -/

/-- Every node strictly below a node, in document order. -/
def Node.descendants (n : Node) : List Node :=
  (Focus.root n).descendants.map (·.node)

namespace Node

/-- Whether a call below the node has one of `names` as its last segment or trailing path. -/
def callsAny (s : Source) (n : Node) (names : List String) : Bool :=
  n.descendants.any fun d =>
    match d.callee? with
    | some callee => callee.calleeMatches s names
    | none => false

/-! ## Functions -/

/-- The kinds of the nodes that open the scope of a function. -/
def functionKinds : List String :=
  ["function_declaration", "function_expression", "generator_function_declaration",
   "generator_function", "arrow_function", "method_definition"]

def isFunction (n : Node) : Bool :=
  functionKinds.contains n.kind

/-- The parameters of a function, with or without parentheses around them. -/
def parameters (n : Node) : List Node :=
  match n.child? "parameter" with
  | some single => [single]
  | none =>
    match n.child? "parameters" with
    | some list => list.namedChildren
    | none => []

def functionBody? (n : Node) : Option Node :=
  (n.child? "body").filter (·.kind == "statement_block")

def isEmptyBlock (n : Node) : Bool :=
  n.namedChildren.isEmpty

/-! ## Parameters -/

def bindsHere (s : Source) (name : String) (n : Node) : Bool :=
  (n.kind == "identifier" || n.kind == "shorthand_property_identifier_pattern") &&
    s.textOf n == name

/-- Whether a parameter has the name in its pattern. A default value on the outside does not count. -/
def parameterMentions (s : Source) (name : String) (parameter : Node) : Bool :=
  let pattern :=
    if parameter.kind == "assignment_pattern" then (parameter.child? "left").getD parameter
    else parameter
  (pattern :: pattern.descendants).any (bindsHere s name)

end Node

namespace Focus

def enclosingFunction? (f : Focus) : Option Focus :=
  f.enclosing? Node.functionKinds

/-- Whether the name is bound by a parameter of a function around the place. -/
def isParameterInScope (s : Source) (f : Focus) (name : String) : Bool :=
  (f.ancestors.filter (·.node.isFunction)).any fun g =>
    g.node.parameters.any (Node.parameterMentions s name)

/-! ## Names -/

/-- The node that names a function which is the value of something. -/
def bindingTarget? (f : Focus) : Option Node := do
  let parent ← f.parent?
  match parent.node.kind with
  | "variable_declarator" => parent.node.child? "name"
  | "pair" => parent.node.child? "key"
  | "assignment_expression" => parent.node.child? "left"
  | _ => none

def targetName? (s : Source) (target : Node) : Option String :=
  match target.kind with
  | "identifier" | "property_identifier" => some (s.textOf target)
  | "string" => target.stringValue? s
  | "member_expression" => target.propertyName? s
  | _ => none

/-- The name of a function: its own, or that of the binding, property or target whose value it is. -/
def functionName? (s : Source) (f : Focus) : Option String :=
  match f.node.child? "name" with
  | some name => some ((name.stringValue? s).getD (s.textOf name))
  | none => f.bindingTarget?.bind (targetName? s)

end Focus
end Guardrails
