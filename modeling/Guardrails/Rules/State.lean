import Guardrails.Checker
import Guardrails.Config
import Guardrails.Syntax.Access

/-!
# Shared state

Shared application state is not changed in place. Binding a root of it anew is no such change.
-/

namespace Guardrails

/-- The dotted paths of shared state. -/
structure NoSharedStateMutation where
  roots : List String

namespace NoSharedStateMutation

def ofConfig (c : Config) : NoSharedStateMutation :=
  ⟨(c.options .noSharedStateMutation).names "roots" ["app.state", "appState"]⟩

/-! ## Targets -/

/-- The segments of an access path, in which a subscript stands as `[]`. -/
def targetPath? (s : Source) (n : Node) : Option (List String) :=
  match n.kind with
  | "member_expression" =>
    match n.child? "property", _ : n.child? "object" with
    | some property, some object => (targetPath? s object).map (· ++ [s.textOf property])
    | _, _ => none
  | "subscript_expression" =>
    match _ : n.child? "object" with
    | some object => (targetPath? s object).map (· ++ ["[]"])
    | none => none
  | "parenthesized_expression" =>
    match _ : n.inside? with
    | some inside => targetPath? s inside
    | none => none
  | "identifier" | "this" => some [s.textOf n]
  | _ => none
termination_by n.size
decreasing_by
  all_goals
    rename_i h
    first
    | exact Node.size_lt_of_child? h
    | exact Node.size_lt_of_inside? h

/-- Segments at the front of a path that do not count. -/
def transparent : List String := ["this", "window", "globalThis"]

def isBelow (path : List String) (root : String) : Bool :=
  let segments := Text.split '.' root
  segments.length < path.length && segments.isPrefixOf path

def mutatedRoot? (x : NoSharedStateMutation) (path : List String) : Option String :=
  x.roots.find? (isBelow (path.dropWhile (transparent.contains ·)))

/-- What an expression changes in place, if it changes anything. -/
def target? (ctx : FileContext) (n : Node) : Except Failure (Option Node) :=
  match n.kind with
  | "assignment_expression" | "augmented_assignment_expression" => return n.child? "left"
  | "update_expression" => return n.child? "argument"
  | "unary_expression" =>
    match n.child? "operator" with
    | some operator => do
      let text ← ctx.text operator
      return if text == "delete" then n.child? "argument" else none
    | none => throw (ctx.shapeFailure n "unary expression without operator")
  | _ => return none

/-! ## The checker -/

def findings (x : NoSharedStateMutation) (ctx : FileContext) (f : Focus) :
    Except Failure (List Violation) := do
  let target? ← target? ctx f.node
  let root? := (target?.bind (targetPath? ctx.source)).bind x.mutatedRoot?
  return root?.toList.map fun root =>
    (ctx.violationAt .noSharedStateMutation f.node
      ("direct mutation of shared state `" ++ root ++ "`")).withHint

def checker (x : NoSharedStateMutation) : Checker :=
  .ofFindings "no-shared-state-mutation" [.noSharedStateMutation]
    ["assignment_expression", "augmented_assignment_expression", "update_expression",
     "unary_expression"] .enter x.findings

end NoSharedStateMutation
end Guardrails
