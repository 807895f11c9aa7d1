import Guardrails.Syntax.Node

/-!
# Outlines

The flat form of a syntax tree: one row for each node, in document order, with the depth of the node.
-/

namespace Guardrails

/-- A node without its children. -/
structure Row where
  depth : Nat
  kind : String
  isNamed : Bool
  isError : Bool
  isMissing : Bool
  hasError : Bool
  field : String
  start : Nat
  stop : Nat

namespace Row

/-- The rows' flags are the sum of 1, 2, 4 and 8 for the four marks of a node. -/
def ofFlags (depth : Nat) (kind : String) (flags : Nat) (field : String) (start stop : Nat) : Row :=
  ⟨depth, kind, flags.testBit 0, flags.testBit 1, flags.testBit 2, flags.testBit 3, field, start,
    stop⟩

def toNode (r : Row) (children : List Node) : Node :=
  ⟨r.kind, r.isNamed, r.isError, r.isMissing, r.hasError, r.field, r.start, r.stop, children⟩

end Row

namespace Node

/-- Puts a row in front of the trees behind it, of which it takes the deeper ones as its children. -/
def addRow (r : Row) (trees : List (Nat × Node)) : List (Nat × Node) :=
  let children := trees.takeWhile (r.depth < ·.1)
  (r.depth, r.toNode (children.map (·.2))) :: trees.dropWhile (r.depth < ·.1)

/-- The tree of an outline, when that has one root. -/
def ofRows? (rows : List Row) : Option Node :=
  match rows.foldr addRow [] with
  | [(0, root)] => some root
  | _ => none

end Node
end Guardrails
