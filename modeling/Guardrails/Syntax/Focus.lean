import Guardrails.Syntax.Node

/-!
# Places in a tree

A focus is a node together with the way down to it from the root, so that what encloses the node can be
asked for. Two foci of one tree are the same place when they have the same address.
-/

namespace Guardrails

/-- One edge downwards: the node it starts from, and the number of the child it goes to. -/
structure Edge where
  parent : Node
  index : Nat
  deriving Inhabited

/-- A node in its tree. The trail leads up to the root, the nearest edge first. -/
structure Focus where
  node : Node
  trail : List Edge
  deriving Inhabited

namespace Focus

/-! ## Moving -/

def root (n : Node) : Focus := ⟨n, []⟩

def parent? (f : Focus) : Option Focus :=
  match f.trail with
  | [] => none
  | edge :: rest => some ⟨edge.parent, rest⟩

def depth (f : Focus) : Nat :=
  f.trail.length

def address (f : Focus) : List Nat :=
  f.trail.map (·.index)

/-- Whether two foci of one tree are the same place in it. -/
def isAt (f g : Focus) : Bool :=
  f.address == g.address

def children (f : Focus) : List Focus :=
  f.node.children.mapIdx fun index child => ⟨child, ⟨f.node, index⟩ :: f.trail⟩

def child? (f : Focus) (field : String) : Option Focus :=
  f.children.find? (·.node.field == field)

/-- The named children, without comments. -/
def namedChildren (f : Focus) : List Focus :=
  f.children.filter fun c => c.node.isNamed && !c.node.isComment

/-! ## Enclosing nodes -/

def ancestorsOn : List Edge → List Focus
  | [] => []
  | edge :: rest => ⟨edge.parent, rest⟩ :: ancestorsOn rest

/-- The nodes around a focus, the nearest first. -/
def ancestors (f : Focus) : List Focus :=
  ancestorsOn f.trail

/-- The nearest node around a focus whose kind is one of `kinds`. -/
def enclosing? (f : Focus) (kinds : List String) : Option Focus :=
  f.ancestors.find? (kinds.contains ·.node.kind)

@[simp] theorem map_node_children (f : Focus) : f.children.map (·.node) = f.node.children := by
  simp only [children, List.map_eq_iff]
  intro i
  cases h : f.node.children[i]? <;> simp [h]

@[simp] theorem depth_root (n : Node) : (root n).depth = 0 := rfl

theorem depth_of_mem_children {f c : Focus} (h : c ∈ f.children) : c.depth = f.depth + 1 := by
  simp only [children, List.mem_mapIdx] at h
  obtain ⟨i, hi, rfl⟩ := h
  simp [depth]

/-! ## Document order -/

mutual

/-- A node and all below it in document order, with the trail above it given. -/
def subtreeOn (trail : List Edge) : Node → List Focus
  | ⟨kind, isNamed, isError, isMissing, hasError, field, start, stop, children⟩ =>
    let n : Node := ⟨kind, isNamed, isError, isMissing, hasError, field, start, stop, children⟩
    ⟨n, trail⟩ :: subtreesOn n trail 0 children

/-- The same for the children of `parent` from number `index` on. -/
def subtreesOn (parent : Node) (trail : List Edge) (index : Nat) : List Node → List Focus
  | [] => []
  | n :: ns => subtreeOn (⟨parent, index⟩ :: trail) n ++ subtreesOn parent trail (index + 1) ns

end

/-- The focus and all below it, in document order. -/
def subtree (f : Focus) : List Focus :=
  subtreeOn f.trail f.node

end Focus
end Guardrails
