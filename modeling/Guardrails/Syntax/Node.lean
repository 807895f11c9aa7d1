import Guardrails.Source

/-!
# Syntax trees

A tree as a parser hands it over: every node has a kind, a range of bytes in the source, and the name of
the field under which its parent knows it. Tokens without a name of their own are nodes too.
-/

namespace Guardrails

/-- A node of a syntax tree, with all that is below it. -/
structure Node where
  kind : String
  /-- Whether the grammar names it; punctuation and keywords are unnamed. -/
  isNamed : Bool
  /-- Whether it holds text that the grammar has no place for. -/
  isError : Bool
  /-- Whether the parser put it in where the text has none. -/
  isMissing : Bool
  /-- Whether it, or something below it, is a syntax error. -/
  hasError : Bool
  /-- The field of its parent that it fills, or the empty text. -/
  field : String
  start : Nat
  stop : Nat
  children : List Node
  deriving Inhabited, Repr

namespace Node

/-! ## Size -/

mutual

def size : Node → Nat
  | ⟨_, _, _, _, _, _, _, _, children⟩ => sizes children + 1

def sizes : List Node → Nat
  | [] => 0
  | n :: ns => size n + sizes ns

end

theorem size_eq (n : Node) : n.size = sizes n.children + 1 := by
  cases n; rfl

theorem size_pos (n : Node) : 0 < n.size := by
  rw [size_eq]; omega

@[simp] theorem sizes_append (as bs : List Node) : sizes (as ++ bs) = sizes as + sizes bs := by
  induction as with
  | nil => simp [sizes]
  | cons a as ih => simp [sizes, ih]; omega

theorem size_le_sizes {c : Node} {ns : List Node} (h : c ∈ ns) : c.size ≤ sizes ns := by
  induction ns with
  | nil => simp at h
  | cons n ns ih =>
    rcases List.mem_cons.1 h with rfl | h
    · simp [sizes]
    · have := ih h; simp [sizes]; omega

theorem size_lt_of_mem {c n : Node} (h : c ∈ n.children) : c.size < n.size := by
  have := size_le_sizes h
  rw [size_eq n]; omega

/-! ## Children -/

def isComment (n : Node) : Bool :=
  n.kind == "comment"

def child? (n : Node) (field : String) : Option Node :=
  n.children.find? (·.field == field)

/-- The named children, without comments. -/
def namedChildren (n : Node) : List Node :=
  n.children.filter fun c => c.isNamed && !c.isComment

theorem size_lt_of_child? {n c : Node} {field : String} (h : n.child? field = some c) :
    c.size < n.size :=
  size_lt_of_mem (List.mem_of_find?_eq_some h)

theorem mem_children_of_mem_namedChildren {n c : Node} (h : c ∈ n.namedChildren) :
    c ∈ n.children :=
  (List.mem_filter.1 h).1

/-- What stands inside parentheses. -/
def inside? (n : Node) : Option Node :=
  n.namedChildren.head?

theorem size_lt_of_inside? {n c : Node} (h : n.inside? = some c) : c.size < n.size :=
  size_lt_of_mem (mem_children_of_mem_namedChildren (List.mem_of_mem_head? h))

end Node

/-! ## Text -/

namespace Source

def textOf? (s : Source) (n : Node) : Except Undecodable String :=
  s.slice n.start n.stop

/-- The text of a node, empty where its range is no text. -/
def textOf (s : Source) (n : Node) : String :=
  match s.textOf? n with
  | .ok text => text
  | .error _ => ""

def positionOf (s : Source) (n : Node) : Position :=
  s.positionAt n.start

end Source
end Guardrails
