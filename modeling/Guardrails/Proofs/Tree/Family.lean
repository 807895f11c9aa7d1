import Guardrails.Proofs.Tree.Order
import Guardrails.Syntax.Function

/-!
# Parents and children

Moving down from a place and looking up again leads back to it. What a place knows about its children agrees
with what its node knows about its own.
-/

namespace Guardrails

/-- A node with a name of its own, and no syntax error at it or below it. -/
def Node.plain (kind field : String) (start stop : Nat) (children : List Node) : Node :=
  ⟨kind, true, false, false, false, field, start, stop, children⟩

namespace Focus

/-! ## Down -/

theorem mem_children {f c : Focus} :
    c ∈ f.children ↔ ∃ i n, f.node.children[i]? = some n ∧ c = ⟨n, ⟨f.node, i⟩ :: f.trail⟩ := by
  simp only [children, List.mem_mapIdx, List.getElem?_eq_some_iff]
  constructor
  · rintro ⟨i, hi, rfl⟩
    exact ⟨i, _, ⟨hi, rfl⟩, rfl⟩
  · rintro ⟨i, n, ⟨hi, rfl⟩, rfl⟩
    exact ⟨i, hi, rfl⟩

theorem node_mem_children {f c : Focus} (h : c ∈ f.children) : c.node ∈ f.node.children := by
  rw [← map_node_children]
  exact List.mem_map_of_mem h

theorem mem_children_of_child? {f c : Focus} {field : String} (h : f.child? field = some c) :
    c ∈ f.children :=
  List.mem_of_find?_eq_some h

theorem mem_children_of_mem_namedChildren {f c : Focus} (h : c ∈ f.namedChildren) : c ∈ f.children :=
  (List.mem_filter.1 h).1

theorem map_node_child? (f : Focus) (field : String) :
    (f.child? field).map (·.node) = f.node.child? field := by
  rw [child?, Node.child?, ← map_node_children, List.find?_map]
  rfl

theorem child?_node {f c : Focus} {field : String} (h : f.child? field = some c) :
    f.node.child? field = some c.node := by
  rw [← map_node_child?, h, Option.map_some]

theorem map_node_namedChildren (f : Focus) : f.namedChildren.map (·.node) = f.node.namedChildren := by
  rw [namedChildren, Node.namedChildren, ← map_node_children, List.filter_map]
  rfl

/-! ## Up -/

theorem parent?_of_mem_children {f c : Focus} (h : c ∈ f.children) : c.parent? = some f := by
  obtain ⟨i, n, -, rfl⟩ := mem_children.1 h
  rfl

theorem ancestors_of_mem_children {f c : Focus} (h : c ∈ f.children) : c.ancestors = f :: f.ancestors := by
  obtain ⟨i, n, -, rfl⟩ := mem_children.1 h
  rfl

theorem isAt_self (f : Focus) : f.isAt f = true :=
  beq_self_eq_true _

/-! ## Parentheses -/

/-- Whether a place is another one with parentheses around it, or without any. -/
inductive Wraps : Focus → Focus → Prop
  | refl (f : Focus) : Wraps f f
  | parentheses {f inside g : Focus} (hkind : f.node.kind = "parenthesized_expression")
      (hinside : f.namedChildren.head? = some inside) (h : Wraps inside g) : Wraps f g

theorem inside?_node {f inside : Focus} (h : f.namedChildren.head? = some inside) :
    f.node.inside? = some inside.node := by
  rw [Node.inside?, ← map_node_namedChildren, List.head?_map, h, Option.map_some]

theorem Wraps.parent? {f g : Focus} (h : f.Wraps g) :
    f = g ∨ f.node.kind = "parenthesized_expression" ∧
      ∃ p, g.parent? = some p ∧ p.node.kind = "parenthesized_expression" := by
  induction h with
  | refl f => exact .inl rfl
  | @parentheses f inside g hkind hinside h ih =>
    rcases ih with rfl | ⟨-, hparent⟩
    · have hmem := mem_children_of_mem_namedChildren (List.mem_of_mem_head? hinside)
      exact .inr ⟨hkind, f, parent?_of_mem_children hmem, hkind⟩
    · exact .inr ⟨hkind, hparent⟩

end Focus
end Guardrails
