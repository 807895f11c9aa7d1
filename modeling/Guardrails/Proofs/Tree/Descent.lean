import Mathlib.Data.List.Basic
import Guardrails.Proofs.Tree.Tour
import Guardrails.Syntax.Descent
import Guardrails.Syntax.Function

/-!
# Descents and subtrees

A descent moves one cursor, and by its count of the depth alone it hands out what is strictly below the place where
it started: all of it, once, in document order, and then nothing any more.
-/

namespace Guardrails

/-! ## What lies ahead of a descent -/

/-- The places after the ones at and below the end of a trail, in document order, that are below the node `depth`
edges up. -/
def Focus.afterWithin : Nat → List Edge → List Focus
  | depth + 1, edge :: rest =>
    subtreesOn edge.parent rest (edge.index + 1) (edge.parent.children.drop (edge.index + 1)) ++
      afterWithin depth rest
  | _, _ => []

namespace Descent

/-- The places that a descent has still to hand out. -/
def ahead (d : Descent) : List Focus :=
  if d.isOver then [] else d.focus.children.flatMap Focus.subtree ++ Focus.afterWithin d.depth d.focus.trail

theorem ahead_below (f : Focus) : (below f).ahead = f.children.flatMap Focus.subtree :=
  List.append_nil _

theorem subtree_append_afterWithin (f : Focus) (depth : Nat) :
    f.subtree ++ Focus.afterWithin depth f.trail = f :: (Descent.mk ⟨f, depth⟩ false).ahead := by
  rw [Focus.subtree_eq]
  rfl

theorem ahead_of_firstChild? {f child : Focus} (h : f.firstChild? = some child) (depth : Nat) :
    (Descent.mk ⟨f, depth⟩ false).ahead = child :: (Descent.mk ⟨child, depth + 1⟩ false).ahead := by
  rw [← subtree_append_afterWithin, Focus.trail_of_firstChild? h, Focus.afterWithin, ← List.append_assoc]
  exact congrArg (· ++ _) (Focus.flatMap_subtree_of_firstChild? h)

theorem afterWithin_of_nextSibling? {f sibling : Focus} (h : f.nextSibling? = some sibling) (depth : Nat) :
    Focus.afterWithin (depth + 1) f.trail = sibling :: (Descent.mk ⟨sibling, depth + 1⟩ false).ahead := by
  unfold Focus.nextSibling? at h
  split at h
  · simp at h
  · rename_i edge rest htrail
    rw [← subtree_append_afterWithin, htrail, Focus.trail_of_siblingOn? h, Focus.afterWithin, Focus.afterWithin,
      Focus.subtreesOn_of_siblingOn? h, List.append_assoc]

theorem afterWithin_of_nextSibling?_eq_none {f : Focus} (h : f.nextSibling? = none) (depth : Nat) :
    Focus.afterWithin (depth + 1) f.trail = Focus.afterWithin depth (f.parent?.getD f).trail := by
  unfold Focus.nextSibling? at h
  split at h
  · rename_i htrail
    rw [Focus.parent?, htrail, Option.getD_none, htrail]
    cases depth <;> rfl
  · rename_i edge rest htrail
    rw [Focus.parent?, htrail, Focus.afterWithin, Focus.subtreesOn_of_siblingOn?_eq_none h]
    rfl

/-- A climb hands out the next place after the subtree where it begins, and leaves the ones after that. -/
theorem climb_eq (f : Focus) (depth : Nat) :
    (climb f depth).1 = (Focus.afterWithin depth f.trail).head? ∧
      (climb f depth).2.ahead = (Focus.afterWithin depth f.trail).tail := by
  induction depth generalizing f with
  | zero => exact ⟨rfl, rfl⟩
  | succ depth ih =>
    unfold climb
    cases hsibling : f.nextSibling? with
    | some sibling =>
      rw [afterWithin_of_nextSibling? hsibling]
      exact ⟨rfl, rfl⟩
    | none =>
      rw [afterWithin_of_nextSibling?_eq_none hsibling]
      exact ih (f.parent?.getD f)

theorem next_eq (d : Descent) : d.next.1 = d.ahead.head? ∧ d.next.2.ahead = d.ahead.tail := by
  obtain ⟨⟨f, depth⟩, isOver⟩ := d
  unfold next
  cases isOver with
  | true => exact ⟨rfl, rfl⟩
  | false =>
    unfold Cursor.firstChild?
    cases hchild : f.firstChild? with
    | some child =>
      rw [ahead_of_firstChild? hchild]
      exact ⟨rfl, rfl⟩
    | none =>
      have hahead : (Descent.mk ⟨f, depth⟩ false).ahead = Focus.afterWithin depth f.trail := by
        unfold ahead
        rw [Focus.children_of_firstChild?_eq_none hchild]
        rfl
      rw [hahead]
      exact climb_eq f depth

theorem toList_cons (d : Descent) : d.toList = match d.next with
    | (none, _) => []
    | (some f, rest) => f :: rest.toList := by
  rw [toList]
  split <;> simp [*]

theorem toList_eq (d : Descent) : d.toList = d.ahead := by
  induction d using toList.induct with
  | case1 d rest h =>
    obtain ⟨hhead, -⟩ := next_eq d
    rw [h] at hhead
    rw [toList_cons, h]
    exact (List.head?_eq_none_iff.1 hhead.symm).symm
  | case2 d f rest h ih =>
    obtain ⟨hhead, htail⟩ := next_eq d
    simp only [h] at hhead htail
    rw [toList_cons, h, ← List.cons_head?_tail hhead.symm, ← htail, ← ih]

/-! ## Calls -/

/-- What a descent hands out at the call with this number, counted from 0, when it is called again and again. -/
def call (d : Descent) : Nat → Option Focus
  | 0 => d.next.1
  | k + 1 => d.next.2.call k

theorem call_eq (d : Descent) (k : Nat) : d.call k = d.ahead[k]? := by
  induction k generalizing d with
  | zero =>
    rw [call, (next_eq d).1]
    exact List.head?_eq_getElem?
  | succ k ih =>
    rw [call, ih, (next_eq d).2]
    exact List.getElem?_tail

end Descent

namespace Focus

/-- Whether a place is strictly below another: it is one of its children, or below one of them. -/
inductive IsBelow : Focus → Focus → Prop
  | child {f c : Focus} (h : c ∈ f.children) : IsBelow c f
  | deeper {f c g : Focus} (hc : c ∈ f.children) (h : IsBelow g c) : IsBelow g f

theorem isBelow_iff {f g : Focus} : g.IsBelow f ↔ ∃ c ∈ f.children, g ∈ c.subtree := by
  constructor
  · intro h
    induction h with
    | child h => exact ⟨_, h, self_mem_subtree _⟩
    | deeper hc h ih =>
      obtain ⟨d, hd, hg⟩ := ih
      exact ⟨_, hc, mem_subtree.2 (.inr ⟨d, hd, hg⟩)⟩
  · rintro ⟨c, hc, hg⟩
    induction c using subtree_induction generalizing f with
    | h c ih =>
      rcases mem_subtree.1 hg with rfl | ⟨d, hd, hg⟩
      · exact .child hc
      · exact .deeper hc (ih d hd hd hg)

end Focus

/-- Called again and again, a descent hands out all that is strictly below the place where it started, in document
order and so each place once, but never that place itself or one outside of it. From then on it hands out nothing. -/
theorem Descent.call_below (f : Focus) : ∃ places, f.subtree = f :: places ∧
    (∀ g, g ∈ places ↔ g.IsBelow f) ∧ places.Pairwise (fun g h => g.isBefore h = true) ∧ f ∉ places ∧
    (∀ k, (below f).call k = places[k]?) ∧ ∀ k, (below f).call (places.length + k) = none := by
  have hcall (k : Nat) : (below f).call k = (f.children.flatMap Focus.subtree)[k]? := by
    rw [call_eq, ahead_below]
  have hordered := Focus.subtree_pairwise f
  rw [Focus.subtree_eq, List.pairwise_cons] at hordered
  obtain ⟨hfirst, hordered⟩ := hordered
  refine ⟨f.children.flatMap Focus.subtree, f.subtree_eq, ?_, hordered, ?_, hcall, ?_⟩
  · intro g
    rw [List.mem_flatMap, Focus.isBelow_iff]
  · intro hf
    have hbefore := hfirst f hf
    rw [Focus.isBefore_irrefl] at hbefore
    cases hbefore
  · intro k
    rw [hcall]
    exact List.getElem?_eq_none (Nat.le_add_right _ k)

theorem Focus.descendants_eq (f : Focus) : f.descendants = f.children.flatMap subtree := by
  rw [descendants, Descent.toList_eq, Descent.ahead_below]

theorem Focus.subtree_eq_cons_descendants (f : Focus) : f.subtree = f :: f.descendants := by
  rw [subtree_eq, descendants_eq]

theorem Node.descendants_eq (n : Node) :
    n.descendants = ((Focus.root n).children.flatMap Focus.subtree).map (·.node) := by
  rw [descendants, Focus.descendants_eq]

theorem Focus.map_node_subtree_congr {f g : Focus} (h : f.node = g.node) :
    f.subtree.map (·.node) = g.subtree.map (·.node) := by
  induction f using subtree_induction generalizing g with
  | h f ih =>
    rw [subtree_eq, subtree_eq, List.map_cons, List.map_cons, h, List.map_flatMap, List.map_flatMap]
    simp only [children, List.mapIdx_eq_zipIdx_map, List.flatMap_map, h]
    congr 1
    refine List.flatMap_congr fun c hc => ih _ ?_ rfl
    rw [children, List.mapIdx_eq_zipIdx_map, h]
    exact List.mem_map_of_mem hc

theorem Focus.map_node_subtree (f : Focus) : f.subtree.map (·.node) = f.node :: f.node.descendants := by
  have hroot : f.node = (root f.node).node := rfl
  rw [map_node_subtree_congr hroot, subtree_eq_cons_descendants]
  rfl

theorem Node.descendants_eq_flatMap (n : Node) :
    n.descendants = n.children.flatMap fun c => c :: c.descendants := by
  have hchildren : (Focus.root n).children.map (·.node) = n.children := Focus.map_node_children (Focus.root n)
  rw [descendants_eq, List.map_flatMap, ← hchildren, List.flatMap_map]
  exact List.flatMap_congr fun c _ => c.map_node_subtree

theorem Node.mem_descendants_of_mem_children {n c : Node} (h : c ∈ n.children) : c ∈ n.descendants := by
  rw [descendants_eq_flatMap]
  exact List.mem_flatMap.2 ⟨c, h, List.mem_cons_self⟩

theorem Node.descendants_subset_of_mem_children {n c : Node} (h : c ∈ n.children) :
    c.descendants ⊆ n.descendants := by
  intro d hd
  rw [descendants_eq_flatMap n]
  exact List.mem_flatMap.2 ⟨c, h, List.mem_cons_of_mem _ hd⟩

theorem Node.children_induction {P : Node → Prop} (h : ∀ n, (∀ c ∈ n.children, P c) → P n) (n : Node) : P n :=
  h n fun c _ => children_induction h c
termination_by n.size
decreasing_by
  rename_i hc
  exact size_lt_of_mem hc

theorem Node.descendants_subset {n d : Node} (hd : d ∈ n.descendants) : d.descendants ⊆ n.descendants := by
  induction n using children_induction with
  | h n ih =>
    rw [descendants_eq_flatMap] at hd
    obtain ⟨c, hc, hd⟩ := List.mem_flatMap.1 hd
    have hbelow := descendants_subset_of_mem_children hc
    rcases List.mem_cons.1 hd with rfl | hd
    · exact hbelow
    · exact fun e he => hbelow (ih c hc hd he)

theorem Node.cons_descendants_subset {n d : Node} (hd : d ∈ n.descendants) : d :: d.descendants ⊆ n.descendants :=
  List.cons_subset.2 ⟨hd, descendants_subset hd⟩

theorem Focus.node_mem_of_mem_subtree {f x : Focus} (h : x ∈ f.subtree) :
    x.node ∈ f.node :: f.node.descendants := by
  rw [← map_node_subtree f]
  exact List.mem_map_of_mem h

/-! ## Properties of all nodes -/

/-- Whether something holds of a node and of all below it. -/
def Node.Throughout (P : Node → Prop) (n : Node) : Prop :=
  ∀ d ∈ n :: n.descendants, P d

namespace Node.Throughout

variable {P : Node → Prop} {n c : Node}

theorem self (h : n.Throughout P) : P n :=
  h n List.mem_cons_self

theorem of_mem_children (h : n.Throughout P) (hc : c ∈ n.children) : c.Throughout P := by
  intro d hd
  have hbelow := cons_descendants_subset (mem_descendants_of_mem_children hc)
  exact h d (List.mem_cons_of_mem n (hbelow hd))

theorem of_child? {field : String} (h : n.Throughout P) (hc : n.child? field = some c) : c.Throughout P :=
  h.of_mem_children (List.mem_of_find?_eq_some hc)

end Node.Throughout

theorem Focus.throughout_of_mem_subtree {P : Node → Prop} {root f : Focus} (h : ∀ g ∈ root.subtree, P g.node)
    (hf : f ∈ root.subtree) : f.node.Throughout P := by
  intro d hd
  rw [← map_node_subtree] at hd
  obtain ⟨g, hg, rfl⟩ := List.mem_map.1 hd
  exact h g (subtree_subset hf hg)

end Guardrails
