import Mathlib.Data.List.Chain
import Mathlib.Data.List.Nodup
import Guardrails.Proofs.Lists
import Guardrails.Proofs.Tree.Order
import Guardrails.Syntax.Cursor

/-!
# Tours

The places that a cursor comes to when it moves on until it cannot, entering nothing below a given depth.
They are the places of the tree down to one edge below that depth, in document order.
-/

namespace Guardrails

namespace Focus

/-! ## First children and next siblings -/

theorem trail_of_firstChild? {f child : Focus} (h : f.firstChild? = some child) :
    child.trail = ⟨f.node, 0⟩ :: f.trail := by
  unfold firstChild? at h
  split at h
  · simp at h
  · cases h
    rfl

theorem trail_of_siblingOn? {edge : Edge} {rest : List Edge} {sibling : Focus}
    (h : siblingOn? edge rest = some sibling) : sibling.trail = ⟨edge.parent, edge.index + 1⟩ :: rest := by
  unfold siblingOn? at h
  obtain ⟨n, -, rfl⟩ := Option.map_eq_some_iff.1 h
  rfl

theorem flatMap_subtree_children (f : Focus) :
    f.children.flatMap subtree = subtreesOn f.node f.trail 0 f.node.children := by
  rw [subtreesOn_eq, children, List.mapIdx_eq_zipIdx_map]

theorem flatMap_subtree_of_firstChild? {f child : Focus} (h : f.firstChild? = some child) :
    f.children.flatMap subtree =
      child.subtree ++ subtreesOn f.node f.trail 1 (f.node.children.drop 1) := by
  rw [flatMap_subtree_children]
  unfold firstChild? at h
  split at h
  · simp at h
  · rename_i n rest hchildren
    cases h
    rw [hchildren]
    rfl

theorem children_of_firstChild?_eq_none {f : Focus} (h : f.firstChild? = none) : f.children = [] := by
  unfold firstChild? at h
  split at h
  · rename_i hchildren
    rw [children, hchildren, List.mapIdx_nil]
  · simp at h

theorem subtreesOn_of_siblingOn? {edge : Edge} {rest : List Edge} {sibling : Focus}
    (h : siblingOn? edge rest = some sibling) :
    subtreesOn edge.parent rest (edge.index + 1) (edge.parent.children.drop (edge.index + 1)) =
      sibling.subtree ++
        subtreesOn edge.parent rest (edge.index + 2) (edge.parent.children.drop (edge.index + 2)) := by
  unfold siblingOn? at h
  obtain ⟨n, hn, rfl⟩ := Option.map_eq_some_iff.1 h
  obtain ⟨hlt, hget⟩ := List.getElem?_eq_some_iff.1 hn
  rw [List.drop_eq_getElem_cons hlt, hget]
  rfl

theorem subtreesOn_of_siblingOn?_eq_none {edge : Edge} {rest : List Edge}
    (h : siblingOn? edge rest = none) :
    subtreesOn edge.parent rest (edge.index + 1) (edge.parent.children.drop (edge.index + 1)) = [] := by
  unfold siblingOn? at h
  rw [Option.map_eq_none_iff, List.getElem?_eq_none_iff] at h
  rw [List.drop_eq_nil_of_le h, subtreesOn]

/-! ## What comes after a place -/

/-- The places after the ones at and below the end of a trail, in document order. -/
def after : List Edge → List Focus
  | [] => []
  | edge :: rest =>
    subtreesOn edge.parent rest (edge.index + 1) (edge.parent.children.drop (edge.index + 1)) ++
      after rest

def upcoming (f : Focus) : List Focus :=
  f.subtree ++ after f.trail

@[simp] theorem upcoming_root (n : Node) : (root n).upcoming = (root n).subtree := by
  simp [upcoming, root, after]

theorem upcoming_of_firstChild? {f child : Focus} (h : f.firstChild? = some child) :
    f.upcoming = f :: child.upcoming := by
  rw [upcoming, subtree_eq, flatMap_subtree_of_firstChild? h, upcoming, trail_of_firstChild? h, after,
    List.cons_append, List.append_assoc]

theorem upcoming_of_firstChild?_eq_none {f : Focus} (h : f.firstChild? = none) :
    f.upcoming = f :: after f.trail := by
  rw [upcoming, subtree_eq, children_of_firstChild?_eq_none h]
  rfl

theorem upcoming_of_siblingOn? {edge : Edge} {rest : List Edge} {sibling : Focus}
    (h : siblingOn? edge rest = some sibling) : sibling.upcoming = after (edge :: rest) := by
  rw [upcoming, trail_of_siblingOn? h, after, after, subtreesOn_of_siblingOn? h, List.append_assoc]

theorem after_of_siblingOn?_eq_none {edge : Edge} {rest : List Edge}
    (h : siblingOn? edge rest = none) : after (edge :: rest) = after rest := by
  rw [after, subtreesOn_of_siblingOn?_eq_none h, List.nil_append]

theorem upcoming_eq (f : Focus) : f.upcoming = f :: (f.children.flatMap subtree ++ after f.trail) := by
  rw [upcoming, subtree_eq, List.cons_append]

theorem depth_lt_of_mem_below {f x : Focus} (h : x ∈ f.children.flatMap subtree) :
    f.depth < x.depth := by
  obtain ⟨c, hc, hx⟩ := List.mem_flatMap.1 h
  have hdepth := depth_of_mem_children hc
  have := depth_le_of_mem_subtree hx
  omega

end Focus

/-! ## Moving on -/

namespace Cursor

/-- Whether the cursor has counted right. -/
def IsCounted (c : Cursor) : Prop :=
  c.depth = c.focus.depth

theorem isCounted_start (root : Node) : (start root).IsCounted := rfl

theorem onwardOn?_eq (depth : Nat) (trail : List Edge) :
    Focus.after trail = match onwardOn? depth trail with
      | some d => d.focus.upcoming
      | none => [] := by
  induction trail generalizing depth with
  | nil => rfl
  | cons edge rest ih =>
    cases hsibling : Focus.siblingOn? edge rest with
    | some sibling => simp only [onwardOn?, hsibling, Focus.upcoming_of_siblingOn? hsibling]
    | none =>
      simp only [onwardOn?, hsibling, Focus.after_of_siblingOn?_eq_none hsibling]
      exact ih (depth - 1)

theorem isCounted_of_onwardOn? {depth : Nat} {trail : List Edge} {d : Cursor}
    (hdepth : depth = trail.length) (h : onwardOn? depth trail = some d) : d.IsCounted := by
  induction trail generalizing depth with
  | nil => simp [onwardOn?] at h
  | cons edge rest ih =>
    unfold onwardOn? at h
    split at h
    · rename_i sibling hsibling
      cases h
      simp [IsCounted, Focus.depth, Focus.trail_of_siblingOn? hsibling, hdepth]
    · exact ih (by simp [hdepth]) h

theorem isCounted_of_firstChild? {c d : Cursor} (hc : c.IsCounted) (h : c.firstChild? = some d) :
    d.IsCounted := by
  obtain ⟨f, hf, rfl⟩ := Option.map_eq_some_iff.1 h
  simpa [IsCounted, Focus.depth, Focus.trail_of_firstChild? hf] using hc

theorem depth_le_of_onwardOn? {depth : Nat} {trail : List Edge} {d : Cursor}
    (h : onwardOn? depth trail = some d) : d.depth ≤ depth := by
  induction trail generalizing depth with
  | nil => simp [onwardOn?] at h
  | cons edge rest ih =>
    unfold onwardOn? at h
    split at h
    · cases h
      exact Nat.le_refl _
    · have := ih h
      omega

theorem next?_false (c : Cursor) : c.next? false = c.onward? := rfl

theorem next?_true (c : Cursor) :
    c.next? true = match c.firstChild? with
      | some child => some child
      | none => c.onward? := rfl

theorem next?_cases {c d : Cursor} {mayEnter : Bool} (h : c.next? mayEnter = some d) :
    mayEnter = true ∧ c.firstChild? = some d ∨ c.onward? = some d := by
  unfold next? at h
  split at h
  · rename_i child hchild
    cases h
    split at hchild
    · exact .inl ⟨by assumption, hchild⟩
    · simp at hchild
  · exact .inr h

theorem isCounted_of_next? {c d : Cursor} {mayEnter : Bool} (hc : c.IsCounted)
    (h : c.next? mayEnter = some d) : d.IsCounted := by
  rcases next?_cases h with ⟨-, h⟩ | h
  · exact isCounted_of_firstChild? hc h
  · exact isCounted_of_onwardOn? hc h

theorem depth_le_of_next? {c d : Cursor} {bound : Nat} (hc : c.depth ≤ bound + 1)
    (h : c.next? (decide (c.depth ≤ bound)) = some d) : d.depth ≤ bound + 1 := by
  rcases next?_cases h with ⟨henter, h⟩ | h
  · obtain ⟨f, -, rfl⟩ := Option.map_eq_some_iff.1 h
    simpa using henter
  · exact Nat.le_trans (depth_le_of_onwardOn? h) hc

/-! ## The tour -/

/-- The places that a cursor comes to from here on, entering those down to the given depth. -/
def tour (bound : Nat) (c : Cursor) : List Focus :=
  c.focus :: match _ : c.next? (decide (c.depth ≤ bound)) with
    | some next => next.tour bound
    | none => []
termination_by c.focus.sizeFrom
decreasing_by
  rename_i h
  exact sizeFrom_of_next? h

theorem tour_cons (bound : Nat) (c : Cursor) :
    c.tour bound = c.focus :: match c.next? (decide (c.depth ≤ bound)) with
      | some next => next.tour bound
      | none => [] := by
  rw [tour]
  split <;> simp [*]

theorem head?_tour (bound : Nat) (c : Cursor) : (c.tour bound).head? = some c.focus := by
  rw [tour_cons, List.head?_cons]

theorem filter_upcoming_eq {bound : Nat} {c : Cursor} (hc : c.IsCounted) (hdepth : c.depth ≤ bound + 1) :
    c.focus.upcoming.filter (·.depth ≤ bound + 1) =
      c.focus :: match c.next? (decide (c.depth ≤ bound)) with
        | some next => next.focus.upcoming.filter (·.depth ≤ bound + 1)
        | none => [] := by
  have honward : (Focus.after c.focus.trail).filter (·.depth ≤ bound + 1) =
      match c.onward? with
        | some next => next.focus.upcoming.filter (·.depth ≤ bound + 1)
        | none => [] := by
    rw [onwardOn?_eq c.depth, onward?]
    cases onwardOn? c.depth c.focus.trail <;> rfl
  have hself : ∀ l, (c.focus :: l).filter (fun f : Focus => decide (f.depth ≤ bound + 1)) =
      c.focus :: l.filter (fun f : Focus => decide (f.depth ≤ bound + 1)) := by
    intro l
    rw [IsCounted] at hc
    exact List.filter_cons_of_pos (decide_eq_true (hc ▸ hdepth))
  by_cases henter : c.depth ≤ bound
  · rw [decide_eq_true henter, next?_true]
    cases hchild : c.focus.firstChild? with
    | some child => rw [Focus.upcoming_of_firstChild? hchild, hself, firstChild?, hchild]; rfl
    | none =>
      rw [Focus.upcoming_of_firstChild?_eq_none hchild, hself, honward, firstChild?, hchild]; rfl
  · -- Nothing below a place at the last depth is within the depth.
    have hbelow : (c.focus.children.flatMap Focus.subtree).filter
        (fun f : Focus => decide (f.depth ≤ bound + 1)) = [] := by
      rw [List.filter_eq_nil_iff]
      intro x hx
      have := Focus.depth_lt_of_mem_below hx
      rw [IsCounted] at hc
      simp only [decide_eq_true_eq]
      omega
    rw [decide_eq_false henter, next?_false, Focus.upcoming_eq, hself, List.filter_append, hbelow,
      List.nil_append, honward]

/-- The tour is document order down to one edge below the depth. -/
theorem tour_eq {bound : Nat} {c : Cursor} (hc : c.IsCounted) (hdepth : c.depth ≤ bound + 1) :
    c.tour bound = c.focus.upcoming.filter (·.depth ≤ bound + 1) := by
  induction c using tour.induct bound with
  | case1 c ih =>
    rw [tour_cons, filter_upcoming_eq hc hdepth]
    congr 1
    cases hnext : c.next? (decide (c.depth ≤ bound)) with
    | none => rfl
    | some next => exact ih next hnext (isCounted_of_next? hc hnext) (depth_le_of_next? hdepth hnext)

end Cursor

/-! ## Neighbours -/

/-- The places of a subtree down to the given depth, in document order. -/
def Focus.within (bound : Nat) (f : Focus) : List Focus :=
  f.subtree.filter (·.depth ≤ bound)

theorem Focus.within_eq_subtree {bound : Nat} {f : Focus} (h : ∀ g ∈ f.subtree, g.depth ≤ bound) :
    f.within bound = f.subtree :=
  List.filter_eq_self.2 fun g hg => decide_eq_true (h g hg)

theorem Focus.flatMap_within {α : Type _} (bound : Nat) (f : Focus) (g : Focus → List α) :
    (f.within bound).flatMap g = f.subtree.flatMap fun x => if x.depth ≤ bound then g x else [] := by
  have hfilter := flatMap_filter_eq (p := fun x => decide (x.depth ≤ bound)) (l := f.subtree)
    (f := fun x => if x.depth ≤ bound then g x else []) fun x _ hx => if_neg (of_decide_eq_false hx)
  rw [within, ← hfilter]
  refine List.flatMap_congr fun x hx => ?_
  rw [if_pos (of_decide_eq_true (List.mem_filter.1 hx).2)]

/-- Whether what encloses `g` also encloses `f`, or is `f`. -/
def Focus.LeadsTo (f g : Focus) : Prop :=
  g.steps.dropLast <+: f.steps

namespace Cursor

open Focus

theorem leadsTo_of_onwardOn? {depth : Nat} {trail : List Edge} {d : Cursor} {n : Node}
    (h : onwardOn? depth trail = some d) : LeadsTo ⟨n, trail⟩ d.focus := by
  induction trail generalizing depth n with
  | nil => simp [onwardOn?] at h
  | cons edge rest ih =>
    unfold onwardOn? at h
    split at h
    · rename_i sibling hsibling
      cases h
      simp [LeadsTo, steps, address, trail_of_siblingOn? hsibling]
    · have hparent := ih (n := edge.parent) h
      rw [LeadsTo, steps_cons]
      exact hparent.trans (List.prefix_append _ _)

theorem leadsTo_of_next? {c d : Cursor} {mayEnter : Bool} (h : c.next? mayEnter = some d) :
    LeadsTo c.focus d.focus := by
  rcases next?_cases h with ⟨-, h⟩ | h
  · obtain ⟨f, hf, rfl⟩ := Option.map_eq_some_iff.1 h
    simp [LeadsTo, steps, address, trail_of_firstChild? hf]
  · exact leadsTo_of_onwardOn? h

theorem isChain_tour (bound : Nat) (c : Cursor) : (c.tour bound).IsChain LeadsTo := by
  induction c using tour.induct bound with
  | case1 c ih =>
    rw [tour_cons]
    cases hnext : c.next? (decide (c.depth ≤ bound)) with
    | none => exact List.IsChain.singleton _
    | some next =>
      refine List.IsChain.cons (ih next hnext) ?_
      intro g hg
      obtain rfl : next.focus = g := by simpa [head?_tour] using hg
      exact leadsTo_of_next? hnext

end Cursor

namespace Focus

/-- Leaving out the places that are too deep, each place still leads to the next one: `x` is the last place
passed and `f` the last one kept. -/
theorem isChain_filter_depth {bound : Nat} {f x : Focus} {l : List Focus}
    (hx : x.steps.take bound <+: f.steps) (hl : (x :: l).IsChain LeadsTo) :
    (f :: l.filter (·.depth ≤ bound)).IsChain LeadsTo := by
  induction l generalizing f x with
  | nil => exact List.IsChain.singleton f
  | cons y l ih =>
    obtain ⟨hxy, hl⟩ := List.isChain_cons_cons.1 hl
    have hlength : y.steps.dropLast.length = y.depth - 1 := by simp
    by_cases hy : y.depth ≤ bound
    · rw [List.filter_cons_of_pos (by simpa using hy)]
      refine List.IsChain.cons_cons ?_ (ih (List.take_prefix _ _) hl)
      exact (List.prefix_take_iff.2 ⟨hxy, by omega⟩).trans hx
    · rw [List.filter_cons_of_neg (by simpa using hy)]
      refine ih ?_ hl
      have htake : y.steps.take bound = y.steps.dropLast.take bound := by
        rw [List.dropLast_eq_take, List.take_take, length_steps]
        congr 1
        omega
      rw [htake]
      have := (List.take_prefix bound y.steps.dropLast).trans hxy
      exact (List.prefix_take_iff.2 ⟨this, List.length_take_le _ _⟩).trans hx

theorem tour_start (bound : Nat) (root : Node) :
    (Cursor.start root).tour bound = (Focus.root root).within (bound + 1) := by
  rw [Cursor.tour_eq (Cursor.isCounted_start root) (Nat.zero_le _)]
  simp [within, Cursor.start]

theorem isChain_within (bound : Nat) (root : Node) :
    ((Focus.root root).within bound).IsChain LeadsTo := by
  have hfilter : (Focus.root root).within bound =
      ((Cursor.start root).tour bound).filter (·.depth ≤ bound) := by
    rw [tour_start, within, within, List.filter_filter]
    congr 1
    funext f
    simp only [← Bool.decide_and, decide_eq_decide]
    omega
  have hchain := Cursor.isChain_tour bound (Cursor.start root)
  rw [hfilter]
  rw [Cursor.tour_cons] at hchain ⊢
  exact isChain_filter_depth (List.take_prefix _ _) hchain

theorem exists_parent_of_mem_subtree {root f : Focus} (h : f ∈ root.subtree) :
    f = root ∨ ∃ p ∈ root.subtree, f ∈ p.children := by
  induction root using subtree_induction with
  | h root ih =>
    rcases mem_subtree.1 h with rfl | ⟨c, hc, hf⟩
    · exact .inl rfl
    · right
      rcases ih c hc hf with rfl | ⟨p, hp, hfp⟩
      · exact ⟨root, self_mem_subtree root, hc⟩
      · exact ⟨p, mem_subtree.2 (.inr ⟨c, hc, hp⟩), hfp⟩

theorem eq_of_steps_eq {root f g : Focus} (hf : f ∈ root.subtree) (hg : g ∈ root.subtree)
    (h : f.steps = g.steps) : f = g := by
  have hnodup : (root.subtree.map steps).Nodup := by
    refine List.pairwise_map.2 ((subtree_pairwise root).imp fun {x y} hbefore hsteps => ?_)
    simp [isBefore, hsteps] at hbefore
  exact List.inj_on_of_nodup_map hnodup hf hg h

theorem LeadsTo.depth_le {root f g : Focus} (h : f.LeadsTo g) (hf : f ∈ root.subtree) (hg : g ∈ root.subtree)
    (hleaf : f.node.children = []) : g.depth ≤ f.depth := by
  by_contra hdeep
  have hlength := h.length_le
  simp only [List.length_dropLast, length_steps] at hlength
  rcases exists_parent_of_mem_subtree hg with rfl | ⟨p, hp, hgp⟩
  · have := depth_le_of_mem_subtree hf
    omega
  · obtain ⟨i, hi⟩ := steps_of_mem_children hgp
    have hsteps : p.steps = f.steps := by
      have hfront : p.steps <+: f.steps := by simpa [LeadsTo, hi] using h
      refine hfront.eq_of_length ?_
      have := depth_of_mem_children hgp
      simp only [length_steps]
      omega
    obtain rfl := eq_of_steps_eq hp hf hsteps
    rw [children, hleaf] at hgp
    exact List.not_mem_nil hgp

end Focus
end Guardrails
