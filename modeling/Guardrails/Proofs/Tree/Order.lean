import Guardrails.Syntax.Focus

/-!
# Document order

A place is known by the steps that lead down to it from the root. Document order is the order of the words
that these steps make, and the places around a node are those whose words its own begins with.
-/

namespace Guardrails.Focus

/-- The numbers of the children on the way down from the root. -/
def steps (f : Focus) : List Nat :=
  f.address.reverse

/-- Whether a place comes before another in document order. -/
def isBefore (f g : Focus) : Bool :=
  f.steps < g.steps

/-- Whether a place is a proper ancestor of another. -/
def isAbove (f g : Focus) : Bool :=
  f.depth < g.depth && f.steps.isPrefixOf g.steps

theorem isBefore_iff {f g : Focus} : f.isBefore g = true ↔ f.steps < g.steps := by
  simp [isBefore]

theorem isAbove_iff {f g : Focus} :
    f.isAbove g = true ↔ f.depth < g.depth ∧ f.steps <+: g.steps := by
  simp [isAbove]

@[simp] theorem steps_root (n : Node) : (root n).steps = [] := rfl

@[simp] theorem steps_cons (n : Node) (edge : Edge) (trail : List Edge) :
    (⟨n, edge :: trail⟩ : Focus).steps = (⟨edge.parent, trail⟩ : Focus).steps ++ [edge.index] := by
  simp [steps, address]

@[simp] theorem length_steps (f : Focus) : f.steps.length = f.depth := by
  simp [steps, address, depth]

theorem isBefore_irrefl (f : Focus) : f.isBefore f = false := by
  simp [isBefore]

theorem isBefore_trans {f g x : Focus} (hfg : f.isBefore g = true) (hgx : g.isBefore x = true) :
    f.isBefore x = true := by
  rw [isBefore_iff] at *
  exact List.lt_trans hfg hgx

theorem isBefore_asymm {f g : Focus} (h : f.isBefore g = true) : g.isBefore f = false := by
  rw [isBefore_iff] at h
  simpa [isBefore] using List.lt_asymm h

theorem isBefore_of_isAbove {f g : Focus} (h : f.isAbove g = true) : f.isBefore g = true := by
  obtain ⟨hdepth, rest, hrest⟩ := isAbove_iff.1 h
  rw [isBefore_iff, ← hrest]
  cases rest with
  | nil =>
    have := congrArg List.length hrest
    simp at this
    omega
  | cons i rest =>
    have hlt : f.steps ++ [] < f.steps ++ i :: rest := List.append_left_lt (List.nil_lt_cons i rest)
    rwa [List.append_nil] at hlt

/-! ## The subtree as a list -/

theorem subtreesOn_eq (parent : Node) (trail : List Edge) (index : Nat) (ns : List Node) :
    subtreesOn parent trail index ns =
      ((ns.zipIdx index).map fun n => ⟨n.1, ⟨parent, n.2⟩ :: trail⟩).flatMap subtree := by
  induction ns generalizing index with
  | nil => simp [subtreesOn]
  | cons n ns ih => simp [subtreesOn, ih, subtree]

theorem subtree_eq (f : Focus) : f.subtree = f :: f.children.flatMap subtree := by
  obtain ⟨⟨kind, isNamed, isError, isMissing, hasError, field, start, stop, children⟩, trail⟩ := f
  simp [subtree, subtreeOn, subtreesOn_eq, Focus.children, List.mapIdx_eq_zipIdx_map]

theorem self_mem_subtree (f : Focus) : f ∈ f.subtree := by
  rw [subtree_eq]
  exact List.mem_cons_self

theorem mem_subtree {f x : Focus} : x ∈ f.subtree ↔ x = f ∨ ∃ c ∈ f.children, x ∈ c.subtree := by
  rw [subtree_eq, List.mem_cons, List.mem_flatMap]

theorem size_lt_of_mem_children {f c : Focus} (h : c ∈ f.children) : c.node.size < f.node.size := by
  apply Node.size_lt_of_mem
  rw [← map_node_children]
  exact List.mem_map_of_mem h

theorem subtree_induction {P : Focus → Prop} (h : ∀ f, (∀ c ∈ f.children, P c) → P f) (f : Focus) :
    P f :=
  h f fun c _ => subtree_induction h c
termination_by f.node.size
decreasing_by
  rename_i hc
  exact size_lt_of_mem_children hc

theorem subtree_subset {f : Focus} : ∀ {x}, x ∈ f.subtree → x.subtree ⊆ f.subtree := by
  induction f using subtree_induction with
  | h f ih =>
    intro x hx
    rcases mem_subtree.1 hx with rfl | ⟨c, hc, hx⟩
    · exact List.Subset.refl _
    · exact fun y hy => mem_subtree.2 (.inr ⟨c, hc, ih c hc hx hy⟩)

theorem mem_subtree_of_mem_children {f g c : Focus} (hg : g ∈ f.subtree) (hc : c ∈ g.children) : c ∈ f.subtree :=
  subtree_subset hg (mem_subtree.2 (.inr ⟨c, hc, self_mem_subtree c⟩))

theorem steps_of_mem_children {f c : Focus} (h : c ∈ f.children) : ∃ i, c.steps = f.steps ++ [i] := by
  simp only [children, List.mem_mapIdx] at h
  obtain ⟨i, hi, rfl⟩ := h
  exact ⟨i, by simp⟩

theorem steps_prefix_of_mem_subtree {f : Focus} : ∀ {x}, x ∈ f.subtree → f.steps <+: x.steps := by
  induction f using subtree_induction with
  | h f ih =>
    intro x hx
    rcases mem_subtree.1 hx with rfl | ⟨c, hc, hx⟩
    · exact List.prefix_refl _
    · obtain ⟨i, hi⟩ := steps_of_mem_children hc
      exact (hi ▸ List.prefix_append _ _).trans (ih c hc hx)

theorem depth_le_of_mem_subtree {f x : Focus} (h : x ∈ f.subtree) : f.depth ≤ x.depth := by
  have := (steps_prefix_of_mem_subtree h).length_le
  simpa using this

/-- Between a place and one below it there is a place at every depth. -/
theorem exists_depth_of_mem_subtree {f : Focus} {d : Nat} :
    ∀ {x}, x ∈ f.subtree → f.depth ≤ d → d ≤ x.depth → ∃ y ∈ f.subtree, y.depth = d := by
  induction f using subtree_induction with
  | h f ih =>
    intro x hx hf hd
    by_cases heq : f.depth = d
    · exact ⟨f, self_mem_subtree f, heq⟩
    · rcases mem_subtree.1 hx with rfl | ⟨c, hc, hx⟩
      · omega
      · have hdepth := depth_of_mem_children hc
        obtain ⟨y, hy, hyd⟩ := ih c hc hx (by omega) hd
        exact ⟨y, mem_subtree.2 (.inr ⟨c, hc, hy⟩), hyd⟩

theorem children_pairwise (f : Focus) :
    f.children.Pairwise fun c d => ∀ x ∈ c.subtree, ∀ y ∈ d.subtree, x.isBefore y = true := by
  rw [children, List.pairwise_iff_getElem]
  intro i j hi hj hij x hx y hy
  obtain ⟨xs, hxs⟩ := steps_prefix_of_mem_subtree hx
  obtain ⟨ys, hys⟩ := steps_prefix_of_mem_subtree hy
  rw [isBefore_iff, ← hxs, ← hys]
  simp only [List.getElem_mapIdx, steps_cons, List.append_assoc, List.singleton_append]
  exact List.append_left_lt (List.cons_lt_cons_iff.2 (.inl hij))

theorem isBefore_of_mem_children {f c x : Focus} (hc : c ∈ f.children) (hx : x ∈ c.subtree) :
    f.isBefore x = true := by
  apply isBefore_of_isAbove
  rw [isAbove_iff]
  have hdepth := depth_of_mem_children hc
  have := depth_le_of_mem_subtree hx
  exact ⟨by omega, steps_prefix_of_mem_subtree (mem_subtree.2 (.inr ⟨c, hc, hx⟩))⟩

theorem subtree_pairwise (f : Focus) : f.subtree.Pairwise fun x y => x.isBefore y = true := by
  induction f using subtree_induction with
  | h f ih =>
    rw [subtree_eq, List.pairwise_cons, List.pairwise_flatMap]
    refine ⟨?_, ih, children_pairwise f⟩
    intro x hx
    obtain ⟨c, hc, hx⟩ := List.mem_flatMap.1 hx
    exact isBefore_of_mem_children hc hx

theorem eq_of_pairwise_isBefore {l m : List Focus} (hl : l.Pairwise fun f g => f.isBefore g = true)
    (hm : m.Pairwise fun f g => f.isBefore g = true) (h : ∀ f, f ∈ l ↔ f ∈ m) : l = m := by
  have hnodup {l : List Focus} (hl : l.Pairwise fun f g => f.isBefore g = true) : l.Nodup := by
    refine hl.imp fun {f g} hbefore heq => ?_
    rw [heq, isBefore_irrefl] at hbefore
    cases hbefore
  have hperm : l.Perm m := (List.perm_ext_iff_of_nodup (hnodup hl) (hnodup hm)).2 h
  refine hperm.eq_of_pairwise (fun f g _ _ hfg hgf => ?_) hl hm
  rw [isBefore_asymm hfg] at hgf
  cases hgf

end Guardrails.Focus
