import Guardrails.Proofs.Lists
import Guardrails.Proofs.Tree.Descent
import Guardrails.Proofs.Tree.Family
import Guardrails.Proofs.Tree.Tour

/-!
# Trees without some of their nodes

Nodes of some kinds are taken out of a tree, with all that is below them. When these are comments without
children that fill no field, the places that stay have the same families as before. Of the two kinds of comments
only one is left out where named children are read, and so the other one must not stand there.
-/

namespace Guardrails

namespace Node

mutual

/-- The node, where nothing of these kinds is left below it. -/
def without (kinds : List String) : Node → Node
  | ⟨kind, isNamed, isError, isMissing, hasError, field, start, stop, children⟩ =>
    ⟨kind, isNamed, isError, isMissing, hasError, field, start, stop, withoutAll kinds children⟩

def withoutAll (kinds : List String) : List Node → List Node
  | [] => []
  | n :: ns => if n.kind ∈ kinds then withoutAll kinds ns else without kinds n :: withoutAll kinds ns

end

/-- Whether a node stays when those of some kinds are taken out. -/
def stays (kinds : List String) (n : Node) : Bool :=
  n.kind ∉ kinds

variable {kinds : List String} {n : Node}

@[simp] theorem kind_without (kinds : List String) (n : Node) : (n.without kinds).kind = n.kind := by
  cases n; rfl

@[simp] theorem isNamed_without (kinds : List String) (n : Node) : (n.without kinds).isNamed = n.isNamed := by
  cases n; rfl

@[simp] theorem field_without (kinds : List String) (n : Node) : (n.without kinds).field = n.field := by
  cases n; rfl

@[simp] theorem start_without (kinds : List String) (n : Node) : (n.without kinds).start = n.start := by
  cases n; rfl

@[simp] theorem stop_without (kinds : List String) (n : Node) : (n.without kinds).stop = n.stop := by
  cases n; rfl

theorem withoutAll_eq (kinds : List String) (ns : List Node) :
    withoutAll kinds ns = (ns.filter (stays kinds)).map (without kinds) := by
  induction ns with
  | nil => rfl
  | cons n ns ih =>
    by_cases hkind : n.kind ∈ kinds <;> simp [withoutAll, stays, hkind, ih]

theorem children_without (kinds : List String) (n : Node) :
    (n.without kinds).children = (n.children.filter (stays kinds)).map (without kinds) := by
  rw [← withoutAll_eq]
  cases n; rfl

/-! ## Loose nodes -/

/-- Whether a node is a comment on its own, which no field of its parent holds. -/
structure IsLoose (n : Node) : Prop where
  kind : n.kind = "comment" ∨ n.kind = "html_comment"
  field : n.field = ""
  children : n.children = []

instance : DecidablePred IsLoose := fun n =>
  decidable_of_iff ((n.kind = "comment" ∨ n.kind = "html_comment") ∧ n.field = "" ∧ n.children.isEmpty = true)
    ⟨fun ⟨hkind, hfield, hchildren⟩ => ⟨hkind, hfield, List.isEmpty_iff.1 hchildren⟩,
      fun ⟨hkind, hfield, hchildren⟩ => ⟨hkind, hfield, List.isEmpty_iff.2 hchildren⟩⟩

/-- Whether a node is of a kind, or fills a field, of which the named children are read. -/
def isList (n : Node) : Bool :=
  ["program", "statement_block", "expression_statement", "parenthesized_expression", "object", "export_statement",
    "export_clause"].contains n.kind || ["arguments", "parameters"].contains n.field

theorem isList_of_child? {c : Node} {field : String} (hc : n.child? field = some c)
    (hfield : ["arguments", "parameters"].contains field = true) : c.isList = true := by
  have hfound := List.find?_some hc
  rw [beq_iff_eq] at hfound
  rw [isList, hfound, hfield, Bool.or_true]

/-- Whether everything of some kinds that is below a node is loose, and in lists is of the kind that is left out
there. -/
inductive Tidy (kinds : List String) : Node → Prop
  | intro (n : Node) (hloose : ∀ c ∈ n.children, c.kind ∈ kinds → c.IsLoose)
      (hlist : n.isList = true → ∀ c ∈ n.children, c.kind ∈ kinds → c.isComment = true)
      (hchildren : ∀ c ∈ n.children, Tidy kinds c) : Tidy kinds n

theorem Tidy.isLoose (h : n.Tidy kinds) : ∀ c ∈ n.children, c.kind ∈ kinds → c.IsLoose := by
  cases h with
  | intro _ hloose _ _ => exact hloose

theorem Tidy.isComment (h : n.Tidy kinds) (hlist : n.isList = true) :
    ∀ c ∈ n.children, c.stays kinds = false → c.isComment = true := by
  cases h with
  | intro _ _ hcomment _ =>
    intro c hc hstays
    exact hcomment hlist c hc (by simpa [stays] using hstays)

theorem Tidy.child (h : n.Tidy kinds) {c : Node} (hc : c ∈ n.children) : c.Tidy kinds := by
  cases h with
  | intro _ _ _ hchildren => exact hchildren c hc

theorem Tidy.of_child? (h : n.Tidy kinds) {c : Node} {field : String} (hc : n.child? field = some c) :
    c.Tidy kinds :=
  h.child (List.mem_of_find?_eq_some hc)

theorem Tidy.of_mem_namedChildren (h : n.Tidy kinds) {c : Node} (hc : c ∈ n.namedChildren) : c.Tidy kinds :=
  h.child (mem_children_of_mem_namedChildren hc)

theorem Tidy.not_stays (h : n.Tidy kinds) {c : Node} (hc : c ∈ n.children) (hstays : c.stays kinds = false) :
    c.IsLoose :=
  h.isLoose c hc (by simpa [stays] using hstays)

theorem child?_without (h : n.Tidy kinds) {field : String} (hfield : field ≠ "") :
    (n.without kinds).child? field = (n.child? field).map (without kinds) := by
  unfold child?
  rw [children_without]
  apply find?_map_filter
  · intro c _ _
    rw [field_without]
  · intro c hc hstays
    rw [(h.not_stays hc hstays).field]
    simpa using hfield.symm

theorem namedChildren_without (h : n.Tidy kinds) (hlist : n.isList = true) :
    (n.without kinds).namedChildren = n.namedChildren.map (without kinds) := by
  unfold namedChildren
  rw [children_without]
  apply filter_map_filter
  · intro c _ _
    simp [isComment]
  · intro c hc hstays
    simp [h.isComment hlist c hc hstays]

theorem inside?_without (h : n.Tidy kinds) (hlist : n.isList = true) :
    (n.without kinds).inside? = n.inside?.map (without kinds) := by
  rw [inside?, namedChildren_without h hlist, List.head?_map, inside?]

theorem bind_child?_without {α : Type} (h : n.Tidy kinds) {field : String} (hfield : field ≠ "") {g : Node → Option α}
    (hg : ∀ c ∈ n.children, c.Tidy kinds → g (c.without kinds) = g c) :
    ((n.without kinds).child? field).bind g = (n.child? field).bind g := by
  rw [child?_without h hfield, Option.bind_map]
  exact Option.bind_congr fun c hc => hg c (List.mem_of_find?_eq_some hc) (h.of_child? hc)

theorem any_child?_without (h : n.Tidy kinds) {field : String} (hfield : field ≠ "") {p : Node → Bool}
    (hp : ∀ c ∈ n.children, c.Tidy kinds → p (c.without kinds) = p c) :
    ((n.without kinds).child? field).any p = (n.child? field).any p := by
  rw [child?_without h hfield, Option.any_map]
  cases hc : n.child? field with
  | none => rfl
  | some c => exact hp c (List.mem_of_find?_eq_some hc) (h.of_child? hc)

theorem bind_inside?_without {α : Type} (h : n.Tidy kinds) (hlist : n.isList = true) {g : Node → Option α}
    (hg : ∀ c ∈ n.children, c.Tidy kinds → g (c.without kinds) = g c) :
    (n.without kinds).inside?.bind g = n.inside?.bind g := by
  rw [inside?_without h hlist, Option.bind_map]
  refine Option.bind_congr fun c hc => ?_
  have hmem := mem_children_of_mem_namedChildren (List.mem_of_mem_head? hc)
  exact hg c hmem (h.child hmem)

end Node

/-! ## Places -/

/-- The edge in the tree without nodes of some kinds, when it leads to a node that stays. -/
def Edge.without (kinds : List String) (edge : Edge) : Edge :=
  ⟨edge.parent.without kinds, ((edge.parent.children.take edge.index).filter (Node.stays kinds)).length⟩

namespace Focus

variable {kinds : List String} {f g c : Focus}

/-- The place in the tree without nodes of some kinds. -/
def without (kinds : List String) (f : Focus) : Focus :=
  ⟨f.node.without kinds, f.trail.map (Edge.without kinds)⟩

def stays (kinds : List String) (f : Focus) : Bool :=
  f.node.stays kinds

@[simp] theorem node_without (kinds : List String) (f : Focus) :
    (f.without kinds).node = f.node.without kinds := rfl

@[simp] theorem depth_without (kinds : List String) (f : Focus) : (f.without kinds).depth = f.depth := by
  simp [without, depth]

@[simp] theorem without_root (kinds : List String) (n : Node) :
    (root n).without kinds = root (n.without kinds) := rfl

theorem parent?_without (kinds : List String) (f : Focus) :
    (f.without kinds).parent? = f.parent?.map (without kinds) := by
  unfold parent? without
  cases f.trail <;> rfl

theorem ancestorsOn_without (kinds : List String) (trail : List Edge) :
    ancestorsOn (trail.map (Edge.without kinds)) = (ancestorsOn trail).map (without kinds) := by
  induction trail with
  | nil => rfl
  | cons edge rest ih => simp [ancestorsOn, ih, without, Edge.without]

theorem ancestors_without (kinds : List String) (f : Focus) :
    (f.without kinds).ancestors = f.ancestors.map (without kinds) :=
  ancestorsOn_without kinds f.trail

theorem children_without (kinds : List String) (f : Focus) :
    (f.without kinds).children = (f.children.filter (stays kinds)).map (without kinds) := by
  have hcount : ∀ (before ns : List Node), f.node.children = before ++ ns →
      (((ns.filter (Node.stays kinds)).map (Node.without kinds)).zipIdx
          (before.filter (Node.stays kinds)).length).map
        (fun child => (⟨child.1, ⟨f.node.without kinds, child.2⟩ :: f.trail.map (Edge.without kinds)⟩ : Focus)) =
      (((ns.zipIdx before.length).map fun child => (⟨child.1, ⟨f.node, child.2⟩ :: f.trail⟩ : Focus)).filter
        (stays kinds)).map (without kinds) := by
    intro before ns
    induction ns generalizing before with
    | nil => simp
    | cons n ns ih =>
      intro hsplit
      have hrest := ih (before ++ [n]) (by simp [hsplit])
      cases hstays : n.stays kinds with
      | true =>
        have hindex : Edge.without kinds ⟨f.node, before.length⟩ =
            ⟨f.node.without kinds, (before.filter (Node.stays kinds)).length⟩ := by
          simp [Edge.without, hsplit]
        have hhead : stays kinds ⟨n, ⟨f.node, before.length⟩ :: f.trail⟩ = true := hstays
        rw [List.filter_append, List.filter_cons_of_pos hstays] at hrest
        simp only [List.length_append, List.filter_nil, List.length_singleton] at hrest
        rw [List.filter_cons_of_pos hstays, List.map_cons, List.zipIdx_cons, List.map_cons, hrest, List.zipIdx_cons,
          List.map_cons, List.filter_cons_of_pos hhead, List.map_cons]
        simp [without, hindex]
      | false =>
        have hhead : ¬ stays kinds ⟨n, ⟨f.node, before.length⟩ :: f.trail⟩ = true := by
          simp [stays, hstays]
        rw [List.filter_append, List.filter_cons_of_neg (by simp [hstays])] at hrest
        simp only [List.length_append, List.filter_nil, List.length_singleton, List.length_nil, Nat.add_zero] at hrest
        rw [List.filter_cons_of_neg (by simp [hstays]), hrest, List.zipIdx_cons, List.map_cons,
          List.filter_cons_of_neg hhead]
  have hall := hcount [] f.node.children rfl
  simp only [List.filter_nil, List.length_nil] at hall
  rw [children, children, List.mapIdx_eq_zipIdx_map, List.mapIdx_eq_zipIdx_map, node_without,
    Node.children_without]
  exact hall

theorem child?_without (h : f.node.Tidy kinds) {field : String} (hfield : field ≠ "") :
    (f.without kinds).child? field = (f.child? field).map (without kinds) := by
  unfold child?
  rw [children_without]
  apply find?_map_filter
  · intro c _ _
    rw [node_without, Node.field_without]
  · intro c hc hstays
    rw [(h.not_stays (node_mem_children hc) hstays).field]
    simpa using hfield.symm

theorem namedChildren_without (h : f.node.Tidy kinds) (hlist : f.node.isList = true) :
    (f.without kinds).namedChildren = f.namedChildren.map (without kinds) := by
  unfold namedChildren
  rw [children_without]
  apply filter_map_filter
  · intro c _ _
    simp [Node.isComment]
  · intro c hc hstays
    simp [h.isComment hlist c.node (node_mem_children hc) hstays]

theorem isAt_without {p : Focus} (hf : f ∈ p.children) (hg : g ∈ p.children) (hfstays : f.stays kinds = true)
    (hgstays : g.stays kinds = true) : (f.without kinds).isAt (g.without kinds) = f.isAt g := by
  obtain ⟨i, n, hn, rfl⟩ := mem_children.1 hf
  obtain ⟨j, m, hm, rfl⟩ := mem_children.1 hg
  -- A node that stays is counted before every later one.
  have hcount : ∀ {i j : Nat} {n : Node}, p.node.children[i]? = some n → n.stays kinds = true → i < j →
      ((p.node.children.take i).filter (Node.stays kinds)).length <
        ((p.node.children.take j).filter (Node.stays kinds)).length := by
    intro i j n hn hstays hij
    have hnext : p.node.children.take (i + 1) = p.node.children.take i ++ [n] := by
      rw [List.take_add_one, hn]
      rfl
    have hfront : p.node.children.take (i + 1) <+: p.node.children.take j :=
      List.take_prefix_take_left (by omega)
    have hle := (hfront.filter (Node.stays kinds)).length_le
    rw [hnext, List.filter_append, List.filter_cons_of_pos hstays] at hle
    simp only [List.filter_nil, List.length_append, List.length_singleton] at hle
    omega
  simp only [isAt, address, without, Edge.without, List.map_cons, List.map_map]
  rw [Bool.eq_iff_iff, beq_iff_eq, beq_iff_eq, List.cons.injEq, List.cons.injEq]
  refine and_congr ?_ (iff_of_true rfl rfl)
  constructor
  · intro h
    rcases Nat.lt_trichotomy i j with hij | hij | hij
    · have := hcount hn hfstays hij
      omega
    · exact hij
    · have := hcount hm hgstays hij
      omega
  · rintro rfl
    rfl

/-! ## Subtrees -/

theorem subtree_of_leaf (h : f.node.children = []) : f.subtree = [f] := by
  rw [subtree_eq, children, h]
  rfl

theorem descendants_without (h : f.node.Tidy kinds) :
    (f.without kinds).descendants = (f.descendants.filter (stays kinds)).map (without kinds) := by
  induction f using subtree_induction with
  | h f ih =>
    have hchild : ∀ c ∈ f.children, c.stays kinds = true →
        (c.without kinds).subtree = (c.subtree.filter (stays kinds)).map (without kinds) := by
      intro c hc hstays
      rw [subtree_eq_cons_descendants, subtree_eq_cons_descendants, ih c hc (h.child (node_mem_children hc)),
        List.filter_cons_of_pos hstays, List.map_cons]
    have hdropped : ∀ c ∈ f.children, c.stays kinds = false →
        (c.subtree.filter (stays kinds)).map (without kinds) = [] := by
      intro c hc hstays
      rw [subtree_of_leaf (h.not_stays (node_mem_children hc) hstays).children,
        List.filter_cons_of_neg (by simp [hstays]), List.filter_nil, List.map_nil]
    rw [descendants_eq, descendants_eq, children_without, List.flatMap_map, List.filter_flatMap, List.map_flatMap,
      ← flatMap_filter_eq hdropped]
    exact List.flatMap_congr fun c hc => hchild c (List.mem_of_mem_filter hc) (List.mem_filter.1 hc).2

theorem within_without {root : Node} (h : root.Tidy kinds) (hroot : root.stays kinds = true) (bound : Nat) :
    (Focus.root (root.without kinds)).within bound =
      (((Focus.root root).within bound).filter (stays kinds)).map (without kinds) := by
  have hstays : stays kinds (Focus.root root) = true := hroot
  unfold within
  rw [← without_root, subtree_eq_cons_descendants, descendants_without h, ← List.map_cons,
    ← List.filter_cons_of_pos hstays, ← subtree_eq_cons_descendants, List.filter_map, List.filter_comm]
  congr 2
  refine List.filter_congr fun x _ => ?_
  simp

end Focus

theorem Node.descendants_without {kinds : List String} {n : Node} (h : n.Tidy kinds) :
    (n.without kinds).descendants = (n.descendants.filter (stays kinds)).map (without kinds) := by
  have hbelow := Focus.descendants_without (f := Focus.root n) h
  unfold descendants
  rw [← Focus.without_root, hbelow, List.filter_map, List.map_map, List.map_map]
  rfl

namespace Focus

variable {kinds : List String} {f : Focus}

theorem tidy_of_descendants (hloose : ∀ d ∈ f.node.descendants, d.kind ∈ kinds → d.IsLoose)
    (hlist : ∀ d ∈ f.node :: f.node.descendants, d.isList = true → ∀ c ∈ d.children, c.kind ∈ kinds →
      c.isComment = true) : f.node.Tidy kinds := by
  induction f using subtree_induction with
  | h f ih =>
    refine .intro f.node (fun n hn => hloose n (Node.mem_descendants_of_mem_children hn))
      (hlist f.node List.mem_cons_self) ?_
    intro n hn
    rw [← map_node_children] at hn
    obtain ⟨c, hc, rfl⟩ := List.mem_map.1 hn
    have hchild := node_mem_children hc
    have hbelow := Node.descendants_subset_of_mem_children hchild
    refine ih c hc (fun d hd => hloose d (hbelow hd)) fun d hd => hlist d (List.mem_cons_of_mem _ ?_)
    rcases List.mem_cons.1 hd with rfl | hd
    · exact Node.mem_descendants_of_mem_children hchild
    · exact hbelow hd

/-- A place that does not stay has nothing below it, and so a walk comes to no deeper place after it. -/
theorem isChain_within_stays {root : Node} (hroot : root.stays kinds = true)
    (h : ∀ d ∈ root.descendants, d.kind ∈ kinds → d.IsLoose) (bound : Nat) :
    ((Focus.root root).within bound).IsChain fun x y => x.stays kinds = false → y.depth ≤ x.depth := by
  have hmem : ∀ x ∈ (Focus.root root).within bound, x ∈ (Focus.root root).subtree :=
    fun x hx => List.mem_of_mem_filter hx
  refine (isChain_within bound root).imp_of_mem_imp ?_
  intro x y hx hy hleads hstays
  refine hleads.depth_le (hmem x hx) (hmem y hy) ?_
  rcases List.mem_cons.1 (node_mem_of_mem_subtree (hmem x hx)) with heq | hbelow
  · have hkept : x.node.stays kinds = true := heq ▸ hroot
    rw [stays, hkept] at hstays
    cases hstays
  · exact (h x.node hbelow (by simpa [stays, Node.stays] using hstays)).children

theorem stays_of_child? {c : Focus} (h : f.node.Tidy kinds) {field : String} (hfield : field ≠ "")
    (hc : f.child? field = some c) : c.stays kinds = true := by
  by_contra hdropped
  have hloose := h.not_stays (node_mem_children (mem_children_of_child? hc)) (Bool.eq_false_iff.2 hdropped)
  have hfound := List.find?_some hc
  rw [hloose.field, beq_iff_eq] at hfound
  exact hfield hfound.symm

theorem stays_of_mem_namedChildren {c : Focus} (h : f.node.Tidy kinds) (hlist : f.node.isList = true)
    (hc : c ∈ f.namedChildren) : c.stays kinds = true := by
  by_contra hdropped
  have hmem := node_mem_children (mem_children_of_mem_namedChildren hc)
  have hcomment := h.isComment hlist c.node hmem (Bool.eq_false_iff.2 hdropped)
  have hfound := (List.mem_filter.1 hc).2
  simp [hcomment] at hfound

end Focus

/-! ## Places that are kept -/

namespace Focus

variable {kinds : List String} {f : Focus}

/-- Whether a place is one of a tidy tree that stays when nodes of some kinds are taken out. -/
inductive IsKept (kinds : List String) : Focus → Prop
  | root {n : Node} (htidy : n.Tidy kinds) (hstays : n.stays kinds = true) : IsKept kinds (root n)
  | child {f c : Focus} (h : IsKept kinds f) (hc : c ∈ f.children) (hstays : c.stays kinds = true) : IsKept kinds c

theorem IsKept.tidy (h : f.IsKept kinds) : f.node.Tidy kinds := by
  induction h with
  | root htidy _ => exact htidy
  | child _ hc _ ih => exact ih.child (node_mem_children hc)

theorem IsKept.stays (h : f.IsKept kinds) : f.stays kinds = true := by
  cases h with
  | root _ hstays => exact hstays
  | child _ _ hstays => exact hstays

theorem IsKept.parent? (h : f.IsKept kinds) {p : Focus} (hp : f.parent? = some p) :
    p.IsKept kinds ∧ f ∈ p.children := by
  cases h with
  | root => simp [Focus.parent?, Focus.root] at hp
  | child h hc _ =>
    rw [parent?_of_mem_children hc] at hp
    cases hp
    exact ⟨h, hc⟩

theorem IsKept.ancestors (h : f.IsKept kinds) : ∀ g ∈ f.ancestors, g.IsKept kinds := by
  induction h with
  | root => simp [Focus.ancestors, Focus.root, ancestorsOn]
  | child h hc _ ih =>
    rw [ancestors_of_mem_children hc]
    intro g hg
    rcases List.mem_cons.1 hg with rfl | hg
    · exact h
    · exact ih g hg

/-- Going up from a place that is kept leads from child to parent, all of them kept. -/
theorem IsKept.of_mem_zip (h : f.IsKept kinds) :
    ∀ step ∈ (f :: f.ancestors).zip f.ancestors,
      step.1.IsKept kinds ∧ step.2.IsKept kinds ∧ step.1 ∈ step.2.children := by
  induction h with
  | root => simp [Focus.ancestors, Focus.root, ancestorsOn]
  | child h hc hstays ih =>
    rw [ancestors_of_mem_children hc, List.zip_cons_cons]
    intro step hstep
    rcases List.mem_cons.1 hstep with rfl | hstep
    · exact ⟨.child h hc hstays, h, hc⟩
    · exact ih step hstep

theorem IsKept.descendants (h : f.IsKept kinds) : ∀ g ∈ f.subtree, g.stays kinds = true → g.IsKept kinds := by
  induction f using subtree_induction with
  | h f ih =>
    intro g hg hstays
    rcases mem_subtree.1 hg with rfl | ⟨c, hc, hg⟩
    · exact h
    · cases hchild : c.stays kinds with
      | true => exact ih c hc (h.child hc hchild) g hg hstays
      | false =>
        rw [subtree_of_leaf (h.tidy.not_stays (node_mem_children hc) hchild).children] at hg
        obtain rfl := List.mem_singleton.1 hg
        rw [hchild] at hstays
        cases hstays

end Focus
end Guardrails
