import Guardrails.Checker
import Guardrails.Proofs.Tree.Access
import Guardrails.Proofs.Tree.Removal

/-!
# Reading trees without some of their nodes

What is read off a node, or off what is around it, is read off as well when the loose nodes of some kinds are
taken out of the tree.
-/

namespace Guardrails

variable {kinds : List String} {n : Node} {f : Focus}

/-! ## Texts and places -/

@[simp] theorem Source.textOf_without (s : Source) (kinds : List String) (n : Node) :
    s.textOf (n.without kinds) = s.textOf n := by
  simp [textOf, textOf?]

@[simp] theorem FileContext.textOf_without (ctx : FileContext) (kinds : List String) (n : Node) :
    ctx.textOf (n.without kinds) = ctx.textOf n := by
  simp [textOf]

@[simp] theorem Source.positionOf_without (s : Source) (kinds : List String) (n : Node) :
    s.positionOf (n.without kinds) = s.positionOf n := by
  simp [positionOf]

@[simp] theorem FileContext.text_without (ctx : FileContext) (kinds : List String) (n : Node) :
    ctx.text (n.without kinds) = ctx.text n := by
  simp [text, Source.textOf?]

@[simp] theorem FileContext.shapeFailure_without (ctx : FileContext) (kinds : List String) (n : Node)
    (message : String) : ctx.shapeFailure (n.without kinds) message = ctx.shapeFailure n message := by
  simp [shapeFailure]

@[simp] theorem FileContext.violationAt_without (ctx : FileContext) (r : Rule) (kinds : List String) (n : Node)
    (message : String) : ctx.violationAt r (n.without kinds) message = ctx.violationAt r n message := by
  simp [violationAt, locationOf]

namespace Node

/-! ## Literals -/

@[simp] theorem isStringLiteral_without (kinds : List String) (n : Node) :
    (n.without kinds).isStringLiteral = n.isStringLiteral := by
  simp [isStringLiteral]

@[simp] theorem isEmptyLiteral_without (s : Source) (kinds : List String) (n : Node) :
    (n.without kinds).isEmptyLiteral s = n.isEmptyLiteral s := by
  simp [isEmptyLiteral]

@[simp] theorem stringValue?_without (s : Source) (kinds : List String) (n : Node) :
    (n.without kinds).stringValue? s = n.stringValue? s := by
  simp [stringValue?]

@[simp] theorem mentions_without (s : Source) (kinds : List String) (n : Node) (needle : String) :
    (n.without kinds).mentions s needle = n.mentions s needle := by
  simp [mentions]

theorem memberKey?_without (s : Source) (h : n.Tidy kinds) :
    (n.without kinds).memberKey? s = n.memberKey? s := by
  have hkey : ((n.without kinds).child? "key" <|> (n.without kinds).child? "name") =
      (n.child? "key" <|> n.child? "name").map (without kinds) := by
    rw [child?_without h (by decide), child?_without h (by decide)]
    cases n.child? "key" <;> rfl
  unfold memberKey?
  rw [kind_without, hkey, Option.map_map, Source.textOf_without]
  simp [Function.comp_def]

theorem objectKeys_without (s : Source) (h : n.Tidy kinds) :
    (n.without kinds).objectKeys s = n.objectKeys s := by
  unfold objectKeys
  rw [kind_without]
  split_ifs with hkind
  · have hlist : n.isList = true := by simp_all [isList]
    rw [namedChildren_without h hlist, List.filterMap_map]
    exact List.filterMap_congr fun c hc => memberKey?_without s (h.of_mem_namedChildren hc)
  · rfl

/-! ## Accesses -/

theorem accessTail_without (s : Source) (h : n.Tidy kinds) :
    (n.without kinds).accessTail s = n.accessTail s := by
  induction h with
  | intro n hloose hlist hchildren ih =>
    have h : n.Tidy kinds := .intro n hloose hlist hchildren
    have hobject : (n.child? "object").map (accessTail s ∘ without kinds) = (n.child? "object").map (accessTail s) :=
      Option.map_congr fun c hc => ih c (List.mem_of_find?_eq_some hc)
    have hinside : n.inside?.map (accessTail s ∘ without kinds) = n.inside?.map (accessTail s) :=
      Option.map_congr fun c hc => ih c (mem_children_of_mem_namedChildren (List.mem_of_mem_head? hc))
    rw [accessTail_eq, accessTail_eq s n, kind_without]
    split
    · rw [child?_without h (by decide), child?_without h (by decide), Option.map_map, Option.map_map, hobject]
      simp [Function.comp_def]
    · rename_i hkind
      rw [inside?_without h (by simp [isList, hkind]), Option.map_map, hinside]
    all_goals simp

theorem accessPath?_without (s : Source) (h : n.Tidy kinds) :
    (n.without kinds).accessPath? s = n.accessPath? s := by
  induction h with
  | intro n hloose hlist hchildren ih =>
    have h : n.Tidy kinds := .intro n hloose hlist hchildren
    rw [accessPath?_eq, accessPath?_eq s n, kind_without]
    split
    · rw [bind_child?_without h (show "object" ≠ "" by decide) fun c hc _ => ih c hc,
        child?_without h (by decide), Option.bind_map]
      refine Option.bind_congr fun property _ => ?_
      simp only [Function.comp_apply, Source.textOf_without]
    · rename_i hkind
      exact bind_inside?_without h (by simp [isList, hkind]) fun c hc _ => ih c hc
    all_goals simp

theorem propertyName?_without (s : Source) (h : n.Tidy kinds) :
    (n.without kinds).propertyName? s = n.propertyName? s := by
  unfold propertyName?
  rw [kind_without, child?_without h (by decide), Option.map_map]
  simp [Function.comp_def]

theorem lastSegment?_without (s : Source) (h : n.Tidy kinds) :
    (n.without kinds).lastSegment? s = n.lastSegment? s := by
  unfold lastSegment?
  rw [kind_without, propertyName?_without s h, Source.textOf_without]

/-! ## Calls -/

theorem callee?_without (h : n.Tidy kinds) : (n.without kinds).callee? = n.callee?.map (without kinds) := by
  unfold callee?
  rw [kind_without, child?_without h (by decide)]
  split_ifs <;> rfl

theorem calledMethod?_without (s : Source) (h : n.Tidy kinds) :
    (n.without kinds).calledMethod? s = n.calledMethod? s := by
  unfold calledMethod?
  exact bind_child?_without h (by decide) fun c _ hc => propertyName?_without s hc

theorem callArguments_without (h : n.Tidy kinds) :
    (n.without kinds).callArguments = n.callArguments.map (without kinds) := by
  unfold callArguments
  rw [child?_without h (by decide)]
  cases hc : n.child? "arguments" with
  | none => rfl
  | some c => exact namedChildren_without (h.of_child? hc) (isList_of_child? hc (by decide))

theorem Tidy.of_mem_callArguments (h : n.Tidy kinds) {a : Node} (ha : a ∈ n.callArguments) : a.Tidy kinds := by
  unfold callArguments at ha
  split at ha
  · rename_i c hc
    exact (h.of_child? hc).of_mem_namedChildren ha
  · simp at ha

theorem constructs_without (s : Source) (h : n.Tidy kinds) (name : String) :
    (n.without kinds).constructs s name = n.constructs s name := by
  unfold constructs
  rw [kind_without, any_child?_without h (by decide) fun c _ hc => by rw [lastSegment?_without s hc]]

theorem calleeMatches_without (s : Source) (h : n.Tidy kinds) (names : List String) :
    (n.without kinds).calleeMatches s names = n.calleeMatches s names := by
  unfold calleeMatches
  rw [accessTail_without s h]

/-! ## All below a node -/

theorem tidy_of_mem_descendants (h : n.Tidy kinds) :
    ∀ d ∈ n.descendants, d.Tidy kinds ∧ (d.stays kinds = false → d.IsLoose) := by
  have hfocus : ∀ f : Focus, f.node.Tidy kinds → ∀ x ∈ f.descendants,
      x.node.Tidy kinds ∧ (x.node.stays kinds = false → x.node.IsLoose) := by
    intro f
    induction f using Focus.subtree_induction with
    | h f ih =>
      intro htidy x hx
      rw [Focus.descendants_eq] at hx
      obtain ⟨c, hc, hx⟩ := List.mem_flatMap.1 hx
      have hchild := htidy.child (Focus.node_mem_children hc)
      rw [Focus.subtree_eq_cons_descendants] at hx
      rcases List.mem_cons.1 hx with rfl | hx
      · exact ⟨hchild, htidy.not_stays (Focus.node_mem_children hc)⟩
      · exact ih c hc hchild x hx
  intro d hd
  obtain ⟨x, hx, rfl⟩ := List.mem_map.1 hd
  exact hfocus (Focus.root n) h x hx

theorem any_descendants_without (h : n.Tidy kinds) {p : Node → Bool}
    (hkeep : ∀ d, d.Tidy kinds → p (d.without kinds) = p d) (hdrop : ∀ d, d.IsLoose → p d = false) :
    (n.without kinds).descendants.any p = n.descendants.any p := by
  rw [descendants_without h]
  apply any_map_filter
  · intro d hd _
    exact hkeep d (tidy_of_mem_descendants h d hd).1
  · intro d hd hstays
    exact hdrop d ((tidy_of_mem_descendants h d hd).2 hstays)

theorem callsAny_without (s : Source) (h : n.Tidy kinds) (names : List String) :
    (n.without kinds).callsAny s names = n.callsAny s names := by
  unfold callsAny
  apply any_descendants_without h
  · intro d hd
    rw [callee?_without hd]
    unfold callee?
    split_ifs
    · cases hc : d.child? "function" with
      | none => rfl
      | some c => exact calleeMatches_without s (hd.of_child? hc) names
    · rfl
  · intro d hd
    rcases hd.kind with hkind | hkind <;> simp [callee?, hkind]

/-! ## Functions -/

@[simp] theorem isFunction_without (kinds : List String) (n : Node) :
    (n.without kinds).isFunction = n.isFunction := by
  simp [isFunction]

theorem parameters_without (h : n.Tidy kinds) :
    (n.without kinds).parameters = n.parameters.map (without kinds) := by
  unfold parameters
  rw [child?_without h (by decide), child?_without h (by decide)]
  cases n.child? "parameter" with
  | some single => rfl
  | none =>
    cases hc : n.child? "parameters" with
    | none => rfl
    | some c => exact namedChildren_without (h.of_child? hc) (isList_of_child? hc (by decide))

theorem Tidy.of_mem_parameters (h : n.Tidy kinds) {a : Node} (ha : a ∈ n.parameters) : a.Tidy kinds := by
  unfold parameters at ha
  split at ha
  · rename_i single hsingle
    obtain rfl := List.mem_singleton.1 ha
    exact h.of_child? hsingle
  · split at ha
    · rename_i c hc
      exact (h.of_child? hc).of_mem_namedChildren ha
    · simp at ha

theorem isEmptyBlock_without (h : n.Tidy kinds) (hlist : n.isList = true) :
    (n.without kinds).isEmptyBlock = n.isEmptyBlock := by
  simp [isEmptyBlock, namedChildren_without h hlist]

theorem parameterMentions_without (s : Source) (name : String) (h : n.Tidy kinds) :
    parameterMentions s name (n.without kinds) = parameterMentions s name n := by
  have hbinds : ∀ d : Node, bindsHere s name (d.without kinds) = bindsHere s name d := by
    intro d
    simp [bindsHere]
  have hpattern : ∀ d : Node, d.Tidy kinds →
      (d.without kinds :: (d.without kinds).descendants).any (bindsHere s name) =
        (d :: d.descendants).any (bindsHere s name) := by
    intro d hd
    rw [List.any_cons, List.any_cons, hbinds, any_descendants_without hd fun d _ => hbinds d]
    intro d hd
    rcases hd.kind with hkind | hkind <;> simp [bindsHere, hkind]
  unfold parameterMentions
  rw [kind_without, child?_without h (by decide)]
  split_ifs
  · cases hc : n.child? "left" with
    | none => exact hpattern n h
    | some c => exact hpattern c (h.of_child? hc)
  · exact hpattern n h

end Node

namespace Focus

/-! ## What is around a place -/

theorem any_functions_without (h : f.IsKept kinds) {p : Focus → Bool}
    (hp : ∀ g, g.IsKept kinds → p (g.without kinds) = p g) :
    ((f.without kinds).ancestors.filter (·.node.isFunction)).any p =
      (f.ancestors.filter (·.node.isFunction)).any p := by
  rw [ancestors_without, List.filter_map, List.any_map]
  have hfunctions : f.ancestors.filter ((fun g => g.node.isFunction) ∘ without kinds) =
      f.ancestors.filter (·.node.isFunction) := by
    refine List.filter_congr fun g _ => ?_
    simp
  rw [hfunctions]
  exact any_congr_of_mem fun g hg => hp g (h.ancestors g (List.mem_of_mem_filter hg))

theorem isParameterInScope_without (s : Source) (h : f.IsKept kinds) (name : String) :
    (f.without kinds).isParameterInScope s name = f.isParameterInScope s name := by
  apply any_functions_without h
  intro g hg
  rw [node_without, Node.parameters_without hg.tidy, List.any_map]
  exact any_congr_of_mem fun a ha =>
    Node.parameterMentions_without s name (hg.tidy.of_mem_parameters ha)

theorem bindingTarget?_without (h : f.IsKept kinds) :
    (f.without kinds).bindingTarget? = f.bindingTarget?.map (Node.without kinds) := by
  unfold bindingTarget?
  rw [parent?_without]
  cases hp : f.parent? with
  | none => rfl
  | some p =>
    have htidy := (h.parent? hp).1.tidy
    simp only [Option.map_some, bind, Option.bind_some, node_without, Node.kind_without]
    split
    · exact Node.child?_without htidy (by decide)
    · exact Node.child?_without htidy (by decide)
    · exact Node.child?_without htidy (by decide)
    · rfl

theorem targetName?_without (s : Source) (h : n.Tidy kinds) :
    targetName? s (n.without kinds) = targetName? s n := by
  unfold targetName?
  rw [Node.kind_without, Node.propertyName?_without s h, Node.stringValue?_without, Source.textOf_without]

theorem tidy_of_bindingTarget? (h : f.IsKept kinds) (hn : f.bindingTarget? = some n) : n.Tidy kinds := by
  unfold bindingTarget? at hn
  obtain ⟨p, hp, hn⟩ := Option.bind_eq_some_iff.1 hn
  have htidy := (h.parent? hp).1.tidy
  split at hn
  · exact htidy.of_child? hn
  · exact htidy.of_child? hn
  · exact htidy.of_child? hn
  · simp at hn

theorem functionName?_without (s : Source) (h : f.IsKept kinds) :
    (f.without kinds).functionName? s = f.functionName? s := by
  unfold functionName?
  rw [node_without, Node.child?_without h.tidy (by decide)]
  cases f.node.child? "name" with
  | some name => simp
  | none =>
    simp only [Option.map_none]
    rw [bindingTarget?_without h, Option.bind_map]
    exact Option.bind_congr fun n hn => targetName?_without s (tidy_of_bindingTarget? h hn)

end Focus
end Guardrails
