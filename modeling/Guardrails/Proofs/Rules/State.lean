import Mathlib.Data.List.TakeWhile
import Guardrails.Proofs.Tree.Descent
import Guardrails.Proofs.Tree.Family
import Guardrails.Proofs.Walk.Gathering
import Guardrails.Rules.State

/-!
# Changes of shared state

An expression changes shared state when the access path of its target goes on below a configured root, from its start
or behind some segments for the global object. The checker takes all of these segments off the path before it compares,
and none off the root, so that a root that begins with one of them protects nothing.
-/

namespace Guardrails.NoSharedStateMutation

variable {x : NoSharedStateMutation} {ctx : FileContext} {s : Source} {n target : Node} {f : Focus}
  {path : List String} {root : String}

/-! ## Targets and their paths -/

/-- Whether a node is the access to something along these segments, in which a subscript stands as `[]`. -/
inductive Accesses (s : Source) : Node → List String → Prop
  | plain {n : Node} (hkind : n.kind = "identifier" ∨ n.kind = "this") : Accesses s n [s.textOf n]
  | property {n object property : Node} {path : List String} (hkind : n.kind = "member_expression")
      (hobject : n.child? "object" = some object) (hproperty : n.child? "property" = some property)
      (h : Accesses s object path) : Accesses s n (path ++ [s.textOf property])
  | subscript {n object : Node} {path : List String} (hkind : n.kind = "subscript_expression")
      (hobject : n.child? "object" = some object) (h : Accesses s object path) : Accesses s n (path ++ ["[]"])
  | parentheses {n inside : Node} {path : List String} (hkind : n.kind = "parenthesized_expression")
      (hinside : n.inside? = some inside) (h : Accesses s inside path) : Accesses s n path

/-- Whether an expression changes its target in place or binds it anew. -/
inductive Changes (ctx : FileContext) : Node → Node → Prop
  | assignment {n target : Node}
      (hkind : n.kind = "assignment_expression" ∨ n.kind = "augmented_assignment_expression")
      (htarget : n.child? "left" = some target) : Changes ctx n target
  | update {n target : Node} (hkind : n.kind = "update_expression") (htarget : n.child? "argument" = some target) :
      Changes ctx n target
  | delete {n operator target : Node} (hkind : n.kind = "unary_expression")
      (hoperator : n.child? "operator" = some operator) (htext : ctx.text operator = .ok "delete")
      (htarget : n.child? "argument" = some target) : Changes ctx n target

theorem targetPath?_eq (s : Source) (n : Node) : targetPath? s n =
    match n.kind with
    | "member_expression" => (n.child? "property").bind fun property =>
      ((n.child? "object").bind (targetPath? s)).map (· ++ [s.textOf property])
    | "subscript_expression" => ((n.child? "object").bind (targetPath? s)).map (· ++ ["[]"])
    | "parenthesized_expression" => n.inside?.bind (targetPath? s)
    | "identifier" | "this" => some [s.textOf n]
    | _ => none := by
  rw [targetPath?]
  by_cases hmember : n.kind = "member_expression"
  · simp only [hmember]
    split
    · simp [*]
    · cases hproperty : n.child? "property" <;> cases hobject : n.child? "object" <;> simp_all
  by_cases hsubscript : n.kind = "subscript_expression"
  · simp only [hsubscript]
    split <;> simp [*]
  by_cases hparentheses : n.kind = "parenthesized_expression"
  · simp only [hparentheses]
    split <;> simp [*]
  · split <;> simp_all

theorem targetPath?_eq_some_iff : targetPath? s n = some path ↔ Accesses s n path := by
  constructor
  · intro h
    induction n using Node.children_induction generalizing path with
    | h n ih =>
      rw [targetPath?_eq] at h
      split at h
      · rename_i hkind
        obtain ⟨property, hproperty, h⟩ := Option.bind_eq_some_iff.1 h
        obtain ⟨front, hfront, rfl⟩ := Option.map_eq_some_iff.1 h
        obtain ⟨object, hobject, hfront⟩ := Option.bind_eq_some_iff.1 hfront
        exact .property hkind hobject hproperty (ih object (List.mem_of_find?_eq_some hobject) hfront)
      · rename_i hkind
        obtain ⟨front, hfront, rfl⟩ := Option.map_eq_some_iff.1 h
        obtain ⟨object, hobject, hfront⟩ := Option.bind_eq_some_iff.1 hfront
        exact .subscript hkind hobject (ih object (List.mem_of_find?_eq_some hobject) hfront)
      · rename_i hkind
        obtain ⟨inside, hinside, h⟩ := Option.bind_eq_some_iff.1 h
        have hmem := Node.mem_children_of_mem_namedChildren (List.mem_of_mem_head? hinside)
        exact .parentheses hkind hinside (ih inside hmem h)
      · rename_i hkind
        cases h
        exact .plain (.inl hkind)
      · rename_i hkind
        cases h
        exact .plain (.inr hkind)
      · cases h
  · intro h
    induction h with
    | plain hkind =>
      rw [targetPath?_eq]
      rcases hkind with hkind | hkind <;> simp [hkind]
    | property hkind hobject hproperty _ ih =>
      rw [targetPath?_eq]
      simp [hkind, hobject, hproperty, ih]
    | subscript hkind hobject _ ih =>
      rw [targetPath?_eq]
      simp [hkind, hobject, ih]
    | parentheses hkind hinside _ ih =>
      rw [targetPath?_eq]
      simp [hkind, hinside, ih]

theorem target?_eq_ok_some_iff : target? ctx n = .ok (some target) ↔ Changes ctx n target := by
  constructor
  · intro h
    unfold target? at h
    split at h
    · rename_i hkind
      exact .assignment (.inl hkind) (Except.ok.inj h)
    · rename_i hkind
      exact .assignment (.inr hkind) (Except.ok.inj h)
    · rename_i hkind
      exact .update hkind (Except.ok.inj h)
    · rename_i hkind
      split at h
      · rename_i operator hoperator
        cases htext : ctx.text operator with
        | error e => simp [htext, bind, Except.bind] at h
        | ok text =>
          simp only [htext, bind, Except.bind, pure, Except.pure, Except.ok.injEq] at h
          split at h
          · rename_i hdelete
            exact .delete hkind hoperator (htext.trans (congrArg _ (beq_iff_eq.1 hdelete))) h
          · cases h
      · cases h
    · cases h
  · rintro (⟨hkind | hkind, htarget⟩ | ⟨hkind, htarget⟩ | ⟨hkind, hoperator, htext, htarget⟩)
    all_goals simp only [target?, *, bind, Except.bind, pure, Except.pure]
    rfl

/-! ## Paths and roots -/

/-- Whether a path strictly extends the segments of a root. -/
def Extends (path : List String) (root : String) : Prop :=
  ∃ segment rest, path = Text.split '.' root ++ segment :: rest

/-- Whether a path leads below a root once some segments at its front are left out, or none. -/
def LeadsBelow (path : List String) (root : String) : Prop :=
  ∃ front rest, path = front ++ rest ∧ (∀ segment ∈ front, segment ∈ transparent) ∧ Extends rest root

/-- Whether the first segment of a root is one that is left out of paths. -/
def BeginsTransparent (root : String) : Prop :=
  ∃ first ∈ (Text.split '.' root).head?, first ∈ transparent

instance (root : String) : Decidable (BeginsTransparent root) :=
  inferInstanceAs (Decidable (∃ first ∈ (Text.split '.' root).head?, first ∈ transparent))

theorem isBelow_iff : isBelow path root = true ↔ Extends path root := by
  simp only [isBelow, Bool.and_eq_true, decide_eq_true_iff, List.isPrefixOf_iff_prefix]
  constructor
  · rintro ⟨hlength, rest, rfl⟩
    cases rest with
    | nil => simp at hlength
    | cons segment rest => exact ⟨segment, rest, rfl⟩
  · rintro ⟨segment, rest, rfl⟩
    simp

theorem not_leadsBelow_split (root : String) : ¬ LeadsBelow (Text.split '.' root) root := by
  rintro ⟨front, rest, hpath, -, segment, more, rfl⟩
  have hlength := congrArg List.length hpath
  simp at hlength
  omega

/-- Once all the segments in front are left out, a root is found below only if it begins with another one. -/
theorem isBelow_dropWhile_iff : isBelow (path.dropWhile (transparent.contains ·)) root = true ↔
    LeadsBelow path root ∧ ¬ BeginsTransparent root := by
  rw [isBelow_iff]
  constructor
  · rintro ⟨segment, more, hdrop⟩
    refine ⟨⟨path.takeWhile (transparent.contains ·), path.dropWhile (transparent.contains ·),
      List.takeWhile_append_dropWhile.symm, ?_, segment, more, hdrop⟩, ?_⟩
    · intro segment hsegment
      simpa using List.mem_takeWhile_imp hsegment
    · rintro ⟨first, hsplit, hfirst⟩
      have hhead := List.head?_dropWhile_not (transparent.contains ·) path
      rw [hdrop, List.head?_append_of_ne_nil _ (Text.split_ne_nil root), hsplit] at hhead
      simp [hfirst] at hhead
  · rintro ⟨⟨front, rest, rfl, hfront, segment, more, rfl⟩, hroot⟩
    refine ⟨segment, more, ?_⟩
    obtain ⟨first, others, hsplit⟩ := List.exists_cons_of_ne_nil (Text.split_ne_nil root)
    have hfirst : first ∉ transparent := fun h => hroot ⟨first, by rw [hsplit]; rfl, h⟩
    rw [List.dropWhile_append_of_pos (by simpa using hfront), hsplit]
    simp [hfirst]

/-! ## What is reported -/

/-- Whether an expression changes something whose path leads below a root. -/
def Mutates (ctx : FileContext) (n : Node) (root : String) : Prop :=
  ∃ target path, Changes ctx n target ∧ Accesses ctx.source target path ∧ LeadsBelow path root

def mutationReport (ctx : FileContext) (f : Focus) (root : String) : Violation :=
  (ctx.violationAt .noSharedStateMutation f.node ("direct mutation of shared state `" ++ root ++ "`")).withHint

theorem mutates_iff (hchanges : Changes ctx n target) (hpath : Accesses ctx.source target path) :
    Mutates ctx n root ↔ LeadsBelow path root := by
  constructor
  · rintro ⟨target', path', hchanges', hpath', hbelow⟩
    have htarget : target' = target := Option.some.inj (Except.ok.inj
      ((target?_eq_ok_some_iff.2 hchanges').symm.trans (target?_eq_ok_some_iff.2 hchanges)))
    subst htarget
    have hpaths := (targetPath?_eq_some_iff.2 hpath').symm.trans (targetPath?_eq_some_iff.2 hpath)
    exact Option.some.inj hpaths ▸ hbelow
  · exact fun hbelow => ⟨target, path, hchanges, hpath, hbelow⟩

theorem mutatedRoot?_eq_some (h : x.mutatedRoot? path = some root) :
    root ∈ x.roots ∧ LeadsBelow path root ∧ ¬ BeginsTransparent root :=
  ⟨List.mem_of_find?_eq_some h, isBelow_dropWhile_iff.1 (List.find?_some h)⟩

theorem mutatedRoot?_isSome (hroot : root ∈ x.roots) (hbelow : LeadsBelow path root)
    (hbegin : ¬ BeginsTransparent root) : (x.mutatedRoot? path).isSome = true := by
  rw [mutatedRoot?, List.find?_isSome]
  exact ⟨root, hroot, isBelow_dropWhile_iff.2 ⟨hbelow, hbegin⟩⟩

theorem foundAt_of_changes (h : Changes ctx f.node target) : foundAt x.findings ctx f =
    (((targetPath? ctx.source target).bind x.mutatedRoot?).map (mutationReport ctx f)).toList := by
  unfold foundAt findings
  rw [target?_eq_ok_some_iff.2 h]
  simp only [bind, Except.bind, pure, Except.pure, Option.bind_some]
  cases (targetPath? ctx.source target).bind x.mutatedRoot? <;> rfl

theorem foundAt_of_not_changes (h : ∀ target, ¬ Changes ctx f.node target) : foundAt x.findings ctx f = [] := by
  unfold foundAt findings
  cases htarget : target? ctx f.node with
  | error e => rfl
  | ok target? =>
    cases target? with
    | none => rfl
    | some target => exact absurd (target?_eq_ok_some_iff.1 htarget) (h target)

theorem foundAt_eq_nil_or (x : NoSharedStateMutation) (ctx : FileContext) (f : Focus) :
    foundAt x.findings ctx f = [] ∨ ∃ root ∈ x.roots, Mutates ctx f.node root ∧ ¬ BeginsTransparent root ∧
      foundAt x.findings ctx f = [mutationReport ctx f root] := by
  by_cases hchanges : ∃ target, Changes ctx f.node target
  · obtain ⟨target, hchanges⟩ := hchanges
    rw [foundAt_of_changes hchanges]
    cases hroot : (targetPath? ctx.source target).bind x.mutatedRoot? with
    | none => exact .inl rfl
    | some root =>
      obtain ⟨path, hpath, hroot⟩ := Option.bind_eq_some_iff.1 hroot
      obtain ⟨hmem, hbelow, hbegin⟩ := mutatedRoot?_eq_some hroot
      exact .inr ⟨root, hmem, ⟨target, path, hchanges, targetPath?_eq_some_iff.1 hpath, hbelow⟩, hbegin, rfl⟩
  · exact .inl (foundAt_of_not_changes fun target h => hchanges ⟨target, h⟩)

theorem foundAt_ne_nil (hroot : root ∈ x.roots) (h : Mutates ctx f.node root) (hbegin : ¬ BeginsTransparent root) :
    foundAt x.findings ctx f ≠ [] := by
  obtain ⟨target, path, hchanges, hpath, hbelow⟩ := h
  obtain ⟨found, hfound⟩ := Option.isSome_iff_exists.1 (mutatedRoot?_isSome hroot hbelow hbegin)
  rw [foundAt_of_changes hchanges, targetPath?_eq_some_iff.2 hpath, Option.bind_some, hfound]
  exact List.cons_ne_nil _ _

theorem Changes.kind_mem (h : Changes ctx n target) : n.kind ∈ x.checker.kinds := by
  change n.kind ∈ ["assignment_expression", "augmented_assignment_expression", "update_expression", "unary_expression"]
  rcases h with ⟨hkind | hkind, -⟩ | ⟨hkind, -⟩ | ⟨hkind, -, -, -⟩ <;> simp [hkind]

/-- Whether the operator of an expression stands in the tree, and its text in the source. -/
def HasOperator (ctx : FileContext) (n : Node) : Prop :=
  ∃ operator text, n.child? "operator" = some operator ∧ ctx.text operator = .ok text

theorem findings_isOk (h : f.node.kind = "unary_expression" → HasOperator ctx f.node) :
    (x.findings ctx f).isOk = true := by
  have htarget : ∃ target, target? ctx f.node = .ok target := by
    unfold target?
    split
    · exact ⟨_, rfl⟩
    · exact ⟨_, rfl⟩
    · exact ⟨_, rfl⟩
    · rename_i hkind
      obtain ⟨operator, text, hoperator, htext⟩ := h hkind
      rw [hoperator]
      simp only [htext, bind, Except.bind]
      exact ⟨_, rfl⟩
    · exact ⟨_, rfl⟩
  obtain ⟨target, htarget⟩ := htarget
  unfold findings
  rw [htarget]
  rfl

/-- A change below a root is reported, once, where the root begins with a segment that counts, and nothing else is. So
nothing that binds a root anew is reported. -/
theorem violations_of_mutates (bound : Nat) {top : Node}
    (hoperators : ∀ f ∈ (Focus.root top).subtree, f.node.kind = "unary_expression" → HasOperator ctx f.node) :
    (FileAnalysis.ofWalk [x.checker] bound ctx top).faults = [] ∧
      (FileAnalysis.ofWalk [x.checker] bound ctx top).violations =
        (((Focus.root top).within bound).filter (·.node.kind ∈ x.checker.kinds)).flatMap (foundAt x.findings ctx) ∧
      (((Focus.root top).within bound).filter (·.node.kind ∈ x.checker.kinds)).Pairwise
        (fun f g => f.isBefore g = true) ∧
      (∀ root, ¬ LeadsBelow (Text.split '.' root) root) ∧
      ∀ f : Focus,
        (∀ root ∈ x.roots, Mutates ctx f.node root → ¬ BeginsTransparent root → f.node.kind ∈ x.checker.kinds ∧
          ∃ root ∈ x.roots, Mutates ctx f.node root ∧ foundAt x.findings ctx f = [mutationReport ctx f root]) ∧
        ((∀ root ∈ x.roots, Mutates ctx f.node root → BeginsTransparent root) → foundAt x.findings ctx f = []) := by
  have hfindings : ∀ f ∈ (Focus.root top).within bound, f.node.kind ∈ x.checker.kinds →
      (x.findings ctx f).isOk = true := fun f hf _ =>
    findings_isOk (hoperators f (List.mem_of_mem_filter hf))
  obtain ⟨hfaults, hviolations, hordered⟩ := Walk.ofWalk_ofFindings hfindings
  refine ⟨hfaults, hviolations, hordered, not_leadsBelow_split, fun f => ⟨?_, ?_⟩⟩
  · intro root hroot hmutates hbegin
    obtain ⟨target, -, hchanges, -, -⟩ := id hmutates
    refine ⟨hchanges.kind_mem, ?_⟩
    rcases foundAt_eq_nil_or x ctx f with hsilent | ⟨found, hfound, hmutated, -, hreport⟩
    · exact absurd hsilent (foundAt_ne_nil hroot hmutates hbegin)
    · exact ⟨found, hfound, hmutated, hreport⟩
  · intro hbegins
    rcases foundAt_eq_nil_or x ctx f with hsilent | ⟨root, hroot, hmutated, hbegin, -⟩
    · exact hsilent
    · exact absurd (hbegins root hroot hmutated) hbegin

def standard : NoSharedStateMutation :=
  ⟨["app.state", "appState"]⟩

/-- The source `delete (window.app).state[0];`, with its tree and the place of the expression. -/
def deleted : FileContext × Node × Focus :=
  let app := Node.plain "member_expression" "" 8 18
    [.plain "identifier" "object" 8 14 [], .plain "property_identifier" "property" 15 18 []]
  let state := Node.plain "member_expression" "object" 7 25
    [.plain "parenthesized_expression" "object" 7 19 [app], .plain "property_identifier" "property" 20 25 []]
  let operator := { Node.plain "delete" "operator" 0 6 [] with isNamed := false }
  let deletion := Node.plain "unary_expression" "" 0 28
    [operator, .plain "subscript_expression" "argument" 7 28 [state, .plain "number" "index" 26 27 []]]
  let statement := Node.plain "expression_statement" "" 0 29 [deletion]
  let top := Node.plain "program" "" 0 29 [statement]
  (.ofFile ⟨"/app"⟩ ⟨"/app/a.js"⟩ "delete (window.app).state[0];", top, ⟨deletion, [⟨statement, 0⟩, ⟨top, 0⟩]⟩)

theorem accesses_deleted : ∃ target, Changes deleted.1 deleted.2.2.node target ∧
    Accesses deleted.1.source target ["window", "app", "state", "[]"] :=
  ⟨_, .delete rfl rfl rfl rfl, targetPath?_eq_some_iff.1 (by decide +kernel)⟩

theorem mutates_deleted : Mutates deleted.1 deleted.2.2.node root ↔
    LeadsBelow ["window", "app", "state", "[]"] root := by
  obtain ⟨target, hchanges, hpath⟩ := accesses_deleted
  exact mutates_iff hchanges hpath

/-- The source `app.state = 1;`. -/
def rebound : FileContext × Node × Focus :=
  let state := Node.plain "member_expression" "left" 0 9
    [.plain "identifier" "object" 0 3 [], .plain "property_identifier" "property" 4 9 []]
  let assignment := Node.plain "assignment_expression" "" 0 13 [state, .plain "number" "right" 12 13 []]
  let statement := Node.plain "expression_statement" "" 0 14 [assignment]
  let top := Node.plain "program" "" 0 14 [statement]
  (.ofFile ⟨"/app"⟩ ⟨"/app/a.js"⟩ "app.state = 1;", top, ⟨assignment, [⟨statement, 0⟩, ⟨top, 0⟩]⟩)

theorem mutates_rebound : Mutates rebound.1 rebound.2.2.node root ↔ LeadsBelow ["app", "state"] root :=
  mutates_iff (.assignment (.inl rfl) rfl) (targetPath?_eq_some_iff.1 (by decide +kernel))

theorem hasOperator_deleted (h : f ∈ (Focus.root deleted.2.1).subtree) (hkind : f.node.kind = "unary_expression") :
    HasOperator deleted.1 f.node := by
  have hplace : f ∈ (Focus.root deleted.2.1).subtree.filter (·.node.kind = "unary_expression") :=
    List.mem_filter.2 ⟨h, decide_eq_true hkind⟩
  obtain rfl := List.mem_singleton.1 hplace
  exact ⟨_, "delete", rfl, rfl⟩

theorem hasOperator_rebound (h : f ∈ (Focus.root rebound.2.1).subtree) (hkind : f.node.kind = "unary_expression") :
    HasOperator rebound.1 f.node := by
  have hplace : f ∈ (Focus.root rebound.2.1).subtree.filter (·.node.kind = "unary_expression") :=
    List.mem_filter.2 ⟨h, decide_eq_true hkind⟩
  cases hplace

theorem violations_deleted :
    (FileAnalysis.ofWalk [standard.checker] 4096 deleted.1 deleted.2.1).violations =
        [mutationReport deleted.1 deleted.2.2 "app.state"] ∧
      (FileAnalysis.ofWalk [standard.checker] 4096 rebound.1 rebound.2.1).violations = [] := by
  have hstate : ¬ BeginsTransparent "app.state" := by decide +kernel
  have happ : ¬ BeginsTransparent "appState" := by decide +kernel
  have hother {path : List String} (h : isBelow (path.dropWhile (transparent.contains ·)) "appState" = false) :
      ¬ LeadsBelow path "appState" := by
    intro hbelow
    rw [isBelow_dropWhile_iff.2 ⟨hbelow, happ⟩] at h
    cases h
  constructor
  · obtain ⟨-, hviolations, -, -, hfound⟩ := violations_of_mutates (x := standard) 4096
      fun f hf hkind => hasOperator_deleted hf hkind
    have hplaces : ((Focus.root deleted.2.1).within 4096).filter (·.node.kind ∈ standard.checker.kinds) =
      [deleted.2.2] := rfl
    have hbelow : LeadsBelow ["window", "app", "state", "[]"] "app.state" :=
      ⟨["window"], ["app", "state", "[]"], rfl, by decide, "[]", [], by decide +kernel⟩
    obtain ⟨-, root, hroot, hmutates, hreport⟩ :=
      (hfound deleted.2.2).1 "app.state" List.mem_cons_self (mutates_deleted.2 hbelow) hstate
    rw [hviolations, hplaces, List.flatMap_singleton, hreport]
    rcases List.mem_cons.1 hroot with rfl | hroot
    · rfl
    · obtain rfl := List.mem_singleton.1 hroot
      exact absurd (mutates_deleted.1 hmutates) (hother (by decide +kernel))
  · obtain ⟨-, hviolations, -, hrebound, hfound⟩ := violations_of_mutates (x := standard) 4096
      fun f hf hkind => hasOperator_rebound hf hkind
    have hplaces : ((Focus.root rebound.2.1).within 4096).filter (·.node.kind ∈ standard.checker.kinds) =
      [rebound.2.2] := rfl
    have hsplit : Text.split '.' "app.state" = ["app", "state"] := by decide +kernel
    rw [hviolations, hplaces, List.flatMap_singleton]
    refine (hfound rebound.2.2).2 fun root hroot hmutates => absurd (mutates_rebound.1 hmutates) ?_
    rcases List.mem_cons.1 hroot with rfl | hroot
    · exact hsplit ▸ hrebound "app.state"
    · obtain rfl := List.mem_singleton.1 hroot
      exact hother (by decide +kernel)

/-- The source `window.app.x = 1;`. -/
def global : FileContext × Focus :=
  let app := Node.plain "member_expression" "object" 0 10
    [.plain "identifier" "object" 0 6 [], .plain "property_identifier" "property" 7 10 []]
  let target := Node.plain "member_expression" "left" 0 12 [app, .plain "property_identifier" "property" 11 12 []]
  let assignment := Node.plain "assignment_expression" "" 0 16 [target, .plain "number" "right" 15 16 []]
  let statement := Node.plain "expression_statement" "" 0 17 [assignment]
  (.ofFile ⟨"/app"⟩ ⟨"/app/a.js"⟩ "window.app.x = 1;",
    ⟨assignment, [⟨statement, 0⟩, ⟨.plain "program" "" 0 17 [statement], 0⟩]⟩)

theorem mutates_global : Mutates global.1 global.2.node root ↔ LeadsBelow ["window", "app", "x"] root :=
  mutates_iff (.assignment (.inl rfl) rfl) (targetPath?_eq_some_iff.1 (by decide +kernel))

/-- A change below a root that begins with the global object is not reported. -/
theorem not_reported_of_mutates : ¬ ∀ (x : NoSharedStateMutation) (ctx : FileContext) (f : Focus),
    ∀ root ∈ x.roots, Mutates ctx f.node root →
      ∃ root ∈ x.roots, foundAt x.findings ctx f = [mutationReport ctx f root] := by
  intro h
  have hextends : Extends ["window", "app", "x"] "window.app" := ⟨"x", [], by decide +kernel⟩
  obtain ⟨root, hroot, hreport⟩ := h ⟨["window.app"]⟩ global.1 global.2 "window.app" (List.mem_singleton_self _)
    (mutates_global.2 ⟨[], _, rfl, by simp, hextends⟩)
  have hbegins : BeginsTransparent "window.app" := by decide +kernel
  rcases foundAt_eq_nil_or ⟨["window.app"]⟩ global.1 global.2 with hsilent | ⟨root', hroot', -, hbegin, -⟩
  · rw [hsilent] at hreport
    cases hreport
  · obtain rfl := List.mem_singleton.1 hroot'
    exact hbegin hbegins

end Guardrails.NoSharedStateMutation
