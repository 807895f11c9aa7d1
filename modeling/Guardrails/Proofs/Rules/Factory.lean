import Guardrails.Proofs.Tree.Family
import Guardrails.Proofs.Tree.Tour
import Guardrails.Proofs.Walk.Gathering
import Guardrails.Rules.Factory

/-!
# The factories of a module

Which functions a module declares under the name of a factory, and which of them it exports, said of the whole tree
at once. The checker gathers this piece by piece: a function may be declared twice, and listed as an export before
its declaration or behind it.
-/

namespace Guardrails

/-- Whether a declaration stands right below a node of this kind. A variable stands where its statement does. -/
def Focus.standsIn (kind : String) (f : Focus) : Bool :=
  f.parent?.any fun parent => parent.node.kind == kind ||
    (parent.node.kind == "lexical_declaration" || parent.node.kind == "variable_declaration") &&
      parent.parent?.any (·.node.kind == kind)

namespace FactoryExport

/-! ## Declarations -/

/-- A function that is declared directly in a module. -/
structure Declaration where
  place : Focus
  nameNode : Node
  function : Node

namespace Declaration

def name (ctx : FileContext) (d : Declaration) : String :=
  ctx.textOf d.nameNode

def isUnderExport (d : Declaration) : Bool :=
  d.place.standsIn "export_statement"

/-- Whether a function takes something and makes an instance somewhere inside. -/
def IsComplete (d : Declaration) : Prop :=
  d.function.parameters ≠ [] ∧ ∃ n ∈ d.function.descendants, n.kind = "new_expression"

/-- What is wrong with a function that is not complete. -/
def complaint (ctx : FileContext) (d : Declaration) : String :=
  if d.function.parameters = [] then "factory `" ++ d.name ctx ++ "` takes no dependencies parameter"
  else "factory `" ++ d.name ctx ++ "` never constructs an instance with `new`"

end Declaration

/-- The name and the function of a declaration, which may be one of its own or that of a variable. -/
def declared? (n : Node) : Option (Node × Node) :=
  match n.kind with
  | "function_declaration" => (n.child? "name").map (·, n)
  | "variable_declarator" =>
    match n.child? "name", n.child? "value" with
    | some name, some value => if name.kind == "identifier" && value.isFunction then some (name, value) else none
    | _, _ => none
  | _ => none

/-- The function that is declared at a place. -/
def declaration? (f : Focus) : Option Declaration :=
  if f.standsIn "program" || f.standsIn "export_statement" then
    (declared? f.node).map fun d => ⟨f, d.1, d.2⟩
  else none

/-- For each name the first of the declarations. -/
def firsts (ctx : FileContext) (ds : List Declaration) : List Declaration :=
  ds.eraseDupsBy fun d e => d.name ctx == e.name ctx

section

variable (x : FactoryExport) (ctx : FileContext) (root : Node)

/-- The functions that are declared at some places and have the name of a factory. -/
def declarationsAt (places : List Focus) : List Declaration :=
  (places.filterMap declaration?).filter fun d => Text.startsWith (d.name ctx) x.nameStart

/-- The functions of a module that have the name of a factory, in document order. -/
def declarations : List Declaration :=
  x.declarationsAt ctx (Focus.root root).subtree

/-- Whether some export clause of a module has the name as a local one. -/
def isListed (name : String) : Bool :=
  (Focus.root root).subtree.any fun clause => clause.node.kind == "export_clause" &&
    clause.node.namedChildren.any fun specifier => (specifier.child? "name").any fun inside => ctx.textOf inside == name

def isExported (d : Declaration) : Bool :=
  (x.declarations ctx root).any (fun e => e.name ctx == d.name ctx && e.isUnderExport) ||
    isListed ctx root (d.name ctx)

/-- The factories that a module exports. -/
def exports : List Declaration :=
  (firsts ctx (x.declarations ctx root)).filter (x.isExported ctx root)

/-- Whether a tree is shaped as that of a module: functions have names, names can be read, and an export clause is
the only one of the export statement that it stands in. -/
structure IsModule : Prop where
  named : ∀ f ∈ (Focus.root root).subtree, f.node.kind = "function_declaration" → (f.node.child? "name").isSome = true
  readable : ∀ f ∈ (Focus.root root).subtree, f.node.field = "name" → (ctx.text f.node).isOk = true
  clauseInside : ∀ f ∈ (Focus.root root).subtree, f.node.kind = "export_clause" →
    f.node.isNamed = true ∧ f.parent?.any (·.node.kind == "export_statement") = true
  clauseAlone : ∀ f ∈ (Focus.root root).subtree, f.node.kind = "export_statement" →
    (f.node.namedChildren.filter (·.kind == "export_clause")).length ≤ 1

end

/-! ## One place -/

variable {x : FactoryExport} {ctx : FileContext} {root : Node}

theorem moduleLevel?_of_holder? {f holder : Focus} (h : holder? f = some holder) : moduleLevel? f =
    if holder.node.kind == "program" || holder.node.kind == "export_statement" then
      some (holder.node.kind == "export_statement")
    else none := by
  simp only [moduleLevel?, h]
  split <;> simp_all

theorem moduleLevel?_eq (f : Focus) : moduleLevel? f =
    if f.standsIn "program" || f.standsIn "export_statement" then some (f.standsIn "export_statement") else none := by
  unfold Focus.standsIn
  cases hparent : f.parent? with
  | none => simp [moduleLevel?, holder?, hparent]
  | some parent =>
    rw [Option.any_some, Option.any_some]
    by_cases hstatement :
        (parent.node.kind == "lexical_declaration" || parent.node.kind == "variable_declaration") = true
    · have hkind : (parent.node.kind == "program") = false ∧ (parent.node.kind == "export_statement") = false := by
        rw [Bool.or_eq_true, beq_iff_eq, beq_iff_eq] at hstatement
        rcases hstatement with h | h <;> rw [h] <;> decide
      have hholder : holder? f = parent.parent? := by simp only [holder?, hparent, hstatement, if_true]
      rw [hstatement, hkind.1, hkind.2, Bool.true_and, Bool.true_and, Bool.false_or, Bool.false_or]
      cases hup : parent.parent? with
      | none => simp [moduleLevel?, hholder, hup]
      | some holder => rw [moduleLevel?_of_holder? (hholder.trans hup), Option.any_some, Option.any_some]
    · have hholder : holder? f = some parent := by simp only [holder?, hparent, if_neg hstatement]
      simp only [moduleLevel?_of_holder? hholder, Bool.eq_false_iff.2 hstatement, Bool.false_and, Bool.or_false]

/-- The names that an export statement lists. -/
def listedAt (ctx : FileContext) (f : Focus) : List String :=
  if f.node.kind = "export_statement" then (listedNames f.node).map ctx.textOf else []

/-- What was found, and what stands at a place besides. -/
def take (x : FactoryExport) (ctx : FileContext) (found : Found) (f : Focus) : Found :=
  match declaration? f with
  | some d =>
    if Text.startsWith (d.name ctx) x.nameStart then
      found.record (d.name ctx) d.nameNode d.function d.isUnderExport
    else found
  | none => { found with listed := found.listed ++ listedAt ctx f }

theorem IsModule.text_child? (h : IsModule ctx root) {f : Focus} (hf : f ∈ (Focus.root root).subtree) {name : Node}
    (hname : f.node.child? "name" = some name) : ctx.text name = .ok (ctx.textOf name) := by
  rw [← Focus.map_node_child?, Option.map_eq_some_iff] at hname
  obtain ⟨c, hc, rfl⟩ := hname
  have hmem := Focus.mem_subtree_of_mem_children hf (Focus.mem_children_of_child? hc)
  refine FileContext.text_of_isOk (h.readable c hmem ?_)
  exact beq_iff_eq.1 (List.find?_some (p := fun d : Focus => d.node.field == "name") hc)

theorem exists_of_mem_listedNames {f : Focus} {name : Node} (h : name ∈ listedNames f.node) :
    ∃ clause ∈ f.namedChildren, clause.node.kind = "export_clause" ∧
      ∃ specifier ∈ clause.namedChildren, specifier.node.child? "name" = some name := by
  unfold listedNames at h
  rw [← Focus.map_node_namedChildren, List.find?_map] at h
  split at h
  · rename_i clause hclause
    obtain ⟨c, hc, rfl⟩ := Option.map_eq_some_iff.1 hclause
    rw [← Focus.map_node_namedChildren, List.filterMap_map, List.mem_filterMap] at h
    obtain ⟨specifier, hspecifier, hname⟩ := h
    have hkind := List.find?_some hc
    exact ⟨c, List.mem_of_find?_eq_some hc, by simpa using hkind, specifier, hspecifier, hname⟩
  · cases h

theorem recordNode_eq {nameNode : Node} (h : ctx.text nameNode = .ok (ctx.textOf nameNode)) (found : Found)
    (function : Node) (isExported : Bool) :
    x.recordNode ctx found nameNode function isExported =
      .ok (if Text.startsWith (ctx.textOf nameNode) x.nameStart then
        found.record (ctx.textOf nameNode) nameNode function isExported else found) := by
  rw [recordNode, h]
  rfl

theorem kind_of_declaration? {f : Focus} {d : Declaration} (h : declaration? f = some d) :
    f.node.kind = "function_declaration" ∨ f.node.kind = "variable_declarator" := by
  rw [declaration?, Option.ite_none_right_eq_some, Option.map_eq_some_iff] at h
  obtain ⟨-, declared, hdeclared, -⟩ := h
  unfold declared? at hdeclared
  split at hdeclared
  · exact .inl ‹_›
  · exact .inr ‹_›
  · cases hdeclared

theorem take_of_export {f : Focus} (h : f.node.kind = "export_statement") (found : Found) :
    x.take ctx found f = { found with listed := found.listed ++ (listedNames f.node).map ctx.textOf } := by
  have hnone : declaration? f = none := by
    refine Option.eq_none_iff_forall_ne_some.2 fun d hd => ?_
    rcases kind_of_declaration? hd with hkind | hkind <;> rw [h] at hkind <;> exact absurd hkind (by decide)
  rw [take, hnone, listedAt, if_pos h]

theorem visitNode_of_export (h : IsModule ctx root) {f : Focus} (hf : f ∈ (Focus.root root).subtree)
    (hkind : f.node.kind = "export_statement") (found : Found) :
    x.visitNode ctx found f = .ok (x.take ctx found f) := by
  have hnames : (listedNames f.node).mapM ctx.text = .ok ((listedNames f.node).map ctx.textOf) := by
    refine mapM_eq_ok fun name hname => ?_
    obtain ⟨clause, hclause, -, specifier, hspecifier, hname⟩ := exists_of_mem_listedNames hname
    have hclause := Focus.mem_subtree_of_mem_children hf (Focus.mem_children_of_mem_namedChildren hclause)
    have hspecifier := Focus.mem_children_of_mem_namedChildren hspecifier
    exact h.text_child? (Focus.mem_subtree_of_mem_children hclause hspecifier) hname
  simp only [visitNode, hkind, hnames, take_of_export hkind]
  rfl

theorem visitNode_of_standsIn (h : IsModule ctx root) {f : Focus} (hf : f ∈ (Focus.root root).subtree)
    (hkind : f.node.kind ≠ "export_statement")
    (hplace : (f.standsIn "program" || f.standsIn "export_statement") = true) (found : Found) :
    x.visitNode ctx found f = .ok (x.take ctx found f) := by
  have hlisted : listedAt ctx f = [] := if_neg hkind
  have hlevel : moduleLevel? f = some (f.standsIn "export_statement") := (moduleLevel?_eq f).trans (if_pos hplace)
  have hdeclaration : declaration? f = (declared? f.node).map fun d => ⟨f, d.1, d.2⟩ := if_pos hplace
  rw [take, hdeclaration, hlisted, List.append_nil]
  unfold visitNode
  simp only [hlevel]
  split
  · exact absurd ‹_› hkind
  · rename_i hfunction
    obtain ⟨name, hname⟩ := Option.isSome_iff_exists.1 (h.named f hf hfunction)
    simp only [hname, recordNode_eq (h.text_child? hf hname), declared?, hfunction]
    rfl
  · rename_i hvariable
    simp only [declared?, hvariable]
    cases hname : f.node.child? "name" with
    | none => rfl
    | some name =>
      cases f.node.child? "value" with
      | none => rfl
      | some value =>
        by_cases hvalue : (name.kind == "identifier" && value.isFunction) = true
        · simp only [if_pos hvalue, recordNode_eq (h.text_child? hf hname)]
          rfl
        · simp only [if_neg hvalue]
          rfl
  · have hnone : declared? f.node = none := by
      unfold declared?
      split <;> first | contradiction | rfl
    rw [hnone]
    rfl

theorem visitNode_of_not_standsIn {f : Focus} (hkind : f.node.kind ≠ "export_statement")
    (hplace : ¬ (f.standsIn "program" || f.standsIn "export_statement") = true) (found : Found) :
    x.visitNode ctx found f = .ok (x.take ctx found f) := by
  have hlisted : listedAt ctx f = [] := if_neg hkind
  have hlevel : moduleLevel? f = none := (moduleLevel?_eq f).trans (if_neg hplace)
  have hdeclaration : declaration? f = none := if_neg hplace
  rw [take, hdeclaration, hlisted, List.append_nil]
  unfold visitNode
  simp only [hlevel]
  split
  · exact absurd ‹_› hkind
  all_goals rfl

theorem visitNode_eq (h : IsModule ctx root) {f : Focus} (hf : f ∈ (Focus.root root).subtree) (found : Found) :
    x.visitNode ctx found f = .ok (x.take ctx found f) := by
  by_cases hkind : f.node.kind = "export_statement"
  · exact visitNode_of_export h hf hkind found
  by_cases hplace : (f.standsIn "program" || f.standsIn "export_statement") = true
  · exact visitNode_of_standsIn h hf hkind hplace found
  · exact visitNode_of_not_standsIn hkind hplace found

/-! ## The whole module -/

/-- A declaration as it is remembered once these declarations have been seen. -/
def Declaration.candidate (ctx : FileContext) (ds : List Declaration) (d : Declaration) : Candidate :=
  ⟨d.name ctx, ds.any fun e => e.name ctx == d.name ctx && e.isUnderExport, !d.function.parameters.isEmpty,
    constructs d.function, d.nameNode⟩

@[simp] theorem Declaration.name_candidate (ds : List Declaration) (d : Declaration) :
    (d.candidate ctx ds).name = d.name ctx := rfl

theorem firsts_concat (ds : List Declaration) (d : Declaration) : firsts ctx (ds ++ [d]) =
    if (firsts ctx ds).any fun e => d.name ctx == e.name ctx then firsts ctx ds else firsts ctx ds ++ [d] :=
  eraseDupsBy_concat _ ds d

theorem candidate_concat (ds : List Declaration) (d e : Declaration) : e.candidate ctx (ds ++ [d]) =
    { e.candidate ctx ds with
      isExported := (e.candidate ctx ds).isExported || (d.name ctx == e.name ctx && d.isUnderExport) } := by
  simp only [Declaration.candidate, List.any_append, List.any_cons, List.any_nil, Bool.or_false]

theorem name_beq_of_unseen {ds : List Declaration} {d : Declaration}
    (h : ¬ (firsts ctx ds).any (fun e => d.name ctx == e.name ctx) = true) :
    ∀ e ∈ ds, (d.name ctx == e.name ctx) = false := by
  have hall : (firsts ctx ds).any (fun e => d.name ctx == e.name ctx) = ds.any fun e => d.name ctx == e.name ctx :=
    any_eraseDupsBy (fun a b hab => by rw [beq_iff_eq.1 hab]) ds
  rw [hall, Bool.not_eq_true, List.any_eq_false] at h
  exact fun e he => Bool.eq_false_iff.2 (h e he)

theorem record_candidates (ds : List Declaration) (d : Declaration) (listed : List String) :
    Found.record ⟨(firsts ctx ds).map (Declaration.candidate ctx ds), listed⟩ (d.name ctx) d.nameNode d.function
        d.isUnderExport =
      ⟨(firsts ctx (ds ++ [d])).map (Declaration.candidate ctx (ds ++ [d])), listed⟩ := by
  have hany : ((firsts ctx ds).map (Declaration.candidate ctx ds)).any (·.name == d.name ctx) =
      (firsts ctx ds).any fun e => d.name ctx == e.name ctx := by
    rw [List.any_map]
    refine any_congr_of_mem fun e _ => ?_
    rw [Function.comp_apply, Declaration.name_candidate, BEq.comm]
  simp only [Found.record, hany, firsts_concat]
  split_ifs with hseen
  · rw [Found.mk.injEq, List.map_map]
    refine ⟨List.map_congr_left fun e _ => ?_, rfl⟩
    rw [candidate_concat, Function.comp_apply, Declaration.name_candidate, BEq.comm]
    cases d.name ctx == e.name ctx && d.isUnderExport with
    | false =>
      rw [Bool.or_false]
      rfl
    | true =>
      rw [Bool.or_true]
      rfl
  · have hfirst : ∀ e ∈ firsts ctx ds, (d.name ctx == e.name ctx) = false := fun e he =>
      Bool.eq_false_iff.2 (List.any_eq_false.1 (Bool.eq_false_iff.2 hseen) e he)
    have hexport : (d.candidate ctx ds).isExported = false := by
      refine List.any_eq_false.2 fun e he => ?_
      rw [BEq.comm, name_beq_of_unseen hseen e he, Bool.false_and]
      exact Bool.false_ne_true
    rw [List.map_append, List.map_singleton, candidate_concat ds d d, hexport, beq_self_eq_true, Bool.true_and,
      Bool.false_or]
    have hearlier : (firsts ctx ds).map (Declaration.candidate ctx (ds ++ [d])) =
        (firsts ctx ds).map (Declaration.candidate ctx ds) := by
      refine List.map_congr_left fun e he => ?_
      rw [candidate_concat, hfirst e he, Bool.false_and, Bool.or_false]
    rw [hearlier]
    rfl

theorem declarationsAt_concat (places : List Focus) (f : Focus) : x.declarationsAt ctx (places ++ [f]) =
    x.declarationsAt ctx places ++
      ((declaration? f).filter fun d => Text.startsWith (d.name ctx) x.nameStart).toList := by
  rw [declarationsAt, List.filterMap_append, List.filter_append, ← declarationsAt]
  cases hd : declaration? f with
  | none => simp [hd]
  | some d => cases hname : Text.startsWith (d.name ctx) x.nameStart <;> simp [hd, hname, Option.filter_some]

/-- What is found at some places, one by one: the first of each name, and all that is listed. -/
theorem foldl_take (places : List Focus) : places.foldl (x.take ctx) ⟨[], []⟩ =
    ⟨(firsts ctx (x.declarationsAt ctx places)).map (Declaration.candidate ctx (x.declarationsAt ctx places)),
      places.flatMap (listedAt ctx)⟩ := by
  -- The last place comes upon what all the places before it have left.
  induction places using List.reverseRecOn with
  | nil => rfl
  | append_singleton places f ih =>
    rw [List.foldl_append, List.foldl_cons, List.foldl_nil, ih, take, declarationsAt_concat, List.flatMap_append,
      List.flatMap_singleton]
    cases hd : declaration? f with
    | none => simp
    | some d =>
      have hlisted : listedAt ctx f = [] := by
        refine if_neg fun hkind => ?_
        rcases kind_of_declaration? hd with h | h <;> rw [h] at hkind <;> exact absurd hkind (by decide)
      rw [hlisted, List.append_nil]
      by_cases hname : Text.startsWith (d.name ctx) x.nameStart = true
      · simp only [if_pos hname, Option.filter_some, Option.toList_some, record_candidates]
      · simp only [if_neg hname, Option.filter_some, Option.toList_none, List.append_nil]

/-! ## Exports -/

theorem IsModule.listedNames_of_clause (h : IsModule ctx root) {clause : Focus}
    (hclause : clause ∈ (Focus.root root).subtree) (hkind : clause.node.kind = "export_clause") :
    ∃ f ∈ (Focus.root root).subtree, f.node.kind = "export_statement" ∧
      listedNames f.node = clause.node.namedChildren.filterMap (·.child? "name") := by
  obtain ⟨hnamed, hparent⟩ := h.clauseInside clause hclause hkind
  rcases Focus.exists_parent_of_mem_subtree hclause with rfl | ⟨f, hf, hchild⟩
  · cases hparent
  rw [Focus.parent?_of_mem_children hchild, Option.any_some, beq_iff_eq] at hparent
  refine ⟨f, hf, hparent, ?_⟩
  have hmem : clause.node ∈ f.node.namedChildren.filter (·.kind == "export_clause") := by
    have hcomment : clause.node.isComment = false := by
      rw [Node.isComment, hkind]
      rfl
    refine List.mem_filter.2 ⟨List.mem_filter.2 ⟨Focus.node_mem_children hchild, ?_⟩, beq_iff_eq.2 hkind⟩
    rw [hnamed, hcomment]
    rfl
  have hfind : f.node.namedChildren.find? (·.kind == "export_clause") = some clause.node := by
    have halone := h.clauseAlone f hf hparent
    rw [← List.head?_filter]
    cases hall : f.node.namedChildren.filter (·.kind == "export_clause") with
    | nil =>
      rw [hall] at hmem
      cases hmem
    | cons first rest =>
      rw [hall, List.length_cons] at halone
      obtain rfl : rest = [] := List.length_eq_zero_iff.1 (by omega)
      rw [hall, List.mem_singleton] at hmem
      rw [hmem, List.head?_cons]
  rw [listedNames, hfind]

theorem IsModule.contains_listed (h : IsModule ctx root) (name : String) :
    ((Focus.root root).subtree.flatMap (listedAt ctx)).contains name = isListed ctx root name := by
  rw [Bool.eq_iff_iff, List.contains_iff_mem, List.mem_flatMap, isListed, List.any_eq_true]
  constructor
  · rintro ⟨f, hf, hname⟩
    rw [listedAt] at hname
    split_ifs at hname with hkind
    · obtain ⟨node, hnode, rfl⟩ := List.mem_map.1 hname
      obtain ⟨clause, hclause, hkind, specifier, hspecifier, hname⟩ := exists_of_mem_listedNames hnode
      refine ⟨clause, Focus.mem_subtree_of_mem_children hf (Focus.mem_children_of_mem_namedChildren hclause), ?_⟩
      rw [hkind, beq_self_eq_true, Bool.true_and, ← Focus.map_node_namedChildren, List.any_map, List.any_eq_true]
      refine ⟨specifier, hspecifier, ?_⟩
      rw [Function.comp_apply, hname, Option.any_some, beq_self_eq_true]
    · cases hname
  · rintro ⟨clause, hclause, hname⟩
    rw [Bool.and_eq_true, beq_iff_eq, List.any_eq_true] at hname
    obtain ⟨hkind, specifier, hspecifier, hname⟩ := hname
    obtain ⟨node, hnode, hname⟩ := (Option.any_eq_true _ _).1 hname
    obtain ⟨f, hf, hexport, hnames⟩ := h.listedNames_of_clause hclause hkind
    refine ⟨f, hf, ?_⟩
    rw [listedAt, if_pos hexport, hnames, ← beq_iff_eq.1 hname]
    exact List.mem_map_of_mem (List.mem_filterMap.2 ⟨specifier, hspecifier, hnode⟩)

/-- What was found on the whole tree. -/
def Found.ofModule (x : FactoryExport) (ctx : FileContext) (root : Node) : Found :=
  ⟨(firsts ctx (x.declarations ctx root)).map (Declaration.candidate ctx (x.declarations ctx root)),
    (Focus.root root).subtree.flatMap (listedAt ctx)⟩

theorem foldl_take_module :
    ((Focus.root root).subtree.filter (·.node.kind ∈ x.checker.kinds)).foldl (x.take ctx) ⟨[], []⟩ =
      .ofModule x ctx root := by
  have hdeclarations : x.declarationsAt ctx ((Focus.root root).subtree.filter (·.node.kind ∈ x.checker.kinds)) =
      x.declarations ctx root := by
    rw [declarations, declarationsAt, declarationsAt, filterMap_filter_eq (q := fun _ => true), List.filter_true]
    intro f _ d hd
    rcases kind_of_declaration? hd with hkind | hkind <;> simp [checker, hkind]
  have hlisted : ((Focus.root root).subtree.filter (·.node.kind ∈ x.checker.kinds)).flatMap (listedAt ctx) =
      (Focus.root root).subtree.flatMap (listedAt ctx) := by
    refine flatMap_filter_eq fun f _ hf => if_neg fun hkind => ?_
    simp [checker, hkind] at hf
  rw [foldl_take, hdeclarations, hlisted, Found.ofModule]

theorem IsModule.exported_ofModule (h : IsModule ctx root) : (Found.ofModule x ctx root).exported =
    (x.exports ctx root).map (Declaration.candidate ctx (x.declarations ctx root)) := by
  rw [Found.exported, Found.ofModule, exports, List.filter_map]
  refine congrArg _ (List.filter_congr fun d _ => ?_)
  rw [Function.comp_apply, isExported, ← h.contains_listed]
  rfl

/-! ## The verdict -/

theorem isComplete_iff (ds : List Declaration) (d : Declaration) :
    ((d.candidate ctx ds).hasParameter && (d.candidate ctx ds).constructs) = true ↔ d.IsComplete := by
  simp [Declaration.candidate, Declaration.IsComplete, constructs]

theorem incompleteMessage_candidate (ds : List Declaration) (d : Declaration) :
    incompleteMessage (d.candidate ctx ds) = d.complaint ctx := by
  unfold incompleteMessage Declaration.complaint
  by_cases hparameters : d.function.parameters = [] <;> simp [Declaration.candidate, hparameters]

theorem gathers_checker (h : IsModule ctx root) (hexempt : x.isExempt ctx = false) (bound : Nat) :
    x.checker.Gathers ctx ⟨[], []⟩ (x.take ctx) (fun _ => []) (x.verdict ctx) ((Focus.root root).within bound) where
  start := rfl
  visit := by
    intro f hf hkind found k
    have hf : f ∈ (Focus.root root).subtree := (List.mem_filter.1 hf).1
    have hnext : x.visitNode ctx found f = .ok (x.take ctx found f) := visitNode_eq h hf found
    simp only [checker, hexempt, if_neg Bool.false_ne_true]
    rw [hnext]
    rfl
  finish := by
    intro found k
    simp only [checker, hexempt]
    rfl

/-- What is reported where no factory that is exported is complete. -/
def shortfall (x : FactoryExport) (ctx : FileContext) (root : Node) : Violation :=
  match x.exports ctx root with
  | [] => (ctx.fileViolation .factoryExport ("module does not export a `" ++ x.nameStart ++ "*` factory")).withHint
  | d :: _ => (ctx.violationAt .factoryExport d.nameNode (d.complaint ctx)).withHint

theorem line?_shortfall : (x.shortfall ctx root).location.line? = none ↔ x.exports ctx root = [] := by
  unfold shortfall
  cases x.exports ctx root with
  | nil => exact iff_of_true rfl rfl
  | cons d rest => exact iff_of_false nofun nofun

theorem verdict_ofModule_of_complete (h : IsModule ctx root) {d : Declaration} (hd : d ∈ x.exports ctx root)
    (hcomplete : d.IsComplete) : x.verdict ctx (.ofModule x ctx root) = [] := by
  refine if_pos ?_
  rw [h.exported_ofModule, List.any_map, List.any_eq_true]
  exact ⟨d, hd, (isComplete_iff _ d).2 hcomplete⟩

theorem verdict_ofModule_of_incomplete (h : IsModule ctx root) (hnone : ∀ d ∈ x.exports ctx root, ¬ d.IsComplete) :
    x.verdict ctx (.ofModule x ctx root) = [x.shortfall ctx root] := by
  have hany : ¬ (Found.ofModule x ctx root).exported.any (fun c => c.hasParameter && c.constructs) = true := by
    rw [h.exported_ofModule, List.any_map, List.any_eq_true]
    rintro ⟨d, hd, hcomplete⟩
    exact hnone d hd ((isComplete_iff _ d).1 hcomplete)
  simp only [verdict, if_neg hany]
  rw [h.exported_ofModule, shortfall]
  cases x.exports ctx root with
  | nil => rfl
  | cons d rest =>
    simp only [List.map_cons, incompleteMessage_candidate]
    rfl

/-- One violation at most: none where a factory that is exported is complete, one for the file where no factory is
exported, and otherwise one at the name of the first of them. -/
theorem violations_checker (h : IsModule ctx root) (hexempt : x.isExempt ctx = false) {bound : Nat}
    (hbound : ∀ f ∈ (Focus.root root).subtree, f.depth ≤ bound) :
    (FileAnalysis.ofWalk [x.checker] bound ctx root).faults = [] ∧
      ((FileAnalysis.ofWalk [x.checker] bound ctx root).violations = [] ↔
        ∃ d ∈ x.exports ctx root, d.IsComplete) ∧
      ((∀ d ∈ x.exports ctx root, ¬ d.IsComplete) →
        (FileAnalysis.ofWalk [x.checker] bound ctx root).violations = [x.shortfall ctx root]) ∧
      ((x.shortfall ctx root).location.line? = none ↔ x.exports ctx root = []) := by
  obtain ⟨hviolations, hfaults⟩ := Walk.ofWalk_of_gathers (gathers_checker h hexempt bound)
  have hnothing (places : List Focus) : places.flatMap (fun _ => ([] : List Violation)) = [] :=
    List.flatMap_eq_nil_iff.2 fun _ _ => rfl
  rw [Focus.within_eq_subtree hbound, hnothing, List.nil_append] at hviolations
  have hverdict := hviolations.trans (congrArg (x.verdict ctx) foldl_take_module)
  rw [hverdict]
  refine ⟨hfaults, ⟨fun hempty => ?_, ?_⟩, verdict_ofModule_of_incomplete h, line?_shortfall⟩
  · by_contra hnone
    rw [verdict_ofModule_of_incomplete h fun d hd hcomplete => hnone ⟨d, hd, hcomplete⟩] at hempty
    cases hempty
  · rintro ⟨d, hd, hcomplete⟩
    exact verdict_ofModule_of_complete h hd hcomplete

/-- The source `export { createA }; function createA(d) {}`. -/
def listedAhead : FileContext × Node :=
  let specifier := Node.plain "export_specifier" "" 9 16 [.plain "identifier" "name" 9 16 []]
  let statement := Node.plain "export_statement" "" 0 19 [.plain "export_clause" "" 7 18 [specifier]]
  let function := Node.plain "function_declaration" "" 20 42 [.plain "identifier" "name" 29 36 [],
    .plain "formal_parameters" "parameters" 36 39 [.plain "identifier" "" 37 38 []],
    .plain "statement_block" "body" 40 42 []]
  (.ofFile ⟨"/app"⟩ ⟨"/app/a.js"⟩ "export \x7b createA \x7d; function createA(d) \x7b\x7d",
    .plain "program" "" 0 42 [statement, function])

theorem isModule_listedAhead : IsModule listedAhead.1 listedAhead.2 where
  named := by decide
  readable := by decide +kernel
  clauseInside := by decide
  clauseAlone := by decide

theorem violations_checker_listedAhead :
    let ctx := listedAhead.1
    let root := listedAhead.2
    let x : FactoryExport := ⟨"create", true⟩
    IsModule ctx root ∧ x.isExempt ctx = false ∧ (∀ f ∈ (Focus.root root).subtree, f.depth ≤ 4096) ∧
      (FileAnalysis.ofWalk [x.checker] 4096 ctx root).faults = [] ∧
      (FileAnalysis.ofWalk [x.checker] 4096 ctx root).violations =
        [⟨.factoryExport, "GL001", "factory-export", .error, ⟨⟨"a.js"⟩, some 1, 30, 29, 7⟩,
          "factory `createA` never constructs an instance with `new`",
          some "export function createThing(deps) \x7b return new Thing(deps); \x7d",
          some "export \x7b createA \x7d; function createA(d) \x7b\x7d"⟩] := by
  have hdepth : ∀ f ∈ (Focus.root listedAhead.2).subtree, f.depth ≤ 4096 := by decide
  have hnew : ∀ d ∈ (FactoryExport.mk "create" true).exports listedAhead.1 listedAhead.2,
      ∀ n ∈ d.function.descendants, n.kind ≠ "new_expression" := by
    decide +kernel
  obtain ⟨hfaults, -, hincomplete, -⟩ :=
    violations_checker (x := ⟨"create", true⟩) isModule_listedAhead rfl hdepth
  refine ⟨isModule_listedAhead, rfl, hdepth, hfaults, (hincomplete ?_).trans rfl⟩
  rintro d hd ⟨-, n, hn, hkind⟩
  exact hnew d hd n hn hkind

end FactoryExport
end Guardrails
