import Guardrails.Proofs.Tree.Descent
import Guardrails.Proofs.Tree.Family
import Guardrails.Proofs.Walk.Gathering
import Guardrails.Rules.Errors

/-!
# Captured errors

A caught error is captured by a call that gets it together with its context, or by a throw statement. The checker
takes an identifier for the error when it has its name, and overlooks the name as a shorthand property of an object.
-/

namespace Guardrails.ErrorCapture

variable {x : ErrorCapture} {ctx : FileContext} {root body : Node} {error : String} {kinds : List String}

/-! ## References -/

/-- The kinds of the nodes that refer to a variable. -/
def referenceKinds : List String := ["identifier", "shorthand_property_identifier"]

/-- Whether the error is referred to by one of these nodes, under one of these kinds. -/
def Refers (kinds : List String) (ctx : FileContext) (error : String) (nodes : List Node) : Prop :=
  ∃ d ∈ nodes, d.kind ∈ kinds ∧ ctx.textOf d = error

structure Rethrows (kinds : List String) (ctx : FileContext) (error : String) (n : Node) : Prop where
  kind : n.kind = "throw_statement"
  refers : Refers kinds ctx error n.descendants

/-- Whether a node is a call that gets the error, and an object with a context key. -/
structure Captures (x : ErrorCapture) (kinds : List String) (ctx : FileContext) (error : String) (n : Node) : Prop where
  kind : n.kind = "call_expression"
  refers : ∃ a ∈ n.callArguments, Refers kinds ctx error (a :: a.descendants)
  context : ∃ a ∈ n.callArguments, ∃ key ∈ a.objectKeys ctx.source, key ∈ x.contextKeys

/-- Whether something in the body of a catch clause throws the error or captures it. -/
def Captured (x : ErrorCapture) (kinds : List String) (ctx : FileContext) (error : String) (body : Node) : Prop :=
  ∃ n ∈ body.descendants, Rethrows kinds ctx error n ∨ x.Captures kinds ctx error n

theorem Refers.mono {kinds' : List String} {nodes nodes' : List Node} (hkinds : kinds ⊆ kinds')
    (hnodes : nodes ⊆ nodes') (h : Refers kinds ctx error nodes) : Refers kinds' ctx error nodes' := by
  obtain ⟨d, hd, hkind, htext⟩ := h
  exact ⟨d, hnodes hd, hkinds hkind, htext⟩

theorem any_isReference_iff {nodes : List Node} :
    nodes.any (isReference ctx error) = true ↔ Refers ["identifier"] ctx error nodes := by
  simp [Refers, isReference]

theorem captures_iff {call : Node} : (call.kind == "call_expression" && x.captures ctx error call) = true ↔
    x.Captures ["identifier"] ctx error call := by
  have hrefers : (call.callArguments.any fun a => (a :: a.descendants).any (isReference ctx error)) = true ↔
      ∃ a ∈ call.callArguments, Refers ["identifier"] ctx error (a :: a.descendants) := by
    rw [List.any_eq_true]
    exact exists_congr fun a => and_congr_right fun _ => any_isReference_iff
  have hcontext : (call.callArguments.any fun a => (a.objectKeys ctx.source).any (x.contextKeys.contains ·)) = true ↔
      ∃ a ∈ call.callArguments, ∃ key ∈ a.objectKeys ctx.source, key ∈ x.contextKeys := by
    simp
  rw [captures, Bool.and_eq_true, Bool.and_eq_true, hrefers, hcontext, beq_iff_eq]
  exact ⟨fun h => ⟨h.1, h.2.1, h.2.2⟩, fun h => ⟨h.kind, h.refers, h.context⟩⟩

theorem rethrows_iff {n : Node} : (n.kind == "throw_statement" && n.descendants.any (isReference ctx error)) = true ↔
    Rethrows ["identifier"] ctx error n := by
  rw [Bool.and_eq_true, any_isReference_iff, beq_iff_eq]
  exact ⟨fun h => ⟨h.1, h.2⟩, fun h => ⟨h.kind, h.refers⟩⟩

theorem isCaptured_iff : x.isCaptured ctx error body = true ↔ x.Captured ["identifier"] ctx error body := by
  rw [isCaptured, rethrows, Bool.or_eq_true, List.any_eq_true, List.any_eq_true]
  simp only [captures_iff, rethrows_iff]
  constructor
  · rintro (⟨n, hn, h⟩ | ⟨n, hn, h⟩)
    · exact ⟨n, hn, .inl h⟩
    · exact ⟨n, hn, .inr h⟩
  · rintro ⟨n, hn, h | h⟩
    · exact .inl ⟨n, hn, h⟩
    · exact .inr ⟨n, hn, h⟩

/-! ## Where references stand -/

theorem subset_of_mem_callArguments {call a : Node} (ha : a ∈ call.callArguments) :
    a :: a.descendants ⊆ call.descendants := by
  unfold Node.callArguments at ha
  split at ha
  · rename_i arguments harguments
    have hcall : arguments ∈ call.children := List.mem_of_find?_eq_some harguments
    have hmem : a ∈ call.descendants := Node.descendants_subset_of_mem_children hcall
      (Node.mem_descendants_of_mem_children (Node.mem_children_of_mem_namedChildren ha))
    exact Node.cons_descendants_subset hmem
  · cases ha

theorem Captures.refers_descendants {call : Node} (h : x.Captures kinds ctx error call) :
    Refers kinds ctx error call.descendants := by
  obtain ⟨a, ha, hrefers⟩ := h.refers
  exact hrefers.mono (List.Subset.refl _) (subset_of_mem_callArguments ha)

theorem Captured.congr {kinds' : List String} (h : x.Captured kinds ctx error body)
    (hkinds : ∀ d ∈ body.descendants, ctx.textOf d = error → d.kind ∈ kinds → d.kind ∈ kinds') :
    x.Captured kinds' ctx error body := by
  obtain ⟨n, hn, hcaptured⟩ := h
  -- All that is searched for references stands below the body, where the kinds are known.
  have hrefers {nodes : List Node} (hnodes : nodes ⊆ n.descendants) (h : Refers kinds ctx error nodes) :
      Refers kinds' ctx error nodes := by
    obtain ⟨d, hd, hkind, htext⟩ := h
    exact ⟨d, hd, hkinds d (Node.descendants_subset hn (hnodes hd)) htext hkind, htext⟩
  refine ⟨n, hn, ?_⟩
  rcases hcaptured with ⟨hkind, hthrown⟩ | ⟨hkind, ⟨a, ha, hargument⟩, hcontext⟩
  · exact .inl ⟨hkind, hrefers (List.Subset.refl _) hthrown⟩
  · exact .inr ⟨hkind, ⟨a, ha, hrefers (subset_of_mem_callArguments ha) hargument⟩, hcontext⟩

/-! ## Clauses -/

/-- Whether a catch clause binds the caught error to an identifier with this name. -/
structure BindsError (ctx : FileContext) (clause body : Node) (error : String) : Prop where
  body : clause.child? "body" = some body
  parameter : ∃ parameter, clause.child? "parameter" = some parameter ∧ parameter.kind = "identifier" ∧
    ctx.text parameter = .ok error

def lostReport (ctx : FileContext) (clause : Focus) (error : String) : Violation :=
  (ctx.violationAt .errorCapture clause.node
    ("caught `" ++ error ++ "` is neither rethrown nor captured with context")).withHint

theorem BindsError.foundAt {clause : Focus} (h : BindsError ctx clause.node body error) :
    foundAt x.findings ctx clause = if x.isCaptured ctx error body then [] else [lostReport ctx clause error] := by
  obtain ⟨hbody, parameter, hparameter, hkind, htext⟩ := h
  unfold Guardrails.foundAt findings
  simp only [hbody, hparameter, hkind, htext, bind, Except.bind, beq_self_eq_true, if_true]
  rfl

/-- Whether a catch clause has a body, and its binding a text if that is an identifier. -/
structure IsReadable (ctx : FileContext) (clause : Node) : Prop where
  body : ∃ body, clause.child? "body" = some body
  text : ∀ parameter, clause.child? "parameter" = some parameter → parameter.kind = "identifier" →
    ∃ text, ctx.text parameter = .ok text

theorem IsReadable.findings_isOk {clause : Focus} (h : IsReadable ctx clause.node) :
    (x.findings ctx clause).isOk = true := by
  obtain ⟨⟨body, hbody⟩, htext⟩ := h
  unfold findings
  cases hparameter : clause.node.child? "parameter" with
  | none =>
    simp only [hbody, hparameter]
    rfl
  | some parameter =>
    by_cases hkind : parameter.kind = "identifier"
    · obtain ⟨text, htext⟩ := htext parameter hparameter hkind
      simp only [hbody, hparameter, hkind, htext, bind, Except.bind, beq_self_eq_true, if_true]
      rfl
    · simp only [hbody, hparameter, beq_iff_eq, hkind, if_false]
      rfl

/-- A clause is reported once at most, and it is when the error is not captured through an identifier. Where nothing
refers to the error it is reported, and where no shorthand property does it is reported only when nothing captures
the error in any way. -/
theorem violations_of_bindsError {bound : Nat}
    (hreadable : ∀ f ∈ (Focus.root root).subtree, f.node.kind = "catch_clause" → IsReadable ctx f.node) :
    (FileAnalysis.ofWalk [x.checker] bound ctx root).faults = [] ∧
      (FileAnalysis.ofWalk [x.checker] bound ctx root).violations =
        (((Focus.root root).within bound).filter (·.node.kind ∈ x.checker.kinds)).flatMap
          (foundAt x.findings ctx) ∧
      (((Focus.root root).within bound).filter (·.node.kind ∈ x.checker.kinds)).Pairwise
        (fun f g => f.isBefore g = true) ∧
      ∀ (clause : Focus) (body : Node) (error : String), BindsError ctx clause.node body error →
        (x.Captured ["identifier"] ctx error body → foundAt x.findings ctx clause = []) ∧
        (¬ x.Captured ["identifier"] ctx error body →
          foundAt x.findings ctx clause = [lostReport ctx clause error]) ∧
        ((∀ n ∈ body.descendants, n.kind = "call_expression" ∨ n.kind = "throw_statement" →
            ¬ Refers referenceKinds ctx error n.descendants) →
          foundAt x.findings ctx clause = [lostReport ctx clause error]) ∧
        ((∀ d ∈ body.descendants, d.kind = "shorthand_property_identifier" → ctx.textOf d ≠ error) →
          x.Captured referenceKinds ctx error body → foundAt x.findings ctx clause = []) := by
  have hfindings : ∀ f ∈ (Focus.root root).within bound, f.node.kind ∈ x.checker.kinds →
      (x.findings ctx f).isOk = true := fun f hf hkind =>
    (hreadable f (List.mem_of_mem_filter hf) (List.mem_singleton.1 hkind)).findings_isOk
  obtain ⟨hfaults, hviolations, hordered⟩ := Walk.ofWalk_ofFindings hfindings
  refine ⟨hfaults, hviolations, hordered, ?_⟩
  intro clause body error hbinds
  have hcaptured (h : x.Captured ["identifier"] ctx error body) : foundAt x.findings ctx clause = [] := by
    rw [hbinds.foundAt, if_pos (isCaptured_iff.2 h)]
  have hlost (h : ¬ x.Captured ["identifier"] ctx error body) :
      foundAt x.findings ctx clause = [lostReport ctx clause error] := by
    rw [hbinds.foundAt, if_neg (mt isCaptured_iff.1 h)]
  refine ⟨hcaptured, hlost, fun hnone => hlost ?_, fun hshorthand h => hcaptured (h.congr ?_)⟩
  · have hkinds : ["identifier"] ⊆ referenceKinds := by decide
    rintro ⟨n, hn, h | h⟩
    · exact hnone n hn (.inr h.kind) (h.refers.mono hkinds (List.Subset.refl _))
    · exact hnone n hn (.inl h.kind) (h.refers_descendants.mono hkinds (List.Subset.refl _))
  · intro d hd htext hkind
    rcases List.mem_cons.1 hkind with hidentifier | hproperty
    · exact hidentifier ▸ List.mem_cons_self
    · exact absurd htext (hshorthand d hd (List.mem_singleton.1 hproperty))

/-- The source `try {} catch (e) { throw e; }`, with its tree, the place of the clause and the body of it. -/
def rethrown : FileContext × Node × Focus × Node :=
  let body := Node.plain "statement_block" "body" 17 29
    [.plain "throw_statement" "" 19 27 [.plain "identifier" "" 25 26 []]]
  let clause := Node.plain "catch_clause" "handler" 7 29 [.plain "identifier" "parameter" 14 15 [], body]
  let statement := Node.plain "try_statement" "" 0 29 [.plain "statement_block" "body" 4 6 [], clause]
  let root := Node.plain "program" "" 0 29 [statement]
  (.ofFile ⟨"/app"⟩ ⟨"/app/a.js"⟩ "try \x7b\x7d catch (e) \x7b throw e; \x7d", root,
    ⟨clause, [⟨statement, 1⟩, ⟨root, 0⟩]⟩, body)

def standard : ErrorCapture :=
  ⟨["context", "module", "source", "method"]⟩

theorem bindsError_rethrown :
    let (ctx, _, clause, body) := rethrown
    BindsError ctx clause.node body "e" :=
  ⟨rfl, _, rfl, rfl, rfl⟩

theorem captured_rethrown :
    let (ctx, _, _, body) := rethrown
    standard.Captured ["identifier"] ctx "e" body := by
  refine ⟨.plain "throw_statement" "" 19 27 [.plain "identifier" "" 25 26 []], ?_, .inl ⟨rfl, ?_⟩⟩
  · rw [Node.descendants_eq]
    exact List.mem_cons_self
  · refine ⟨.plain "identifier" "" 25 26 [], ?_, by decide, rfl⟩
    rw [Node.descendants_eq]
    exact List.mem_cons_self

theorem violations_rethrown :
    (FileAnalysis.ofWalk [standard.checker] 4096 rethrown.1 rethrown.2.1).violations = [] := by
  have hclauses : (Focus.root rethrown.2.1).subtree.filter (·.node.kind = "catch_clause") = [rethrown.2.2.1] := rfl
  have hreadable : ∀ f ∈ (Focus.root rethrown.2.1).subtree, f.node.kind = "catch_clause" →
      IsReadable rethrown.1 f.node := by
    intro f hf hkind
    have hmem : f ∈ (Focus.root rethrown.2.1).subtree.filter (·.node.kind = "catch_clause") :=
      List.mem_filter.2 ⟨hf, decide_eq_true hkind⟩
    rw [hclauses] at hmem
    obtain rfl := List.mem_singleton.1 hmem
    refine ⟨⟨_, rfl⟩, fun parameter hparameter _ => ?_⟩
    obtain rfl := Option.some.inj hparameter
    exact ⟨"e", rfl⟩
  obtain ⟨-, hviolations, -, hfound⟩ := violations_of_bindsError (x := standard) hreadable
  have hplaces : ((Focus.root rethrown.2.1).within 4096).filter (·.node.kind ∈ standard.checker.kinds) =
      [rethrown.2.2.1] := rfl
  rw [hviolations, hplaces, List.flatMap_singleton]
  exact (hfound _ _ _ bindsError_rethrown).1 captured_rethrown

/-- The object `{ context: 'x', err }` in the source below. -/
def contextObject : Node :=
  .plain "object" "" 31 52 [.plain "pair" "" 33 45 [.plain "property_identifier" "key" 33 40 [],
    .plain "string" "value" 42 45 [.plain "string_fragment" "" 43 44 []]],
    .plain "shorthand_property_identifier" "" 47 50 []]

def logCall : Node :=
  .plain "call_expression" "" 27 53
    [.plain "identifier" "function" 27 30 [], .plain "arguments" "arguments" 30 53 [contextObject]]

/-- The source `try { a(); } catch (err) { log({ context: 'x', err }); }`, with the clause and its body. -/
def shorthand : FileContext × Focus × Node :=
  let body := Node.plain "statement_block" "body" 25 56 [.plain "expression_statement" "" 27 54 [logCall]]
  let clause := Node.plain "catch_clause" "handler" 13 56 [.plain "identifier" "parameter" 20 23 [], body]
  let statement := Node.plain "try_statement" "" 0 56 [.plain "statement_block" "body" 4 12 [], clause]
  (.ofFile ⟨"/app"⟩ ⟨"/app/a.js"⟩ "try \x7b a(); \x7d catch (err) \x7b log(\x7b context: 'x', err \x7d); \x7d",
    ⟨clause, [⟨statement, 1⟩, ⟨.plain "program" "" 0 56 [statement], 0⟩]⟩, body)

theorem bindsError_shorthand :
    let (ctx, clause, body) := shorthand
    BindsError ctx clause.node body "err" :=
  ⟨rfl, _, rfl, rfl, rfl⟩

theorem captured_shorthand :
    let (ctx, _, body) := shorthand
    standard.Captured referenceKinds ctx "err" body := by
  have hargument : contextObject ∈ logCall.callArguments := List.mem_singleton_self _
  refine ⟨logCall, ?_, .inr ⟨rfl, ⟨contextObject, hargument, ?_⟩, contextObject, hargument, "context", ?_, by decide⟩⟩
  · rw [Node.descendants_eq]
    exact List.mem_cons_of_mem _ List.mem_cons_self
  · refine ⟨.plain "shorthand_property_identifier" "" 47 50 [], ?_, by decide, rfl⟩
    exact List.mem_cons_of_mem _ (Node.mem_descendants_of_mem_children (List.mem_cons_of_mem _ List.mem_cons_self))
  · exact List.mem_of_elem_eq_true rfl

theorem isCaptured_shorthand :
    let (ctx, _, body) := shorthand
    standard.isCaptured ctx "err" body = false := by
  unfold shorthand isCaptured rethrows captures
  simp only [Node.descendants_eq]
  decide +kernel

/-- An error may be captured as a shorthand property and be reported. -/
theorem not_silent_of_captured : ¬ ∀ (x : ErrorCapture) (ctx : FileContext) (clause : Focus) (body : Node)
    (error : String), BindsError ctx clause.node body error → x.Captured referenceKinds ctx error body →
      foundAt x.findings ctx clause = [] := by
  intro h
  have hsilent := h standard _ _ _ _ bindsError_shorthand captured_shorthand
  rw [bindsError_shorthand.foundAt, if_neg (Bool.eq_false_iff.1 isCaptured_shorthand)] at hsilent
  exact List.cons_ne_nil _ _ hsilent

end Guardrails.ErrorCapture
