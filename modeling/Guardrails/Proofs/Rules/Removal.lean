import Guardrails.Proofs.Rules.Findings
import Guardrails.Proofs.Rules.State
import Guardrails.Proofs.Tree.Reading
import Guardrails.Proofs.Walk.Following
import Guardrails.Rules.Builtin

/-!
# Checkers in trees without some of their nodes

What the built-in checkers find when loose nodes of some kinds are taken out of the tree. All but one of them find
what they found; the one that looks for sanitized markup takes the first node in parentheses for the value, and
so these must not begin with a node that is taken out.
-/

namespace Guardrails

variable {kinds : List String} {ctx : FileContext} {f : Focus}

/-! ## Checkers that look at each node by itself -/

theorem Checker.follows_ofFindings {covers : Focus → Prop} {name : String} {rules : List Rule}
    {wanted : List String} {below : Visit}
    {findings : FileContext → Focus → Except Failure (List Violation)}
    (h : ∀ f, covers f → f.node.kind ∈ wanted → findings ctx (f.without kinds) = findings ctx f) :
    (ofFindings name rules wanted below findings).Follows ctx ctx covers (Focus.without kinds) id where
  start := rfl
  visit := by
    intro state f k hf hkind
    simp only [ofFindings, bind, Reporting.bind, id, h f hf hkind, Reply.mapValue]
    cases findings ctx f <;> rfl
  finish _ _ := rfl

namespace ForbiddenGlobals

theorem isCalled_without (h : f.IsKept kinds) : isCalled (f.without kinds) = isCalled f := by
  unfold isCalled
  rw [Focus.parent?_without]
  cases hp : f.parent? with
  | none => rfl
  | some p =>
    obtain ⟨hkept, hchild⟩ := h.parent? hp
    simp only [Option.map_some, Focus.node_without, Node.kind_without]
    rw [Focus.child?_without hkept.tidy (by decide)]
    congr 1
    cases hc : p.child? "function" with
    | none => rfl
    | some c =>
      exact Focus.isAt_without (Focus.mem_children_of_child? hc) hchild
        (Focus.stays_of_child? hkept.tidy (by decide) hc) h.stays

theorem findings_without (x : ForbiddenGlobals) (h : f.IsKept kinds) :
    x.findings ctx (f.without kinds) = x.findings ctx f := by
  have hdialog : x.isDialogCallee ctx (f.without kinds) = x.isDialogCallee ctx f := by
    unfold isDialogCallee
    rw [isCalled_without h, Focus.node_without, Node.any_child?_without h.tidy (by decide) fun c _ _ => by simp]
  have hmember : x.memberFindings ctx (f.without kinds) = x.memberFindings ctx f := by
    unfold memberFindings
    rw [Focus.node_without, Node.child?_without h.tidy (by decide)]
    cases f.node.child? "object" with
    | none => rfl
    | some object =>
      have hmessage : ∀ name use, x.memberMessage? ctx (f.without kinds) name use =
          x.memberMessage? ctx f name use := by
        intro name use
        cases use <;> simp [memberMessage?, hdialog]
      simp [Focus.isParameterInScope_without ctx.source h, hmessage]
  have hname : ((f.node.without kinds).child? "function").bind (x.dialogName? ctx) =
      (f.node.child? "function").bind (x.dialogName? ctx) :=
    Node.bind_child?_without h.tidy (by decide) fun function _ hfunction => by
      simp only [dialogName?, Node.accessTail_without ctx.source hfunction, Node.kind_without]
  have hcall : x.callFindings ctx (f.without kinds) = x.callFindings ctx f := by
    unfold callFindings
    simp only [Focus.node_without, hname, Focus.isParameterInScope_without ctx.source h,
      FileContext.violationAt_without]
  unfold findings
  rw [hmember, hcall, Focus.node_without, Node.kind_without]

end ForbiddenGlobals

namespace TopLevelEffects

theorem effect?_without {n : Node} (h : n.Tidy kinds) : effect? (n.without kinds) = effect? n := by
  have hdirective : isDirective (n.without kinds) = isDirective n := by
    unfold isDirective
    rw [Node.kind_without]
    by_cases hkind : n.kind = "expression_statement"
    · rw [Node.inside?_without h (by simp [Node.isList, hkind]), Option.any_map]
      simp
    · simp [beq_eq_false_iff_ne.2 hkind]
  have hvalue : ((n.without kinds).child? "value").any (fun v => executing.contains v.kind) =
      (n.child? "value").any fun v => executing.contains v.kind :=
    Node.any_child?_without h (by decide) fun v _ _ => by rw [Node.kind_without]
  unfold effect?
  rw [hdirective, hvalue, Node.kind_without]

theorem findings_without (h : f.IsKept kinds) (hkind : f.node.kind = "program") :
    findings ctx (f.without kinds) = findings ctx f := by
  unfold findings
  rw [Focus.node_without, Node.namedChildren_without h.tidy (by simp [Node.isList, hkind]), List.filterMap_map]
  congr 1
  refine List.filterMap_congr fun n hn => ?_
  simp [effect?_without (h.tidy.of_mem_namedChildren hn)]

end TopLevelEffects

namespace ErrorCapture

theorem isReference_without (ctx : FileContext) (error : String) (n : Node) :
    isReference ctx error (n.without kinds) = isReference ctx error n := by
  simp [isReference]

theorem any_isReference_without (ctx : FileContext) (error : String) {n : Node} (h : n.Tidy kinds) :
    (n.without kinds).descendants.any (isReference ctx error) = n.descendants.any (isReference ctx error) :=
  Node.any_descendants_without h (fun d _ => isReference_without ctx error d) fun d hd => by
    rcases hd.kind with hkind | hkind <;> simp [isReference, hkind]

theorem captures_without (x : ErrorCapture) (ctx : FileContext) (error : String) {n : Node} (h : n.Tidy kinds) :
    x.captures ctx error (n.without kinds) = x.captures ctx error n := by
  unfold captures
  simp only [Node.callArguments_without h, List.any_map]
  congr 1
  · refine any_congr_of_mem fun a ha => ?_
    have htidy := h.of_mem_callArguments ha
    simp only [Function.comp, List.any_cons, isReference_without, any_isReference_without ctx error htidy]
  · refine any_congr_of_mem fun a ha => ?_
    simp only [Function.comp, Node.objectKeys_without ctx.source (h.of_mem_callArguments ha)]

theorem isCaptured_without (x : ErrorCapture) (ctx : FileContext) (error : String) {n : Node}
    (h : n.Tidy kinds) : x.isCaptured ctx error (n.without kinds) = x.isCaptured ctx error n := by
  unfold isCaptured rethrows
  congr 1
  · apply Node.any_descendants_without h
    · intro d hd
      rw [Node.kind_without, any_isReference_without ctx error hd]
    · intro d hd
      rcases hd.kind with hkind | hkind <;> simp [hkind]
  · apply Node.any_descendants_without h
    · intro d hd
      rw [Node.kind_without, captures_without x ctx error hd]
    · intro d hd
      rcases hd.kind with hkind | hkind <;> simp [hkind]

theorem findings_without (x : ErrorCapture) (h : f.IsKept kinds) :
    x.findings ctx (f.without kinds) = x.findings ctx f := by
  unfold findings
  simp only [Focus.node_without]
  rw [Node.child?_without h.tidy (by decide), Node.child?_without h.tidy (by decide)]
  cases hbody : f.node.child? "body" with
  | none => simp
  | some body =>
    have hcaptured := fun error => x.isCaptured_without ctx error (h.tidy.of_child? hbody)
    cases f.node.child? "parameter" with
    | none => simp [report]
    | some parameter => simp [report, hcaptured]

end ErrorCapture

namespace SanitizeHtml

/-- The values that may be written at a node. -/
def written (n : Node) : List Node :=
  (n.child? "right").toList ++ n.callArguments[1]?.toList

/-- Whether nothing that may be written at a node is taken for one of the nodes that are taken out, once the
parentheses around it are removed. -/
def IsClear (kinds : List String) (n : Node) : Prop :=
  ∀ value ∈ written n, (unwrap value).stays kinds = true

theorem unwrap_eq (n : Node) : unwrap n =
    if n.kind = "parenthesized_expression" then ((firstNamed? n).map unwrap).getD n else n := by
  rw [unwrap]
  by_cases hkind : n.kind = "parenthesized_expression"
  · simp only [hkind, beq_self_eq_true, if_true]
    split <;> simp [*]
  · simp [hkind]

theorem unwrap_of_firstNamed? {n first : Node} (hkind : n.kind = "parenthesized_expression")
    (hfirst : firstNamed? n = some first) : unwrap n = unwrap first := by
  rw [unwrap_eq, if_pos hkind, hfirst, Option.map_some, Option.getD_some]

theorem unwrap_of_kind_ne {n : Node} (hkind : n.kind ≠ "parenthesized_expression") : unwrap n = n := by
  rw [unwrap_eq, if_neg hkind]

theorem tidy_unwrap {n : Node} (h : n.Tidy kinds) : (unwrap n).Tidy kinds := by
  induction h with
  | intro n hloose hlist hchildren ih =>
    have h : n.Tidy kinds := .intro n hloose hlist hchildren
    rw [unwrap_eq]
    split_ifs
    · cases hfirst : firstNamed? n with
      | none => exact h
      | some first => exact ih first (List.mem_of_find?_eq_some hfirst)
    · exact h

theorem unwrap_without {n : Node} (h : n.Tidy kinds) (hstays : (unwrap n).stays kinds = true) :
    unwrap (n.without kinds) = (unwrap n).without kinds := by
  induction h with
  | intro n hloose _ _ ih =>
    rw [unwrap_eq, unwrap_eq n, Node.kind_without]
    split_ifs with hkind
    · -- A first node that is taken out would be a comment, and so what is in the parentheses.
      have hkept : ∀ first, firstNamed? n = some first → first.stays kinds = true := by
        intro first hfirst
        by_contra hdropped
        have hcomment := (hloose first (List.mem_of_find?_eq_some hfirst) (by simpa [Node.stays] using hdropped)).kind
        have hne : first.kind ≠ "parenthesized_expression" := by
          rcases hcomment with hcomment | hcomment <;> simp [hcomment]
        rw [unwrap_of_firstNamed? hkind hfirst, unwrap_of_kind_ne hne] at hstays
        exact hdropped hstays
      have hfirst : firstNamed? (n.without kinds) = (firstNamed? n).map (Node.without kinds) := by
        unfold firstNamed?
        rw [Node.children_without, List.find?_map, ← find?_filter_of_kept hkept]
        congr 2
        funext c
        exact Node.isNamed_without kinds c
      rw [hfirst]
      cases hc : firstNamed? n with
      | none => rfl
      | some first =>
        rw [unwrap_of_firstNamed? hkind hc] at hstays
        exact ih first (List.mem_of_find?_eq_some hc) hstays
    · rfl

theorem isSanitizer_without (x : SanitizeHtml) (ctx : FileContext) {n : Node} (h : n.Tidy kinds) :
    x.isSanitizer ctx (n.without kinds) = x.isSanitizer ctx n := by
  unfold isSanitizer
  rw [Node.lastSegment?_without ctx.source h, Node.calleeMatches_without ctx.source h]

theorem isSafe_without (x : SanitizeHtml) (ctx : FileContext) {n : Node} (h : n.Tidy kinds)
    (hstays : (unwrap n).stays kinds = true) : x.isSafe ctx (n.without kinds) = x.isSafe ctx n := by
  have htidy := tidy_unwrap h
  unfold isSafe
  rw [Node.isEmptyLiteral_without, unwrap_without h hstays, Node.callee?_without htidy, Option.any_map]
  congr 1
  unfold Node.callee?
  split_ifs
  · cases hc : (unwrap n).child? "function" with
    | none => rfl
    | some c => exact x.isSanitizer_without ctx (htidy.of_child? hc)
  · rfl

theorem writeFindings_without (x : SanitizeHtml) (ctx : FileContext) {n : Node} (h : n.Tidy kinds)
    (hclear : IsClear kinds n) : x.writeFindings ctx (n.without kinds) = x.writeFindings ctx n := by
  unfold writeFindings
  rw [Node.child?_without h (by decide), Node.child?_without h (by decide)]
  cases hleft : n.child? "left" with
  | none => rfl
  | some left =>
    cases hright : n.child? "right" with
    | none => rfl
    | some right =>
      have hstays := hclear right (by simp [written, hright])
      simp only [Option.map_some, sinkProperty?, Node.propertyName?_without ctx.source (h.of_child? hleft),
        isSafe_without x ctx (h.of_child? hright) hstays, report, FileContext.violationAt_without]

theorem callFindings_without (x : SanitizeHtml) (ctx : FileContext) {n : Node} (h : n.Tidy kinds)
    (hclear : IsClear kinds n) : x.callFindings ctx (n.without kinds) = x.callFindings ctx n := by
  unfold callFindings
  rw [Node.calledMethod?_without ctx.source h, Node.callArguments_without h, List.getElem?_map]
  cases (n.calledMethod? ctx.source).filter (x.sinkMethods.contains ·) with
  | none => rfl
  | some method =>
    cases ha : n.callArguments[1]? with
    | none => rfl
    | some a =>
      have htidy := h.of_mem_callArguments (List.mem_of_getElem? ha)
      have hstays := hclear a (by simp [written, ha])
      simp only [Option.map_some, isSafe_without x ctx htidy hstays, report, FileContext.violationAt_without]

theorem findings_without (x : SanitizeHtml) (h : f.IsKept kinds) (hclear : IsClear kinds f.node) :
    x.findings ctx (f.without kinds) = x.findings ctx f := by
  have hwrite := x.writeFindings_without ctx h.tidy hclear
  have hassignment : x.assignmentFindings ctx (f.node.without kinds) = x.assignmentFindings ctx f.node := by
    unfold assignmentFindings
    rw [Node.kind_without, Node.child?_without h.tidy (by decide), hwrite]
    cases f.node.child? "operator" <;> simp
  unfold findings
  rw [Focus.node_without, Node.kind_without, x.callFindings_without ctx h.tidy hclear, hassignment]

end SanitizeHtml

namespace ReadinessGate

theorem hasWork_without {n : Node} (h : n.Tidy kinds) : hasWork (n.without kinds) = hasWork n := by
  unfold hasWork
  refine Node.any_child?_without h (by decide) fun body _ hbody => ?_
  rw [Node.kind_without]
  by_cases hkind : body.kind = "statement_block"
  · rw [Node.isEmptyBlock_without hbody (by simp [Node.isList, hkind])]
  · simp [beq_eq_false_iff_ne.2 hkind]

theorem findings_without (x : ReadinessGate) (h : f.IsKept kinds) :
    x.findings ctx (f.without kinds) = x.findings ctx f := by
  unfold findings
  rw [Focus.functionName?_without ctx.source h]
  simp only [Focus.node_without, hasWork_without h.tidy, Node.callsAny_without ctx.source h.tidy,
    FileContext.violationAt_without]

end ReadinessGate

namespace NoSharedStateMutation

theorem targetPath?_without (s : Source) {n : Node} (h : n.Tidy kinds) :
    targetPath? s (n.without kinds) = targetPath? s n := by
  induction h with
  | intro n hloose hlist hchildren ih =>
    have h : n.Tidy kinds := .intro n hloose hlist hchildren
    have hobject := Node.bind_child?_without h (show "object" ≠ "" by decide) fun c hc _ => ih c hc
    rw [targetPath?_eq, targetPath?_eq s n, Node.kind_without]
    split
    · rw [hobject, Node.child?_without h (by decide), Option.bind_map]
      refine Option.bind_congr fun property _ => ?_
      simp only [Function.comp_apply, Source.textOf_without]
    · rw [hobject]
    · rename_i hkind
      exact Node.bind_inside?_without h (by simp [Node.isList, hkind]) fun c hc _ => ih c hc
    all_goals simp

theorem target?_without {n : Node} (h : n.Tidy kinds) :
    target? ctx (n.without kinds) = (target? ctx n).map (Option.map (Node.without kinds)) := by
  unfold target?
  rw [Node.kind_without]
  split
  · rw [Node.child?_without h (by decide)]
    rfl
  · rw [Node.child?_without h (by decide)]
    rfl
  · rw [Node.child?_without h (by decide)]
    rfl
  · rw [Node.child?_without h (by decide), Node.child?_without h (by decide)]
    cases n.child? "operator" with
    | none => simp [throw, throwThe, MonadExceptOf.throw, Except.map]
    | some operator =>
      simp only [Option.map_some, FileContext.text_without, bind, Except.bind]
      cases ctx.text operator with
      | error e => rfl
      | ok text => by_cases hdelete : (text == "delete") = true <;> simp [hdelete, pure, Except.pure, Except.map]
  · rfl

theorem tidy_of_target? {n target : Node} (h : n.Tidy kinds) (ht : target? ctx n = .ok (some target)) :
    target.Tidy kinds := by
  unfold target? at ht
  split at ht
  · exact h.of_child? (Except.ok.inj ht)
  · exact h.of_child? (Except.ok.inj ht)
  · exact h.of_child? (Except.ok.inj ht)
  · split at ht
    · obtain ⟨text, -, ht⟩ := Except.bind_eq_ok.1 ht
      have ht := Except.ok.inj ht
      split_ifs at ht
      exact h.of_child? ht
    · cases ht
  · cases ht

theorem findings_without (x : NoSharedStateMutation) (h : f.IsKept kinds) :
    x.findings ctx (f.without kinds) = x.findings ctx f := by
  unfold findings
  rw [Focus.node_without, target?_without h.tidy]
  cases ht : target? ctx f.node with
  | error e => rfl
  | ok target? =>
    have hpath : (target?.map (Node.without kinds)).bind (targetPath? ctx.source) =
        target?.bind (targetPath? ctx.source) := by
      rw [Option.bind_map]
      refine Option.bind_congr fun target htarget => ?_
      subst htarget
      exact targetPath?_without ctx.source (tidy_of_target? h.tidy ht)
    simp only [Except.map, bind, Except.bind, hpath, FileContext.violationAt_without]

end NoSharedStateMutation

namespace NavigationService

theorem bind_hit?_without {n : Node} (h : n.Tidy kinds) (patterns : List String) {field : String}
    (hfield : field ≠ "") : ((n.without kinds).child? field).bind (hit? ctx patterns) =
      (n.child? field).bind (hit? ctx patterns) :=
  Node.bind_child?_without h hfield fun c _ hc => by simp only [hit?, Node.accessTail_without ctx.source hc]

theorem findings_without (x : NavigationService) (h : f.IsKept kinds) :
    x.findings ctx (f.without kinds) = x.findings ctx f := by
  unfold findings message?
  simp only [Focus.node_without, Node.kind_without, FileContext.violationAt_without,
    bind_hit?_without h.tidy x.assigned (show "left" ≠ "" by decide),
    bind_hit?_without h.tidy x.calls (show "function" ≠ "" by decide)]

end NavigationService

namespace ApiClient

theorem access?_without (x : ApiClient) {n : Node} (h : n.Tidy kinds) :
    x.access? ctx (n.without kinds) = x.access? ctx n := by
  have hcall : ((n.without kinds).child? "function").bind (x.directCall? ctx) =
      (n.child? "function").bind (x.directCall? ctx) :=
    Node.bind_child?_without h (by decide) fun c _ hc => by
      simp only [directCall?, Node.accessTail_without ctx.source hc, Node.accessPath?_without ctx.source hc]
  have hconstruction : ((n.without kinds).child? "constructor").bind (x.directConstruction? ctx) =
      (n.child? "constructor").bind (x.directConstruction? ctx) :=
    Node.bind_child?_without h (by decide) fun c _ hc => by
      simp only [directConstruction?, Node.accessTail_without ctx.source hc]
  unfold access?
  rw [Node.kind_without, hcall, hconstruction]

theorem findings_without (x : ApiClient) (h : f.IsKept kinds) :
    x.findings ctx (f.without kinds) = x.findings ctx f := by
  unfold findings
  simp only [Focus.node_without, access?_without x h.tidy, FileContext.violationAt_without]

end ApiClient

namespace AnalyticsConsent

theorem isConsentCheck_without (x : AnalyticsConsent) (ctx : FileContext) (n : Node) :
    x.isConsentCheck ctx (n.without kinds) = x.isConsentCheck ctx n :=
  any_congr_of_mem fun marker _ => Node.mentions_without ctx.source kinds n marker

theorem isEarlyExit_without (x : AnalyticsConsent) (ctx : FileContext) {n : Node} (h : n.Tidy kinds) :
    x.isEarlyExit ctx (n.without kinds) = x.isEarlyExit ctx n := by
  unfold isEarlyExit
  rw [Node.kind_without, Node.child?_without h (by decide), Node.child?_without h (by decide)]
  cases n.child? "condition" with
  | none => rfl
  | some condition =>
    cases hc : n.child? "consequence" with
    | none => rfl
    | some consequence =>
      have hexit : ∀ d : Node, isExit (d.without kinds) = isExit d := by
        intro d
        simp [isExit]
      have hbelow : (consequence.without kinds).descendants.any isExit = consequence.descendants.any isExit :=
        Node.any_descendants_without (h.of_child? hc) (fun d _ => hexit d) fun d hd => by
          rcases hd.kind with hkind | hkind <;> simp [isExit, hkind]
      simp only [Option.map_some, isConsentCheck_without, List.any_cons, hexit, hbelow]

theorem guards_without (x : AnalyticsConsent) (ctx : FileContext) {child around : Focus}
    (hchild : child.IsKept kinds) (haround : around.IsKept kinds) (hmem : child ∈ around.children) :
    x.guards ctx (child.without kinds) (around.without kinds) = x.guards ctx child around := by
  have hat : ∀ c ∈ around.children, c.stays kinds = true →
      (c.without kinds).isAt (child.without kinds) = c.isAt child :=
    fun c hc hstays => Focus.isAt_without hc hmem hstays hchild.stays
  have hfield : ∀ {field : String} {p q : Focus → Bool}, field ≠ "" →
      (∀ c ∈ around.children, c.stays kinds = true → p (c.without kinds) = q c) →
        ((around.without kinds).child? field).any p = (around.child? field).any q := by
    intro field p q hne hp
    rw [Focus.child?_without haround.tidy hne, Option.any_map]
    cases hc : around.child? field with
    | none => rfl
    | some c =>
      exact hp c (Focus.mem_children_of_child? hc) (Focus.stays_of_child? haround.tidy hne hc)
  have hblock (hlist : around.node.isList = true) :
      ((around.without kinds).namedChildren.takeWhile (!·.isAt (child.without kinds))).any
          (fun s => x.isEarlyExit ctx s.node) =
        (around.namedChildren.takeWhile (!·.isAt child)).any fun s => x.isEarlyExit ctx s.node := by
    have hbefore : around.namedChildren.takeWhile ((!·.isAt (child.without kinds)) ∘ Focus.without kinds) =
        around.namedChildren.takeWhile (!·.isAt child) :=
      takeWhile_congr_of_mem fun c hc => congrArg (!·) (hat c (Focus.mem_children_of_mem_namedChildren hc)
        (Focus.stays_of_mem_namedChildren haround.tidy hlist hc))
    rw [Focus.namedChildren_without haround.tidy hlist, List.takeWhile_map, List.any_map, hbefore]
    refine any_congr_of_mem fun s hs => ?_
    have hs := (List.takeWhile_sublist _).subset hs
    exact isEarlyExit_without x ctx
      (haround.tidy.child (Focus.node_mem_children (Focus.mem_children_of_mem_namedChildren hs)))
  unfold guards
  rw [Focus.node_without, Node.kind_without]
  split
  · refine hfield (by decide) fun c hc hstays => ?_
    rw [hat c hc hstays, Focus.node_without, isConsentCheck_without]
  · refine hfield (by decide) fun c hc hstays => ?_
    rw [hat c hc hstays, Focus.node_without, isConsentCheck_without]
  · rw [Node.child?_without haround.tidy (by decide), Node.child?_without haround.tidy (by decide),
      hfield (by decide) hat, Option.any_map, Option.any_map]
    simp only [FileContext.textOf_without, isConsentCheck_without]
  · rename_i hkind
    exact hblock (by simp [Node.isList, hkind])
  · rename_i hkind
    exact hblock (by simp [Node.isList, hkind])
  · rfl

theorem isGated_without (x : AnalyticsConsent) (ctx : FileContext) (h : f.IsKept kinds) :
    x.isGated ctx (f.without kinds) = x.isGated ctx f := by
  unfold isGated
  rw [Focus.ancestors_without, ← List.map_cons, List.zip_map, List.any_map]
  refine any_congr_of_mem fun step hstep => ?_
  obtain ⟨hchild, haround, hmem⟩ := h.of_mem_zip step hstep
  exact guards_without x ctx hchild haround hmem

theorem findings_without (x : AnalyticsConsent) (h : f.IsKept kinds) :
    x.findings ctx (f.without kinds) = x.findings ctx f := by
  have hname : x.initializer? ctx (f.node.without kinds) = x.initializer? ctx f.node := by
    unfold initializer?
    exact Node.bind_child?_without h.tidy (by decide) fun c _ hc => by
      simp only [Node.accessTail_without ctx.source hc]
  unfold findings
  simp only [Focus.node_without, hname, isGated_without x ctx h, FileContext.violationAt_without]

end AnalyticsConsent

namespace TrackedListeners

theorem findings_without (x : TrackedListeners) (h : f.IsKept kinds) :
    x.findings ctx (f.without kinds) = x.findings ctx f := by
  unfold findings
  simp only [Focus.node_without, Node.calledMethod?_without ctx.source h.tidy, FileContext.violationAt_without]

end TrackedListeners

namespace NoServiceLocator

theorem findings_without (x : NoServiceLocator) (h : f.IsKept kinds) :
    x.findings ctx (f.without kinds) = x.findings ctx f := by
  have hlookup : x.isLookup ctx (f.node.without kinds) = x.isLookup ctx f.node := by
    unfold isLookup
    exact Node.any_child?_without h.tidy (by decide) fun c _ hc => by
      simp only [Node.accessTail_without ctx.source hc]
  have hmessage : message ctx (f.node.without kinds) = message ctx f.node := by
    unfold message target?
    have hread : Node.stringValue? ctx.source ∘ Node.without kinds = Node.stringValue? ctx.source :=
      funext (Node.stringValue?_without ctx.source kinds)
    rw [Node.callArguments_without h.tidy, List.head?_map, Option.bind_map, hread]
  unfold findings
  simp only [Focus.node_without, hlookup, hmessage, FileContext.violationAt_without]

end NoServiceLocator

/-! ## Checkers that report at the end -/

namespace ListenerCleanup

theorem see_without (x : ListenerCleanup) (seen : Seen) (h : f.IsKept kinds) :
    x.see ctx seen (f.without kinds) = x.see ctx seen f := by
  have hcleanup : x.isInCleanup ctx (f.without kinds) = x.isInCleanup ctx f :=
    Focus.any_functions_without h fun g hg => by rw [Focus.functionName?_without ctx.source hg]
  unfold see
  rw [Focus.node_without, Node.calledMethod?_without ctx.source h.tidy, hcleanup]

theorem follows (x : ListenerCleanup) (ctx : FileContext) {covers : Focus → Prop}
    (h : ∀ f, covers f → f.IsKept kinds) :
    x.checker.Follows ctx ctx covers (Focus.without kinds) id where
  start := rfl
  visit := by
    intro seen f k hf _
    simp only [checker, id, see_without x seen (h f hf)]
    rfl
  finish _ _ := rfl

end ListenerCleanup

namespace NotifierMetadata

theorem see_without (x : NotifierMetadata) (seen : Seen) {n : Node} (h : n.Tidy kinds) :
    x.see ctx seen (n.without kinds) = x.see ctx seen n := by
  have hmessage : ∀ tail, x.message? ctx.source tail (n.without kinds).callArguments[1]? =
      x.message? ctx.source tail n.callArguments[1]? := by
    intro tail
    rw [Node.callArguments_without h, List.getElem?_map]
    cases ha : n.callArguments[1]? with
    | none => rfl
    | some a =>
      have htidy := h.of_mem_callArguments (List.mem_of_getElem? ha)
      simp [message?, missingKeys?, Node.objectKeys_without ctx.source htidy]
  unfold see
  rw [Node.child?_without h (by decide)]
  cases hc : n.child? "function" with
  | none => rfl
  | some function =>
    simp only [Option.map_some, Node.accessTail_without ctx.source (h.of_child? hc), hmessage,
      FileContext.violationAt_without]

theorem follows (x : NotifierMetadata) (ctx : FileContext) {covers : Focus → Prop}
    (h : ∀ f, covers f → f.IsKept kinds) :
    x.checker.Follows ctx ctx covers (Focus.without kinds) id where
  start := rfl
  visit := by
    intro seen f k hf _
    simp only [checker, id, Focus.node_without, see_without x seen (h f hf).tidy]
    rfl
  finish _ _ := rfl

end NotifierMetadata

namespace EventBus

/-- What was seen, with the calls in the tree without nodes of some kinds. -/
def Seen.without (kinds : List String) (seen : Seen) : Seen :=
  ⟨seen.buses, seen.events.map fun e => ⟨e.receiver, e.call.without kinds⟩⟩

theorem busTarget?_without (x : EventBus) (ctx : FileContext) {n : Node} (h : n.Tidy kinds)
    {target value : String} (htarget : target ≠ "") (hvalue : value ≠ "") :
    x.busTarget? ctx (n.without kinds) target value = (x.busTarget? ctx n target value).map (Node.without kinds) := by
  unfold busTarget?
  rw [Node.child?_without h htarget, Node.child?_without h hvalue]
  cases n.child? target with
  | none => rfl
  | some holder =>
    cases hmade : n.child? value with
    | none => rfl
    | some made =>
      simp only [Option.map_some, Node.constructs_without ctx.source (h.of_child? hmade)]
      split_ifs <;> rfl

theorem dispatches_without (x : EventBus) (ctx : FileContext) {n : Node} (h : n.Tidy kinds) :
    x.dispatches ctx (n.without kinds) = x.dispatches ctx n := by
  unfold dispatches
  rw [Node.calledMethod?_without ctx.source h, Node.callArguments_without h, List.head?_map, Option.any_map]
  congr 1
  cases ha : n.callArguments.head? with
  | none => rfl
  | some a =>
    have htidy := h.of_mem_callArguments (List.mem_of_mem_head? ha)
    exact Node.constructs_without ctx.source htidy x.eventConstructor

theorem seeBus_without (ctx : FileContext) (seen : Seen) (holder? : Option Node) :
    seeBus ctx (seen.without kinds) (holder?.map (Node.without kinds)) =
      (seeBus ctx seen holder?).map (Seen.without kinds) := by
  cases holder? with
  | none => rfl
  | some holder =>
    simp only [Option.map_some, seeBus, FileContext.text_without]
    cases ctx.text holder <;> rfl

theorem seeCall_without (x : EventBus) (ctx : FileContext) (seen : Seen) {n : Node} (h : n.Tidy kinds) :
    x.seeCall ctx (seen.without kinds) (n.without kinds) = (x.seeCall ctx seen n).map (Seen.without kinds) := by
  unfold seeCall
  rw [Node.child?_without h (by decide), dispatches_without x ctx h]
  cases hc : n.child? "function" with
  | none => rfl
  | some function =>
    simp only [Option.map_some]
    split_ifs
    · rw [Node.child?_without (h.of_child? hc) (by decide)]
      cases function.child? "object" with
      | none => simp [throw, throwThe, MonadExceptOf.throw, Except.map]
      | some receiver =>
        simp only [Option.map_some, FileContext.text_without]
        cases ctx.text receiver with
        | error e => rfl
        | ok text => simp [bind, Except.bind, pure, Except.pure, Except.map, Seen.without]
    · rfl

theorem see_without (x : EventBus) (ctx : FileContext) (seen : Seen) {n : Node} (h : n.Tidy kinds) :
    x.see ctx (seen.without kinds) (n.without kinds) = (x.see ctx seen n).map (Seen.without kinds) := by
  unfold see
  rw [Node.kind_without, busTarget?_without x ctx h (by decide) (by decide),
    busTarget?_without x ctx h (by decide) (by decide)]
  split
  · exact seeBus_without ctx seen _
  · exact seeBus_without ctx seen _
  · exact seeCall_without x ctx seen h
  · rfl

theorem verdict_without (x : EventBus) (ctx : FileContext) (seen : Seen) :
    x.verdict ctx (seen.without kinds) = x.verdict ctx seen := by
  unfold verdict Seen.without
  rw [List.filter_map, List.map_map]
  simp [Function.comp_def]

theorem follows (x : EventBus) (ctx : FileContext) {covers : Focus → Prop} (h : ∀ f, covers f → f.IsKept kinds) :
    x.checker.Follows ctx ctx covers (Focus.without kinds) (Seen.without kinds) where
  start := rfl
  visit := by
    intro seen f k hf _
    simp only [checker, Focus.node_without, see_without x ctx seen (h f hf).tidy]
    cases x.see ctx seen f.node <;> rfl
  finish seen _ := congrArg Reply.report (verdict_without x ctx seen)

end EventBus

namespace FactoryExport

/-- What was found, with the nodes of the tree without nodes of some kinds. -/
def Found.without (kinds : List String) (found : Found) : Found :=
  ⟨found.candidates.map fun c => { c with nameNode := c.nameNode.without kinds }, found.listed⟩

theorem constructs_without {n : Node} (h : n.Tidy kinds) : constructs (n.without kinds) = constructs n := by
  apply Node.any_descendants_without h
  · intro d _
    rw [Node.kind_without]
  · intro d hd
    rcases hd.kind with hkind | hkind <;> simp [hkind]

theorem record_without (found : Found) (name : String) (nameNode : Node) {function : Node} (isExported : Bool)
    (h : function.Tidy kinds) :
    (found.without kinds).record name (nameNode.without kinds) (function.without kinds) isExported =
      (found.record name nameNode function isExported).without kinds := by
  have hany : (found.without kinds).candidates.any (·.name == name) = found.candidates.any (·.name == name) := by
    simp only [Found.without, List.any_map]
    rfl
  unfold Found.record
  rw [hany]
  split_ifs
  · simp only [Found.without, List.map_map, Found.mk.injEq, and_true]
    refine List.map_congr_left fun c _ => ?_
    simp only [Function.comp]
    split_ifs <;> rfl
  · simp [Found.without, Node.parameters_without h, constructs_without h]

theorem moduleLevel?_without (f : Focus) : moduleLevel? (f.without kinds) = moduleLevel? f := by
  have hholder : holder? (f.without kinds) = (holder? f).map (Focus.without kinds) := by
    unfold holder?
    rw [Focus.parent?_without]
    cases f.parent? with
    | none => rfl
    | some p =>
      simp only [Option.map_some, Focus.node_without, Node.kind_without, Focus.parent?_without]
      split_ifs <;> rfl
  unfold moduleLevel?
  rw [hholder]
  cases holder? f <;> simp

theorem listedNames_without {n : Node} (h : n.Tidy kinds) (hkind : n.kind = "export_statement") :
    listedNames (n.without kinds) = (listedNames n).map (Node.without kinds) := by
  unfold listedNames
  rw [Node.namedChildren_without h (by simp [Node.isList, hkind]), List.find?_map]
  simp only [Function.comp_def, Node.kind_without]
  cases hclause : n.namedChildren.find? (·.kind == "export_clause") with
  | none => rfl
  | some clause =>
    have htidy := h.of_mem_namedChildren (List.mem_of_find?_eq_some hclause)
    have hlist : clause.isList = true := by
      have hkind := List.find?_some hclause
      simp_all [Node.isList]
    simp only [Option.map_some]
    rw [Node.namedChildren_without htidy hlist, List.filterMap_map, List.map_filterMap]
    exact List.filterMap_congr fun c hc => Node.child?_without (htidy.of_mem_namedChildren hc) (by decide)

theorem recordNode_without (x : FactoryExport) (ctx : FileContext) (found : Found) (nameNode : Node)
    {function : Node} (isExported : Bool) (h : function.Tidy kinds) :
    x.recordNode ctx (found.without kinds) (nameNode.without kinds) (function.without kinds) isExported =
      (x.recordNode ctx found nameNode function isExported).map (Found.without kinds) := by
  unfold recordNode
  rw [FileContext.text_without]
  cases ctx.text nameNode with
  | error e => rfl
  | ok name =>
    simp only [bind, Except.bind, record_without found name nameNode isExported h]
    split_ifs <;> rfl

theorem visitNode_without (x : FactoryExport) (ctx : FileContext) (found : Found) (h : f.IsKept kinds) :
    x.visitNode ctx (found.without kinds) (f.without kinds) =
      (x.visitNode ctx found f).map (Found.without kinds) := by
  unfold visitNode
  simp only [Focus.node_without, Node.kind_without, moduleLevel?_without]
  rw [Node.child?_without h.tidy (by decide), Node.child?_without h.tidy (by decide)]
  split
  · rename_i hkind
    have htexts : (listedNames (f.node.without kinds)).mapM ctx.text = (listedNames f.node).mapM ctx.text := by
      rw [listedNames_without h.tidy hkind, List.mapM_map]
      simp only [Function.comp_def, FileContext.text_without]
    rw [htexts]
    cases (listedNames f.node).mapM ctx.text <;> rfl
  · cases moduleLevel? f with
    | none => rfl
    | some isExported =>
      cases f.node.child? "name" with
      | none => simp [throw, throwThe, MonadExceptOf.throw, Except.map]
      | some name => exact recordNode_without x ctx found name isExported h.tidy
  · cases moduleLevel? f with
    | none => rfl
    | some isExported =>
      cases f.node.child? "name" with
      | none => rfl
      | some name =>
        cases hvalue : f.node.child? "value" with
        | none => rfl
        | some value =>
          simp only [Option.map_some, Node.kind_without, Node.isFunction_without]
          split_ifs
          · exact recordNode_without x ctx found name isExported (h.tidy.of_child? hvalue)
          · rfl
  · rfl

theorem verdict_without (x : FactoryExport) (ctx : FileContext) (found : Found) :
    x.verdict ctx (found.without kinds) = x.verdict ctx found := by
  have hexported : (found.without kinds).exported =
      found.exported.map fun c => { c with nameNode := c.nameNode.without kinds } := by
    unfold Found.exported Found.without
    rw [List.filter_map]
    rfl
  unfold verdict
  rw [hexported]
  simp only [List.any_map, Function.comp_def]
  split_ifs
  · rfl
  · cases found.exported with
    | nil => rfl
    | cons c rest => simp [incompleteMessage]

theorem follows (x : FactoryExport) (ctx : FileContext) {covers : Focus → Prop}
    (h : ∀ f, covers f → f.IsKept kinds) :
    x.checker.Follows ctx ctx covers (Focus.without kinds) (Found.without kinds) where
  start := rfl
  visit := by
    intro found f k hf _
    simp only [checker]
    split_ifs
    · rfl
    · simp only [visitNode_without x ctx found (h f hf)]
      cases x.visitNode ctx found f <;> rfl
  finish found _ :=
    congrArg (fun vs => Reply.report (if x.isExempt ctx = true then [] else vs)) (verdict_without x ctx found)

end FactoryExport

end Guardrails
