import Guardrails.Proofs.Tree.Access
import Guardrails.Proofs.Tree.Descent
import Guardrails.Proofs.Walk.Alone
import Guardrails.Rules.Globals

/-!
# Accesses to browser globals

An access to a global may be called, and then both the access and the call are handed to the checker. Which of
the two reports a dialog hangs on the parentheses around the access and on the names that are bound there.
-/

namespace Guardrails

namespace ForbiddenGlobals

variable {x : ForbiddenGlobals} {ctx : FileContext} {call function member : Focus} {name property : String}

/-! ## Accesses and their calls -/

/-- Whether a place is the access `name.property` on an identifier. -/
structure IsAccess (ctx : FileContext) (member : Focus) (name property : String) : Prop where
  kind : member.node.kind = "member_expression"
  object : ∃ n, member.node.child? "object" = some n ∧ n.kind = "identifier" ∧ ctx.text n = .ok name
  property : ∃ n, member.node.child? "property" = some n ∧ ctx.source.textOf n = property

/-- Whether a call calls `function`, which is `member` once the parentheses around it are removed. -/
structure IsCallOf (call function member : Focus) : Prop where
  kind : call.node.kind = "call_expression"
  called : call.child? "function" = some function
  wraps : function.Wraps member

def dialogReport (ctx : FileContext) (call : Focus) (name : String) : Violation :=
  (ctx.violationAt .notifyViaDi call.node
    ("blocking `" ++ name ++ "()` dialog instead of the injected notifier")).withHint

def accessReport (ctx : FileContext) (member : Focus) (name : String) : Violation :=
  (ctx.violationAt .noGlobalAccess member.node ("direct access to browser global `" ++ name ++ "`")).withHint

theorem IsAccess.accessTail (h : IsAccess ctx member name property) :
    member.node.accessTail ctx.source = [name, property] := by
  obtain ⟨object, hobject, hkind, htext⟩ := h.object
  obtain ⟨p, hp, rfl⟩ := h.property
  rw [Node.accessTail_member ctx.source h.kind hobject hp, Node.accessTail_identifier ctx.source hkind,
    FileContext.textOf_of_text htext]
  rfl

/-- An access is what a call calls only if there are no parentheses around it. -/
theorem IsCallOf.isCalled (hcall : IsCallOf call function member)
    (hmember : member.node.kind = "member_expression") :
    isCalled member = (function.node.kind != "parenthesized_expression") := by
  have hparent := Focus.parent?_of_mem_children (Focus.mem_children_of_child? hcall.called)
  unfold ForbiddenGlobals.isCalled
  rcases hcall.wraps.parent? with rfl | ⟨hkind, p, hp, hpkind⟩
  · simp [hparent, hcall.kind, hcall.called, Focus.isAt_self, hmember]
  · simp [hp, hpkind, hkind]

/-! ## What is found at them -/

theorem foundAt_call (h : IsCallOf call function member) (haccess : IsAccess ctx member name property) :
    foundAt x.findings ctx call =
      if x.use? name = some .singleton ∧ x.use? property = some .dialog ∧ x.isExempt ctx .dialog = false ∧
        call.isParameterInScope ctx.source property = false then [dialogReport ctx call property] else [] := by
  have htail : function.node.accessTail ctx.source = [name, property] := by
    rw [h.wraps.accessTail, haccess.accessTail]
  have hname : (call.node.child? "function").bind (x.dialogName? ctx) =
      if x.use? name = some .singleton then some property else none := by
    simp [Focus.child?_node h.called, dialogName?, htail]
  unfold foundAt findings callFindings
  rw [h.kind, hname]
  by_cases huse : x.use? name = some .singleton
  · by_cases hdialog : x.use? property = some .dialog <;> by_cases hexempt : x.isExempt ctx .dialog <;>
      by_cases hbound : call.isParameterInScope ctx.source property <;>
      simp [huse, hdialog, hexempt, hbound, dialogReport]
  · simp [huse]

theorem foundAt_member_of_bound (h : IsAccess ctx member name property)
    (hbound : member.isParameterInScope ctx.source name = true) : foundAt x.findings ctx member = [] := by
  obtain ⟨object, hobject, hkind, htext⟩ := h.object
  unfold foundAt findings memberFindings
  rw [h.kind, hobject]
  simp only [hkind, htext, hbound, bind, Except.bind]
  cases x.use? name <;> simp [pure, Except.pure]

theorem foundAt_member_of_singleton (h : IsAccess ctx member name property)
    (hsingleton : x.use? name = some .singleton)
    (hfree : member.isParameterInScope ctx.source name = false) :
    foundAt x.findings ctx member =
      if isCalled member = true ∧ x.use? property = some .dialog then [] else [accessReport ctx member name] := by
  obtain ⟨object, hobject, hkind, htext⟩ := h.object
  obtain ⟨p, hp, hproperty⟩ := h.property
  have hexempt : x.isExempt ctx .singleton = false := by
    unfold isExempt
    simp [GlobalUse.rule]
  have hcallee : x.isDialogCallee ctx member = decide (isCalled member = true ∧ x.use? property = some .dialog) := by
    unfold isDialogCallee
    rw [hp, Option.any_some, FileContext.textOf, hproperty]
    simp [Bool.decide_and, Bool.beq_eq_decide_eq]
  unfold foundAt findings memberFindings
  rw [h.kind, hobject]
  simp only [hkind, htext, hfree, hsingleton, hexempt, memberMessage?, hcallee, bind, Except.bind]
  by_cases hdialog : isCalled member = true ∧ x.use? property = some .dialog <;>
    simp [hdialog, pure, Except.pure, accessReport, GlobalUse.rule]

/-! ## Who reports a dialog -/

/-- What the checker finds at a place is all it reports about it, and a call of a dialog through a singleton is
found twice when there are parentheses around the access, and not at all when a parameter has the dialog's name. -/
theorem found_of_dialog (bound : Nat) (root : Node) (hcall : IsCallOf call function member)
    (haccess : IsAccess ctx member name property) (hsingleton : x.use? name = some .singleton)
    (hdialog : x.use? property = some .dialog) (hexempt : x.isExempt ctx .dialog = false)
    (hfree : member.isParameterInScope ctx.source name = false) :
    (FileAnalysis.ofWalk [x.checker] bound ctx root).violations =
        ((Focus.root root).lookedAt x.checker.kinds x.findings ctx bound).flatMap (foundAt x.findings ctx) ∧
      foundAt x.findings ctx call =
        (if call.isParameterInScope ctx.source property then [] else [dialogReport ctx call property]) ∧
      foundAt x.findings ctx member =
        (if function.node.kind = "parenthesized_expression" then [accessReport ctx member name] else []) := by
  refine ⟨Walk.violations_of_looks (Checker.looks_ofFindings _ _ _ _) bound ctx root, ?_, ?_⟩
  · rw [foundAt_call hcall haccess]
    cases call.isParameterInScope ctx.source property <;> simp [hsingleton, hdialog, hexempt]
  · rw [foundAt_member_of_singleton haccess hsingleton hfree, hcall.isCalled haccess.kind]
    by_cases hparentheses : function.node.kind = "parenthesized_expression" <;> simp [hparentheses, hdialog]

/-- The source `(window.alert)('hi');`, with the places of the call, of its callee, and of the access. -/
def parenthesized : FileContext × Focus × Focus × Focus :=
  let access := Node.plain "member_expression" "" 1 13
    [.plain "identifier" "object" 1 7 [], .plain "property_identifier" "property" 8 13 []]
  let callee := Node.plain "parenthesized_expression" "function" 0 14 [access]
  let call := Node.plain "call_expression" "" 0 20
    [callee, .plain "arguments" "arguments" 14 20 [.plain "string" "" 15 19 []]]
  let statement := Node.plain "expression_statement" "" 0 21 [call]
  let trail : List Edge := [⟨statement, 0⟩, ⟨.plain "program" "" 0 21 [statement], 0⟩]
  (.ofFile ⟨"/app"⟩ ⟨"/app/a.js"⟩ "(window.alert)('hi');", ⟨call, trail⟩, ⟨callee, ⟨call, 0⟩ :: trail⟩,
    ⟨access, ⟨callee, 0⟩ :: ⟨call, 0⟩ :: trail⟩)

/-- The globals that are forbidden where nothing else is said. -/
def standard : ForbiddenGlobals :=
  ⟨ofNames defaultSingletons ["console"] ["alert", "confirm", "prompt"], true⟩

theorem isCallOf_parenthesized :
    let (_, call, callee, access) := parenthesized
    IsCallOf call callee access :=
  ⟨rfl, rfl, .parentheses rfl rfl (.refl _)⟩

theorem isAccess_parenthesized :
    let (ctx, _, _, access) := parenthesized
    IsAccess ctx access "window" "alert" :=
  ⟨rfl, ⟨_, rfl, rfl, rfl⟩, ⟨_, rfl, rfl⟩⟩

theorem found_of_parenthesized :
    let (ctx, call, _, access) := parenthesized
    foundAt standard.findings ctx call = [dialogReport ctx call "alert"] ∧
      foundAt standard.findings ctx access = [accessReport ctx access "window"] :=
  (found_of_dialog 4096 default isCallOf_parenthesized isAccess_parenthesized rfl rfl rfl
    rfl).2

/-- A dialog in parentheses is not reported once. -/
theorem not_found_once : ¬ ∀ (x : ForbiddenGlobals) (ctx : FileContext) (call function member : Focus)
    (name property : String), IsCallOf call function member → IsAccess ctx member name property →
      x.use? name = some .singleton → x.use? property = some .dialog → x.isExempt ctx .dialog = false →
      member.isParameterInScope ctx.source name = false →
      foundAt x.findings ctx call ++ foundAt x.findings ctx member = [dialogReport ctx call property] := by
  intro h
  have hsingleton : standard.use? "window" = some .singleton := rfl
  have hfound := h standard _ _ _ _ _ _ isCallOf_parenthesized isAccess_parenthesized hsingleton rfl
    rfl rfl
  have hcall := (foundAt_call (x := standard) isCallOf_parenthesized isAccess_parenthesized).trans
    (if_pos ⟨rfl, rfl, rfl, rfl⟩)
  have haccess := (foundAt_member_of_singleton isAccess_parenthesized hsingleton rfl).trans
    (if_neg fun hcalled => Bool.false_ne_true hcalled.1)
  rw [hcall, haccess] at hfound
  simp at hfound

/-! ## Names bound by parameters -/

/-- An access to a name that a parameter binds is not reported. Whether a call of it is reported as a dialog
does not hang on that parameter. -/
theorem found_of_bound (bound : Nat) (root : Node) (haccess : IsAccess ctx member name property)
    (hbound : member.isParameterInScope ctx.source name = true) :
    (FileAnalysis.ofWalk [x.checker] bound ctx root).violations =
        ((Focus.root root).lookedAt x.checker.kinds x.findings ctx bound).flatMap (foundAt x.findings ctx) ∧
      foundAt x.findings ctx member = [] ∧
      ∀ call function, IsCallOf call function member → foundAt x.findings ctx call =
        if x.use? name = some .singleton ∧ x.use? property = some .dialog ∧ x.isExempt ctx .dialog = false ∧
          call.isParameterInScope ctx.source property = false then [dialogReport ctx call property] else [] :=
  ⟨Walk.violations_of_looks (Checker.looks_ofFindings _ _ _ _) bound ctx root,
    foundAt_member_of_bound haccess hbound, fun _ _ hcall => foundAt_call hcall haccess⟩

/-- The source `function f(window) { window.alert('x'); }`, with the places of the call and of the access. -/
def injected : FileContext × Focus × Focus :=
  let access := Node.plain "member_expression" "function" 21 33
    [.plain "identifier" "object" 21 27 [], .plain "property_identifier" "property" 28 33 []]
  let call := Node.plain "call_expression" "" 21 38
    [access, .plain "arguments" "arguments" 33 38 [.plain "string" "" 34 37 []]]
  let statement := Node.plain "expression_statement" "" 21 39 [call]
  let body := Node.plain "statement_block" "body" 19 41 [statement]
  let function := Node.plain "function_declaration" "" 0 41 [.plain "identifier" "name" 9 10 [],
    .plain "formal_parameters" "parameters" 10 18 [.plain "identifier" "" 11 17 []], body]
  let trail : List Edge := [⟨statement, 0⟩, ⟨body, 0⟩, ⟨function, 2⟩, ⟨.plain "program" "" 0 41 [function], 0⟩]
  (.ofFile ⟨"/app"⟩ ⟨"/app/a.js"⟩ "function f(window) \x7b window.alert('x'); \x7d", ⟨call, trail⟩,
    ⟨access, ⟨call, 0⟩ :: trail⟩)

theorem isCallOf_injected :
    let (_, call, access) := injected
    IsCallOf call access access :=
  ⟨rfl, rfl, .refl _⟩

theorem isAccess_injected :
    let (ctx, _, access) := injected
    IsAccess ctx access "window" "alert" :=
  ⟨rfl, ⟨_, rfl, rfl, rfl⟩, ⟨_, rfl, rfl⟩⟩

theorem isParameterInScope_injected :
    let (ctx, _, access) := injected
    access.isParameterInScope ctx.source "window" = true :=
  rfl

theorem alert_not_isParameterInScope_injected :
    let (ctx, call, _) := injected
    call.isParameterInScope ctx.source "alert" = false := by
  unfold Focus.isParameterInScope Node.parameterMentions
  simp only [Node.descendants_eq]
  rfl

theorem found_of_injected :
    let (ctx, call, access) := injected
    access.isParameterInScope ctx.source "window" = true ∧ foundAt standard.findings ctx access = [] ∧
      foundAt standard.findings ctx call = [dialogReport ctx call "alert"] := by
  obtain ⟨-, haccess, hcalls⟩ := found_of_bound (x := standard) 4096 default isAccess_injected
    isParameterInScope_injected
  exact ⟨isParameterInScope_injected, haccess,
    (hcalls _ _ isCallOf_injected).trans (if_pos ⟨rfl, rfl, rfl, alert_not_isParameterInScope_injected⟩)⟩

/-- A call of an injected name may be reported. -/
theorem not_silent_of_bound : ¬ ∀ (x : ForbiddenGlobals) (ctx : FileContext) (call function member : Focus)
    (name property : String), IsCallOf call function member → IsAccess ctx member name property →
      member.isParameterInScope ctx.source name = true →
      foundAt x.findings ctx call = [] ∧ foundAt x.findings ctx member = [] := by
  intro h
  have hsilent := (h standard _ _ _ _ _ _ isCallOf_injected isAccess_injected isParameterInScope_injected).1
  rw [foundAt_call isCallOf_injected isAccess_injected, if_pos ⟨rfl, rfl, rfl, alert_not_isParameterInScope_injected⟩] at hsilent
  exact List.cons_ne_nil _ _ hsilent

end ForbiddenGlobals
end Guardrails
