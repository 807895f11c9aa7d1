import Guardrails.Proofs.Tree.Descent
import Guardrails.Proofs.Tree.Family
import Guardrails.Proofs.Walk.Gathering
import Guardrails.Rules.Startup

/-!
# Calls that start analytics

Such a call is reported unless a construct around it asks for consent first, or a statement before it leaves early when
there is none. A return inside a function that is nested in this statement leaves the nested function only, and the
checker takes it for an early exit all the same.
-/

namespace Guardrails.AnalyticsConsent

variable {x : AnalyticsConsent} {ctx : FileContext} {n consequence : Node} {call statement : Focus} {name : String}

/-! ## Exits -/

/-- Whether a node has a return or a throw that is not inside a function nested in it. -/
inductive Leaves : Node → Prop
  | exit {n : Node} (hkind : n.kind = "return_statement" ∨ n.kind = "throw_statement") : Leaves n
  | child {n c : Node} (hfunction : n.isFunction = false) (hc : c ∈ n.children) (h : Leaves c) : Leaves n

/-- Whether a node has a return or a throw that is inside a function nested in it. -/
def LeavesNested (n : Node) : Prop :=
  ∃ g ∈ n :: n.descendants, g.isFunction = true ∧ ∃ d ∈ g.descendants, isExit d = true

theorem isExit_iff : isExit n = true ↔ n.kind = "return_statement" ∨ n.kind = "throw_statement" := by
  simp [isExit]

theorem LeavesNested.of_mem_children {c : Node} (hc : c ∈ n.children) (h : LeavesNested c) : LeavesNested n := by
  obtain ⟨g, hg, hfunction, hexit⟩ := h
  have hbelow := Node.cons_descendants_subset (Node.mem_descendants_of_mem_children hc)
  exact ⟨g, List.mem_cons_of_mem n (hbelow hg), hfunction, hexit⟩

theorem Leaves.exists_exit (h : Leaves n) : ∃ d ∈ n :: n.descendants, isExit d = true := by
  induction h with
  | exit hkind => exact ⟨_, List.mem_cons_self, isExit_iff.2 hkind⟩
  | child _ hc _ ih =>
    obtain ⟨d, hd, hexit⟩ := ih
    have hbelow := Node.cons_descendants_subset (Node.mem_descendants_of_mem_children hc)
    exact ⟨d, List.mem_cons_of_mem _ (hbelow hd), hexit⟩

theorem Leaves.exists_child (h : Leaves n) (hexit : isExit n = false) :
    n.isFunction = false ∧ ∃ c ∈ n.children, Leaves c := by
  rcases h with ⟨hkind⟩ | ⟨hfunction, hc, h⟩
  · rw [isExit_iff.2 hkind] at hexit
    cases hexit
  · exact ⟨hfunction, _, hc, h⟩

theorem leaves_or_leavesNested (h : ∃ d ∈ n :: n.descendants, isExit d = true) : Leaves n ∨ LeavesNested n := by
  induction n using Node.children_induction with
  | h n ih =>
    obtain ⟨d, hd, hexit⟩ := h
    rcases List.mem_cons.1 hd with rfl | hd
    · exact .inl (.exit (isExit_iff.1 hexit))
    · -- Above all functions the exit is one of the node itself; the first function on the way down to it nests it.
      by_cases hfunction : n.isFunction = true
      · exact .inr ⟨n, List.mem_cons_self, hfunction, d, hd, hexit⟩
      · rw [Node.descendants_eq_flatMap] at hd
        obtain ⟨c, hc, hd⟩ := List.mem_flatMap.1 hd
        rcases ih c hc ⟨d, hd, hexit⟩ with h | h
        · exact .inl (.child (Bool.eq_false_iff.2 hfunction) hc h)
        · exact .inr (h.of_mem_children hc)

/-- The search for an exit goes through the whole node, and so it ends at either kind. -/
theorem any_isExit_iff : (n :: n.descendants).any isExit = true ↔ Leaves n ∨ LeavesNested n := by
  rw [List.any_eq_true]
  constructor
  · exact leaves_or_leavesNested
  · rintro (h | ⟨g, hg, -, d, hd, hexit⟩)
    · exact h.exists_exit
    · refine ⟨d, List.mem_cons_of_mem n ?_, hexit⟩
      rcases List.mem_cons.1 hg with rfl | hg
      · exact hd
      · exact Node.descendants_subset hg hd

/-! ## Guards -/

/-- Whether a statement is an `if` that asks for consent, with this consequence. -/
structure IsConsentIf (x : AnalyticsConsent) (ctx : FileContext) (statement consequence : Node) : Prop where
  kind : statement.kind = "if_statement"
  condition : ∃ c, statement.child? "condition" = some c ∧ x.isConsentCheck ctx c = true
  consequence : statement.child? "consequence" = some consequence

/-- Whether a construct asks for consent before it goes on to the child: in a condition, or on the left of `&&`. -/
inductive Asks (x : AnalyticsConsent) (ctx : FileContext) (child around : Focus) : Prop
  | condition {c : Focus} (hkind : around.node.kind = "if_statement" ∨ around.node.kind = "ternary_expression")
      (hc : around.child? "condition" = some c) (hother : c.isAt child = false)
      (h : x.isConsentCheck ctx c.node = true) : Asks x ctx child around
  | conjunction {operator left : Node} {right : Focus} (hkind : around.node.kind = "binary_expression")
      (hoperator : around.node.child? "operator" = some operator) (htext : ctx.textOf operator = "&&")
      (hright : around.child? "right" = some right) (hchild : right.isAt child = true)
      (hleft : around.node.child? "left" = some left) (h : x.isConsentCheck ctx left = true) : Asks x ctx child around

/-- Whether a statement stands before the child in a block. -/
structure Precedes (statement child around : Focus) : Prop where
  kind : around.node.kind = "statement_block" ∨ around.node.kind = "program"
  before : statement ∈ around.namedChildren.takeWhile (!·.isAt child)

/-- The steps on the way up from a place, each from a child to the node around it. -/
def climb (f : Focus) : List (Focus × Focus) :=
  (f :: f.ancestors).zip f.ancestors

/-- Whether something around a call asks for consent before it goes on to the call. -/
def IsAsked (x : AnalyticsConsent) (ctx : FileContext) (call : Focus) : Prop :=
  ∃ step ∈ climb call, x.Asks ctx step.1 step.2

/-- Whether a statement stands before a call, in one of the blocks around it. -/
def IsEarlier (statement call : Focus) : Prop :=
  ∃ step ∈ climb call, Precedes statement step.1 step.2

theorem isEarlyExit_iff : x.isEarlyExit ctx n = true ↔
    ∃ consequence, x.IsConsentIf ctx n consequence ∧ (Leaves consequence ∨ LeavesNested consequence) := by
  unfold isEarlyExit
  rw [Bool.and_eq_true, beq_iff_eq]
  constructor
  · rintro ⟨hkind, h⟩
    split at h
    · rename_i condition consequence hcondition hconsequence
      obtain ⟨hconsent, hexit⟩ := Bool.and_eq_true_iff.1 h
      exact ⟨consequence, ⟨hkind, ⟨condition, hcondition, hconsent⟩, hconsequence⟩, any_isExit_iff.1 hexit⟩
    · cases h
  · rintro ⟨consequence, ⟨hkind, ⟨condition, hcondition, hconsent⟩, hconsequence⟩, hleaves⟩
    rw [hcondition, hconsequence]
    exact ⟨hkind, Bool.and_eq_true_iff.2 ⟨hconsent, any_isExit_iff.2 hleaves⟩⟩

theorem guards_iff {child around : Focus} : x.guards ctx child around = true ↔
    x.Asks ctx child around ∨ ∃ s, Precedes s child around ∧ x.isEarlyExit ctx s.node = true := by
  constructor
  · intro h
    unfold guards at h
    split at h
    · rename_i hkind
      obtain ⟨c, hc, h⟩ := (Option.any_eq_true _ _).1 h
      simp only [Bool.and_eq_true, Bool.not_eq_true'] at h
      exact .inl (.condition (.inl hkind) hc h.1 h.2)
    · rename_i hkind
      obtain ⟨c, hc, h⟩ := (Option.any_eq_true _ _).1 h
      simp only [Bool.and_eq_true, Bool.not_eq_true'] at h
      exact .inl (.condition (.inr hkind) hc h.1 h.2)
    · rename_i hkind
      simp only [Bool.and_eq_true, Option.any_eq_true, beq_iff_eq] at h
      obtain ⟨⟨⟨operator, hoperator, htext⟩, right, hright, hchild⟩, left, hleft, h⟩ := h
      exact .inl (.conjunction hkind hoperator htext hright hchild hleft h)
    · rename_i hkind
      obtain ⟨s, hs, h⟩ := List.any_eq_true.1 h
      exact .inr ⟨s, ⟨.inl hkind, hs⟩, h⟩
    · rename_i hkind
      obtain ⟨s, hs, h⟩ := List.any_eq_true.1 h
      exact .inr ⟨s, ⟨.inr hkind, hs⟩, h⟩
    · cases h
  · unfold guards
    rintro ((⟨hkind, hc, hother, h⟩ | ⟨hkind, hoperator, htext, hright, hchild, hleft, h⟩) | ⟨s, ⟨hkind, hs⟩, h⟩)
    · rcases hkind with hkind | hkind <;> simp [hkind, hc, hother, h]
    · simp [hkind, hoperator, htext, hright, hchild, hleft, h]
    · rcases hkind with hkind | hkind <;> simp only [hkind] <;> exact List.any_eq_true.2 ⟨s, hs, h⟩

theorem isGated_iff : x.isGated ctx call = true ↔
    x.IsAsked ctx call ∨ ∃ s, IsEarlier s call ∧ x.isEarlyExit ctx s.node = true := by
  unfold isGated
  rw [List.any_eq_true]
  constructor
  · rintro ⟨step, hstep, h⟩
    rcases guards_iff.1 h with h | ⟨s, hs, h⟩
    · exact .inl ⟨step, hstep, h⟩
    · exact .inr ⟨s, ⟨step, hstep, hs⟩, h⟩
  · rintro (⟨step, hstep, h⟩ | ⟨s, ⟨step, hstep, hs⟩, h⟩)
    · exact ⟨step, hstep, guards_iff.2 (.inl h)⟩
    · exact ⟨step, hstep, guards_iff.2 (.inr ⟨s, hs, h⟩)⟩

/-! ## Calls -/

def ungatedReport (ctx : FileContext) (call : Focus) (name : String) : Violation :=
  (ctx.violationAt .analyticsConsent call.node
    ("analytics initialization `" ++ name ++ "` is not gated on consent")).withHint

theorem foundAt_of_initializer? (h : x.initializer? ctx call.node = some name) :
    foundAt x.findings ctx call = if x.isGated ctx call then [] else [ungatedReport ctx call name] := by
  simp only [foundAt, findings, h]
  rfl

theorem foundAt_eq_nil_iff (h : x.initializer? ctx call.node = some name) : foundAt x.findings ctx call = [] ↔
    x.IsAsked ctx call ∨ ∃ statement consequence, IsEarlier statement call ∧
      x.IsConsentIf ctx statement.node consequence ∧ (Leaves consequence ∨ LeavesNested consequence) := by
  have hgated : foundAt x.findings ctx call = [] ↔ x.isGated ctx call = true := by
    rw [foundAt_of_initializer? h]
    cases x.isGated ctx call <;> simp
  simp only [hgated, isGated_iff, isEarlyExit_iff]
  constructor
  · rintro (h | ⟨s, hs, consequence, hif, hleaves⟩)
    · exact .inl h
    · exact .inr ⟨s, consequence, hs, hif, hleaves⟩
  · rintro (h | ⟨s, consequence, hs, hif, hleaves⟩)
    · exact .inl h
    · exact .inr ⟨s, hs, consequence, hif, hleaves⟩

/-- A call that starts analytics is reported once, or it is gated: something around it asks for consent, or an earlier
`if` on consent leaves early or holds a function that does. Where none only holds such a function, exactly the earlier
ones that leave are guards. -/
theorem found_of_initializer (bound : Nat) (ctx : FileContext) (root : Node) :
    (FileAnalysis.ofWalk [x.checker] bound ctx root).faults = [] ∧
      (FileAnalysis.ofWalk [x.checker] bound ctx root).violations =
        (((Focus.root root).within bound).filter (·.node.kind ∈ x.checker.kinds)).flatMap
          (foundAt x.findings ctx) ∧
      (((Focus.root root).within bound).filter (·.node.kind ∈ x.checker.kinds)).Pairwise
        (fun f g => f.isBefore g = true) ∧
      ∀ (call : Focus) (name : String), x.initializer? ctx call.node = some name →
        (foundAt x.findings ctx call = [] ∨ foundAt x.findings ctx call = [ungatedReport ctx call name]) ∧
        (foundAt x.findings ctx call = [] ↔
          x.IsAsked ctx call ∨ ∃ statement consequence, IsEarlier statement call ∧
            x.IsConsentIf ctx statement.node consequence ∧ (Leaves consequence ∨ LeavesNested consequence)) ∧
        ((∀ statement consequence, IsEarlier statement call → x.IsConsentIf ctx statement.node consequence →
            LeavesNested consequence → Leaves consequence) →
          (foundAt x.findings ctx call = [] ↔
            x.IsAsked ctx call ∨ ∃ statement consequence, IsEarlier statement call ∧
              x.IsConsentIf ctx statement.node consequence ∧ Leaves consequence)) := by
  have hfindings : ∀ f ∈ (Focus.root root).within bound, f.node.kind ∈ x.checker.kinds →
      (x.findings ctx f).isOk = true := fun _ _ _ => rfl
  obtain ⟨hfaults, hviolations, hordered⟩ := Walk.ofWalk_ofFindings hfindings
  refine ⟨hfaults, hviolations, hordered, fun call name hname => ⟨?_, foundAt_eq_nil_iff hname, fun hnested => ?_⟩⟩
  · rw [foundAt_of_initializer? hname]
    cases x.isGated ctx call
    · exact .inr rfl
    · exact .inl rfl
  · rw [foundAt_eq_nil_iff hname]
    constructor
    · rintro (h | ⟨s, q, hs, hif, hleaves | hleaves⟩)
      · exact .inl h
      · exact .inr ⟨s, q, hs, hif, hleaves⟩
      · exact .inr ⟨s, q, hs, hif, hnested s q hs hif hleaves⟩
    · rintro (h | ⟨s, q, hs, hif, hleaves⟩)
      · exact .inl h
      · exact .inr ⟨s, q, hs, hif, .inl hleaves⟩

def standard : AnalyticsConsent :=
  ⟨["gtag", "initAnalytics", "analytics.init", "analytics.load", "posthog.init", "mixpanel.init"], ["consent"]⟩

/-- The source `if (!consent) ... gtag();` with this consequence, and the places of the `if` and of the call. -/
def behind (text : String) (consequence : Node) : FileContext × Node × Focus × Focus :=
  let stop := consequence.stop
  let condition := Node.plain "parenthesized_expression" "condition" 3 13
    [.plain "unary_expression" "" 4 12 [.plain "identifier" "argument" 5 12 []]]
  let guard := Node.plain "if_statement" "" 0 stop [condition, consequence]
  let call := Node.plain "call_expression" "" (stop + 1) (stop + 7)
    [.plain "identifier" "function" (stop + 1) (stop + 5) [], .plain "arguments" "arguments" (stop + 5) (stop + 7) []]
  let statement := Node.plain "expression_statement" "" (stop + 1) (stop + 8) [call]
  let root := Node.plain "program" "" 0 (stop + 8) [guard, statement]
  (.ofFile ⟨"/app"⟩ ⟨"/app/a.js"⟩ ("if (!consent) " ++ text ++ " gtag();"), root, ⟨guard, [⟨root, 0⟩]⟩,
    ⟨call, [⟨statement, 0⟩, ⟨root, 1⟩]⟩)

theorem of_mem_climb_behind {text : String} {step : Focus × Focus}
    (h : step ∈ climb (behind text consequence).2.2.2) : step.2.node.kind = "expression_statement" ∨
      step.2.node.kind = "program" ∧
        ∀ s ∈ step.2.namedChildren.takeWhile (!·.isAt step.1), s = (behind text consequence).2.2.1 := by
  rcases List.mem_cons.1 h with rfl | h
  · exact .inl rfl
  · obtain rfl := List.mem_singleton.1 h
    exact .inr ⟨rfl, fun s hs => List.mem_singleton.1 hs⟩

theorem isEarlier_behind {text : String} : IsEarlier statement (behind text consequence).2.2.2 ↔
    statement = (behind text consequence).2.2.1 := by
  constructor
  · rintro ⟨step, hstep, hkind, hbefore⟩
    rcases of_mem_climb_behind hstep with h | ⟨-, h⟩
    · simp [h] at hkind
    · exact h statement hbefore
  · rintro rfl
    exact ⟨_, List.mem_cons_of_mem _ List.mem_cons_self, .inr rfl, List.mem_cons_self⟩

theorem not_isAsked_behind {text : String} : ¬ x.IsAsked ctx (behind text consequence).2.2.2 := by
  rintro ⟨step, hstep, ⟨hkind, -, -, -⟩ | ⟨hkind, -, -, -, -, -, -⟩⟩
  · rcases of_mem_climb_behind hstep with h | ⟨h, -⟩ <;> simp [h] at hkind
  · rcases of_mem_climb_behind hstep with h | ⟨h, -⟩ <;> simp [h] at hkind

/-- The source `if (!consent) throw 0; gtag();`. -/
def thrown : FileContext × Node × Focus × Focus :=
  behind "throw 0;" (.plain "throw_statement" "consequence" 14 22 [.plain "number" "" 20 21 []])

/-- The source `if (!consent) warn(); gtag();`. -/
def unheeded : FileContext × Node × Focus × Focus :=
  behind "warn();" (.plain "expression_statement" "consequence" 14 21
    [.plain "call_expression" "" 14 20
      [.plain "identifier" "function" 14 18 [], .plain "arguments" "arguments" 18 20 []]])

theorem not_exits_unheeded (h : unheeded.2.2.1.node.child? "consequence" = some consequence) :
    ¬ (Leaves consequence ∨ LeavesNested consequence) := by
  cases h
  rw [← any_isExit_iff, Node.descendants_eq]
  exact Bool.false_ne_true

theorem found_of_thrown :
    foundAt standard.findings thrown.1 thrown.2.2.2 = [] ∧
      foundAt standard.findings unheeded.1 unheeded.2.2.2 = [ungatedReport unheeded.1 unheeded.2.2.2 "gtag"] := by
  obtain ⟨-, -, -, hthrown⟩ := found_of_initializer (x := standard) 4096 thrown.1 thrown.2.1
  obtain ⟨-, -, -, hunheeded⟩ := found_of_initializer (x := standard) 4096 unheeded.1 unheeded.2.1
  constructor
  · obtain ⟨-, -, hguarded⟩ := hthrown thrown.2.2.2 "gtag" (by decide +kernel)
    have hleaves : ∀ q, standard.IsConsentIf thrown.1 thrown.2.2.1.node q → Leaves q := by
      rintro q ⟨-, -, hq⟩
      cases hq
      exact .exit (.inr rfl)
    apply (hguarded ?_).2
    · exact .inr ⟨_, _, isEarlier_behind.2 rfl, ⟨rfl, ⟨_, rfl, by decide +kernel⟩, rfl⟩, .exit (.inr rfl)⟩
    · rintro s q hs hif -
      exact hleaves q (isEarlier_behind.1 hs ▸ hif)
  · obtain ⟨hreported, -, hguarded⟩ := hunheeded unheeded.2.2.2 "gtag" (by decide +kernel)
    have hexits : ∀ s q, IsEarlier s unheeded.2.2.2 → standard.IsConsentIf unheeded.1 s.node q →
        ¬ (Leaves q ∨ LeavesNested q) := by
      rintro s q hs ⟨-, -, hq⟩
      exact not_exits_unheeded (isEarlier_behind.1 hs ▸ hq)
    apply hreported.resolve_left
    rw [hguarded fun s q hs hif hnested => absurd (.inr hnested) (hexits s q hs hif)]
    rintro (h | ⟨s, q, hs, hif, hleaves⟩)
    · exact not_isAsked_behind h
    · exact hexits s q hs hif (.inl hleaves)

def callback : Node :=
  .plain "arrow_function" "" 17 34 [.plain "formal_parameters" "parameters" 17 19 [],
    .plain "statement_block" "body" 23 34 [.plain "return_statement" "" 25 32 []]]

/-- The source `if (!consent) on(() => { return; }); gtag();`. -/
def calledBack : FileContext × Node × Focus × Focus :=
  behind "on(() => \x7b return; \x7d);" (.plain "expression_statement" "consequence" 14 36
    [.plain "call_expression" "" 14 35
      [.plain "identifier" "function" 14 16 [], .plain "arguments" "arguments" 16 35 [callback]]])

theorem not_leaves_calledBack (h : calledBack.2.2.1.node.child? "consequence" = some consequence) :
    ¬ Leaves consequence := by
  cases h
  intro h
  obtain ⟨-, c, hc, h⟩ := h.exists_child rfl
  obtain rfl := List.mem_singleton.1 hc
  obtain ⟨-, c, hc, h⟩ := h.exists_child rfl
  rcases List.mem_cons.1 hc with rfl | hc
  · obtain ⟨-, c, hc, -⟩ := h.exists_child rfl
    cases hc
  · obtain rfl := List.mem_singleton.1 hc
    obtain ⟨-, c, hc, h⟩ := h.exists_child rfl
    obtain rfl := List.mem_singleton.1 hc
    -- The way down ends here, before the return in the function.
    obtain ⟨hfunction, -⟩ := h.exists_child rfl
    cases hfunction

theorem leavesNested_calledBack (h : calledBack.2.2.1.node.child? "consequence" = some consequence) :
    LeavesNested consequence := by
  cases h
  refine ⟨callback, ?_, rfl, .plain "return_statement" "" 25 32 [], ?_, rfl⟩
  · rw [Node.descendants_eq]
    exact .tail _ (.tail _ (.tail _ (.tail _ (.head _))))
  · rw [Node.descendants_eq]
    exact .tail _ (.tail _ (.head _))

/-- A return of a callback that is set up before a call may keep the call from being reported. -/
theorem not_reported_of_not_leaves : ¬ ∀ (x : AnalyticsConsent) (ctx : FileContext) (call : Focus) (name : String),
    x.initializer? ctx call.node = some name → ¬ x.IsAsked ctx call →
      (∀ statement consequence, IsEarlier statement call → x.IsConsentIf ctx statement.node consequence →
        ¬ Leaves consequence) → foundAt x.findings ctx call = [ungatedReport ctx call name] := by
  intro h
  have hname : standard.initializer? calledBack.1 calledBack.2.2.2.node = some "gtag" := by decide +kernel
  have hreported := h standard calledBack.1 calledBack.2.2.2 "gtag" hname not_isAsked_behind
    fun s q hs hif => not_leaves_calledBack (isEarlier_behind.1 hs ▸ hif.consequence)
  have hsilent : foundAt standard.findings calledBack.1 calledBack.2.2.2 = [] := by
    rw [foundAt_eq_nil_iff hname]
    exact .inr ⟨_, _, isEarlier_behind.2 rfl, ⟨rfl, ⟨_, rfl, by decide +kernel⟩, rfl⟩,
      .inr (leavesNested_calledBack rfl)⟩
  rw [hsilent] at hreported
  cases hreported

end Guardrails.AnalyticsConsent
