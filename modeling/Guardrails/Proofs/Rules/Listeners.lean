import Guardrails.Proofs.Tree.Family
import Guardrails.Proofs.Walk.Gathering
import Guardrails.Rules.Listeners

/-!
# Listeners and their release

The checker counts registrations and remembers a release, in whatever order it comes upon them. The main statement
says what both come to on the whole tree: a module is reported once, with the number of its registrations, when it
has any and none of its releases stands in a cleanup function.
-/

namespace Guardrails.ListenerCleanup

variable {x : ListenerCleanup} {ctx : FileContext} {root : Node} {f : Focus}

/-! ## What stands in a module -/

/-- Whether a place calls a method with one of these names, on whatever receiver. -/
def callsOneOf (ctx : FileContext) (names : List String) (f : Focus) : Bool :=
  f.node.kind == "call_expression" && (f.node.calledMethod? ctx.source).any (names.contains ·)

structure IsCleanup (x : ListenerCleanup) (ctx : FileContext) (g : Focus) : Prop where
  isFunction : g.node.isFunction = true
  name : ∃ name, g.functionName? ctx.source = some name ∧
    ∃ c ∈ x.cleanupNames, name = c ∨ x.matchStart = true ∧ c.toList <+: name.toList

def registrationCount (x : ListenerCleanup) (ctx : FileContext) (root : Node) : Nat :=
  (Focus.root root).subtree.countP (callsOneOf ctx x.registerMethods)

/-- Whether a module releases listeners somewhere inside a cleanup function. -/
def Releases (x : ListenerCleanup) (ctx : FileContext) (root : Node) : Prop :=
  ∃ f ∈ (Focus.root root).subtree, callsOneOf ctx x.releaseMethods f = true ∧
    ∃ g ∈ f.ancestors, x.IsCleanup ctx g

/-- The methods that a module calls, in document order, each with whether that is in a cleanup function. -/
def methodCalls (x : ListenerCleanup) (ctx : FileContext) (root : Node) : List (String × Bool) :=
  ((Focus.root root).subtree.filter (·.node.kind == "call_expression")).filterMap fun f =>
    (f.node.calledMethod? ctx.source).map (·, x.isInCleanup ctx f)

def missingRelease (x : ListenerCleanup) (ctx : FileContext) (count : Nat) : Violation :=
  (ctx.fileViolation .listenerCleanup (x.message count)).withHint

theorem isCleanupName_iff (name : String) : x.isCleanupName name = true ↔
    ∃ c ∈ x.cleanupNames, name = c ∨ x.matchStart = true ∧ c.toList <+: name.toList := by
  simp [isCleanupName, Text.startsWith]

theorem isInCleanup_iff : x.isInCleanup ctx f = true ↔ ∃ g ∈ f.ancestors, x.IsCleanup ctx g := by
  rw [isInCleanup, List.any_eq_true]
  constructor
  · rintro ⟨g, hg, hname⟩
    obtain ⟨hg, hfunction⟩ := List.mem_filter.1 hg
    obtain ⟨name, hname, hcleanup⟩ := (Option.any_eq_true _ _).1 hname
    exact ⟨g, hg, hfunction, name, hname, (isCleanupName_iff name).1 hcleanup⟩
  · rintro ⟨g, hg, hfunction, name, hname, hcleanup⟩
    exact ⟨g, List.mem_filter.2 ⟨hg, hfunction⟩,
      (Option.any_eq_true _ _).2 ⟨name, hname, (isCleanupName_iff name).2 hcleanup⟩⟩

/-! ## What the checker gathers -/

def releasesAt (x : ListenerCleanup) (ctx : FileContext) (f : Focus) : Bool :=
  callsOneOf ctx x.releaseMethods f && x.isInCleanup ctx f

/-- One call counts, or it releases. The release that was seen first is enough. -/
theorem see_eq (hdisjoint : x.registerMethods.Disjoint x.releaseMethods) (hkind : f.node.kind = "call_expression")
    (seen : Seen) : x.see ctx seen f =
      ⟨seen.registrations + (if callsOneOf ctx x.registerMethods f then 1 else 0),
        seen.isReleased || x.releasesAt ctx f⟩ := by
  obtain ⟨count, isReleased⟩ := seen
  unfold see releasesAt callsOneOf
  rw [hkind, beq_self_eq_true, Bool.true_and, Bool.true_and]
  cases f.node.calledMethod? ctx.source with
  | none => simp
  | some method =>
    by_cases hregister : method ∈ x.registerMethods
    · have hrelease : method ∉ x.releaseMethods := fun hrelease => hdisjoint hregister hrelease
      simp [hregister, hrelease]
    · cases isReleased <;> by_cases hrelease : method ∈ x.releaseMethods <;> simp [hregister, hrelease]

theorem foldl_see (hdisjoint : x.registerMethods.Disjoint x.releaseMethods) {places : List Focus}
    (hkinds : ∀ f ∈ places, f.node.kind = "call_expression") (seen : Seen) : places.foldl (x.see ctx) seen =
      ⟨seen.registrations + places.countP (callsOneOf ctx x.registerMethods),
        seen.isReleased || places.any (x.releasesAt ctx)⟩ := by
  induction places generalizing seen with
  | nil => simp
  | cons f places ih =>
    rw [List.foldl_cons, ih fun g hg => hkinds g (List.mem_cons_of_mem f hg),
      see_eq hdisjoint (hkinds f List.mem_cons_self), List.countP_cons, List.any_cons, Bool.or_assoc, Nat.add_assoc,
      Nat.add_comm (List.countP _ _)]

theorem gathers_checker (x : ListenerCleanup) (ctx : FileContext) (places : List Focus) :
    x.checker.Gathers ctx ⟨0, false⟩ (x.see ctx) (fun _ => []) (x.verdict ctx) places where
  start := rfl
  visit _ _ _ _ _ := rfl
  finish _ _ := rfl

theorem callsOneOf_of_kind_ne {names : List String} (h : f.node.kind ≠ "call_expression") :
    callsOneOf ctx names f = false := by
  rw [callsOneOf, beq_eq_false_iff_ne.2 h, Bool.false_and]

theorem foldl_see_module (hdisjoint : x.registerMethods.Disjoint x.releaseMethods) :
    ((Focus.root root).subtree.filter (·.node.kind ∈ x.checker.kinds)).foldl (x.see ctx) ⟨0, false⟩ =
      ⟨x.registrationCount ctx root, (Focus.root root).subtree.any (x.releasesAt ctx)⟩ := by
  -- What is counted and what releases is a call, so that nothing is lost when only calls are looked at.
  have hkind (f : Focus) : decide (f.node.kind ∈ x.checker.kinds) = true ↔ f.node.kind = "call_expression" := by
    rw [decide_eq_true_iff]
    exact List.mem_singleton
  rw [foldl_see hdisjoint fun f hf => (hkind f).1 (List.mem_filter.1 hf).2, List.countP_filter, List.any_filter,
    Nat.zero_add, Bool.false_or, registrationCount, Seen.mk.injEq]
  constructor
  · refine List.countP_congr fun f _ => ?_
    by_cases h : f.node.kind = "call_expression"
    · rw [(hkind f).2 h, Bool.and_true]
    · rw [callsOneOf_of_kind_ne h, Bool.false_and]
  · refine any_congr_of_mem fun f _ => ?_
    by_cases h : f.node.kind = "call_expression"
    · rw [(hkind f).2 h, Bool.true_and]
    · rw [releasesAt, callsOneOf_of_kind_ne h, Bool.false_and, Bool.and_false]

theorem any_releasesAt : (Focus.root root).subtree.any (x.releasesAt ctx) = true ↔ x.Releases ctx root := by
  rw [List.any_eq_true]
  refine exists_congr fun f => and_congr_right fun _ => ?_
  rw [releasesAt, Bool.and_eq_true, isInCleanup_iff]

/-! ## The order of calls -/

theorem registrationCount_eq : x.registrationCount ctx root =
    (x.methodCalls ctx root).countP (x.registerMethods.contains ·.1) := by
  rw [methodCalls, List.countP_filterMap, List.countP_filter]
  refine List.countP_congr fun f _ => ?_
  rw [callsOneOf]
  cases f.node.calledMethod? ctx.source <;> simp [and_comm]

theorem any_releasesAt_eq : (Focus.root root).subtree.any (x.releasesAt ctx) =
    (x.methodCalls ctx root).any fun call => x.releaseMethods.contains call.1 && call.2 := by
  rw [methodCalls, List.any_filterMap, List.any_filter]
  refine any_congr_of_mem fun f _ => ?_
  rw [releasesAt, callsOneOf]
  cases f.node.calledMethod? ctx.source <;> simp [Bool.and_assoc]

/-! ## The verdict -/

theorem verdict_eq (count : Nat) (isReleased : Bool) : x.verdict ctx ⟨count, isReleased⟩ =
    if 0 < count ∧ isReleased = false then [x.missingRelease ctx count] else [] := by
  unfold verdict missingRelease
  cases isReleased <;> simp

theorem exists_message_eq (x : ListenerCleanup) (count : Nat) :
    ∃ rest, x.message count = toString count ++ rest :=
  ⟨" tracked listener registration(s) but no " ++ "/".intercalate x.cleanupNames ++ " function calling " ++
    "/".intercalate x.releaseMethods, by
      simp only [message, String.append_assoc]
      rfl⟩

theorem ofWalk_checker (ctx : FileContext) (hdisjoint : x.registerMethods.Disjoint x.releaseMethods) {bound : Nat}
    (hbound : ∀ f ∈ (Focus.root root).subtree, f.depth ≤ bound) :
    (FileAnalysis.ofWalk [x.checker] bound ctx root).violations =
        x.verdict ctx ⟨x.registrationCount ctx root, (Focus.root root).subtree.any (x.releasesAt ctx)⟩ ∧
      (FileAnalysis.ofWalk [x.checker] bound ctx root).faults = [] := by
  obtain ⟨hviolations, hfaults⟩ :=
    Walk.ofWalk_of_gathers_silently (gathers_checker x ctx ((Focus.root root).within bound))
  rw [Focus.within_eq_subtree hbound] at hviolations
  exact ⟨hviolations.trans (congrArg (x.verdict ctx) (foldl_see_module hdisjoint)), hfaults⟩

/-- One violation at most, about the file and with the number of the registrations: it is there when there are any
and nothing is released in a cleanup function. The order of the calls does not count. -/
theorem violations_of_disjoint (ctx : FileContext) (hdisjoint : x.registerMethods.Disjoint x.releaseMethods)
    {bound : Nat} (hbound : ∀ f ∈ (Focus.root root).subtree, f.depth ≤ bound) :
    (FileAnalysis.ofWalk [x.checker] bound ctx root).faults = [] ∧
      (0 < x.registrationCount ctx root ∧ ¬ x.Releases ctx root →
        (FileAnalysis.ofWalk [x.checker] bound ctx root).violations =
          [x.missingRelease ctx (x.registrationCount ctx root)]) ∧
      (x.registrationCount ctx root = 0 ∨ x.Releases ctx root →
        (FileAnalysis.ofWalk [x.checker] bound ctx root).violations = []) ∧
      (x.missingRelease ctx (x.registrationCount ctx root)).location = .ofFile ctx.relative ∧
      (∃ rest, (x.missingRelease ctx (x.registrationCount ctx root)).message =
        toString (x.registrationCount ctx root) ++ rest) ∧
      ∀ (other : FileContext) (root' : Node), other.relative = ctx.relative →
        (∀ f ∈ (Focus.root root').subtree, f.depth ≤ bound) →
        (x.methodCalls other root').Perm (x.methodCalls ctx root) →
        (FileAnalysis.ofWalk [x.checker] bound other root').violations =
          (FileAnalysis.ofWalk [x.checker] bound ctx root).violations := by
  obtain ⟨hviolations, hfaults⟩ := ofWalk_checker ctx hdisjoint hbound
  rw [hviolations, verdict_eq]
  refine ⟨hfaults, ?_, ?_, rfl, exists_message_eq x _, ?_⟩
  · rintro ⟨hcount, hnone⟩
    rw [← any_releasesAt, Bool.not_eq_true] at hnone
    exact if_pos ⟨hcount, hnone⟩
  · rintro (hcount | hreleases)
    · exact if_neg fun h => Nat.ne_of_gt h.1 hcount
    · exact if_neg fun h => Bool.false_ne_true (h.2.symm.trans (any_releasesAt.2 hreleases))
  · intro other root' hrelative hbound' hperm
    have hreport (count : Nat) : x.missingRelease other count = x.missingRelease ctx count := by
      rw [missingRelease, missingRelease, FileContext.fileViolation, FileContext.fileViolation, hrelative]
    rw [(ofWalk_checker other hdisjoint hbound').1, verdict_eq, registrationCount_eq, any_releasesAt_eq,
      hperm.countP_eq, hperm.any_eq, ← registrationCount_eq, ← any_releasesAt_eq, hreport]

/-! ## One module in two orders -/

/-- The call `object.method` with these arguments, from this offset on. -/
def methodCall (field object method : String) (start stop : Nat) (arguments : List Node) : Node :=
  let dot := start + object.length
  let behind := dot + 1 + method.length
  .plain "call_expression" field start stop
    [.plain "member_expression" "function" start behind
      [.plain "identifier" "object" start dot [], .plain "property_identifier" "property" (dot + 1) behind []],
      .plain "arguments" "arguments" behind stop arguments]

/-- The method `bind() { eh.trackListener(b); }` at this offset. -/
def binding (i : Nat) : Node :=
  .plain "method_definition" "" i (i + 31) [.plain "property_identifier" "name" i (i + 4) [],
    .plain "formal_parameters" "parameters" (i + 4) (i + 6) [],
    .plain "statement_block" "body" (i + 7) (i + 31) [.plain "expression_statement" "" (i + 9) (i + 29)
      [methodCall "" "eh" "trackListener" (i + 9) (i + 28) [.plain "identifier" "" (i + 26) (i + 27) []]]]]

/-- The method `destroy() { xs.map(() => eh.cleanupListeners()); }` at this offset. -/
def destroying (i : Nat) : Node :=
  let arrow := Node.plain "arrow_function" "" (i + 19) (i + 46)
    [.plain "formal_parameters" "parameters" (i + 19) (i + 21) [],
      methodCall "body" "eh" "cleanupListeners" (i + 25) (i + 46) []]
  .plain "method_definition" "" i (i + 50) [.plain "property_identifier" "name" i (i + 7) [],
    .plain "formal_parameters" "parameters" (i + 7) (i + 9) [],
    .plain "statement_block" "body" (i + 10) (i + 50) [.plain "expression_statement" "" (i + 12) (i + 48)
      [methodCall "" "xs" "map" (i + 12) (i + 47) [arrow]]]]

def objectOf (text : String) (members : List Node) : FileContext × Node :=
  (.ofFile ⟨"/app"⟩ ⟨"/app/a.js"⟩ text, .plain "program" "" 0 90 [.plain "expression_statement" "" 0 90
    [.plain "parenthesized_expression" "" 0 89 [.plain "object" "" 1 88 members]]])

/-- The source registers a listener and then releases it, below an arrow function in a cleanup function. -/
def registeredFirst : FileContext × Node :=
  objectOf "(\x7b bind() \x7b eh.trackListener(b); \x7d, destroy() \x7b xs.map(() => eh.cleanupListeners()); \x7d \x7d);"
    [binding 3, destroying 36]

def releasedFirst : FileContext × Node :=
  objectOf "(\x7b destroy() \x7b xs.map(() => eh.cleanupListeners()); \x7d, bind() \x7b eh.trackListener(b); \x7d \x7d);"
    [destroying 3, binding 55]

def standard : ListenerCleanup :=
  ⟨["trackListener"], ["cleanupListeners"], ["cleanup", "destroy", "teardown", "dispose"], false⟩

theorem methodCalls_registeredFirst : standard.methodCalls registeredFirst.1 registeredFirst.2 =
    [("trackListener", false), ("map", true), ("cleanupListeners", true)] := by
  decide +kernel

theorem methodCalls_releasedFirst : standard.methodCalls releasedFirst.1 releasedFirst.2 =
    [("map", true), ("cleanupListeners", true), ("trackListener", false)] := by
  decide +kernel

def onlyTeardown : ListenerCleanup :=
  { standard with cleanupNames := ["teardown"] }

theorem methodCalls_onlyTeardown : onlyTeardown.methodCalls registeredFirst.1 registeredFirst.2 =
    [("trackListener", false), ("map", false), ("cleanupListeners", false)] := by
  decide +kernel

theorem violations_of_disjoint_registeredFirst :
    (FileAnalysis.ofWalk [standard.checker] 4096 registeredFirst.1 registeredFirst.2).violations = [] ∧
      (FileAnalysis.ofWalk [standard.checker] 4096 releasedFirst.1 releasedFirst.2).violations = [] ∧
      (FileAnalysis.ofWalk [onlyTeardown.checker] 4096 registeredFirst.1 registeredFirst.2).violations =
        [onlyTeardown.missingRelease registeredFirst.1 1] := by
  have hdisjoint : standard.registerMethods.Disjoint standard.releaseMethods := by simp [standard]
  have hdisjoint' : onlyTeardown.registerMethods.Disjoint onlyTeardown.releaseMethods := hdisjoint
  have hdepth : ∀ f ∈ (Focus.root registeredFirst.2).subtree, f.depth ≤ 4096 := by decide
  have hdepth' : ∀ f ∈ (Focus.root releasedFirst.2).subtree, f.depth ≤ 4096 := by decide
  have hreleases : standard.Releases registeredFirst.1 registeredFirst.2 := by
    rw [← any_releasesAt, any_releasesAt_eq, methodCalls_registeredFirst]
    rfl
  have hperm : (standard.methodCalls releasedFirst.1 releasedFirst.2).Perm
      (standard.methodCalls registeredFirst.1 registeredFirst.2) := by
    rw [methodCalls_registeredFirst, methodCalls_releasedFirst]
    decide
  have hcount : onlyTeardown.registrationCount registeredFirst.1 registeredFirst.2 = 1 := by
    rw [registrationCount_eq, methodCalls_onlyTeardown]
    rfl
  have hnone : ¬ onlyTeardown.Releases registeredFirst.1 registeredFirst.2 := by
    rw [← any_releasesAt, any_releasesAt_eq, methodCalls_onlyTeardown]
    exact Bool.false_ne_true
  have hrelative : releasedFirst.1.relative = registeredFirst.1.relative := rfl
  obtain ⟨-, -, hsilent, -, -, horder⟩ := violations_of_disjoint registeredFirst.1 hdisjoint hdepth
  obtain ⟨-, hreported, -⟩ := violations_of_disjoint registeredFirst.1 hdisjoint' hdepth
  rw [hcount] at hreported
  refine ⟨hsilent (.inr hreleases), ?_, hreported ⟨Nat.one_pos, hnone⟩⟩
  exact (horder releasedFirst.1 releasedFirst.2 hrelative hdepth' hperm).trans (hsilent (.inr hreleases))

end Guardrails.ListenerCleanup
