import Guardrails.Proofs.Lists
import Guardrails.Proofs.Text.Words
import Guardrails.Proofs.Tree.Descent
import Guardrails.Proofs.Tree.Family
import Guardrails.Proofs.Tree.Tour
import Guardrails.Proofs.Walk.Gathering
import Guardrails.Rules.Events

/-!
# Custom events and the buses of a module

The checker remembers buses and dispatched events as it comes upon them and compares them in the end. So a dispatch is
judged by all that the module holds: a bus that is made behind it counts as much as one that is made before it.
-/

namespace Guardrails.EventBus

variable {x : EventBus} {ctx : FileContext} {root n holder call receiver : Node} {f : Focus}

/-! ## Buses and dispatches -/

/-- Whether an expression makes an instance of a class whose last name is this one. -/
structure Makes (ctx : FileContext) (name : String) (n : Node) : Prop where
  kind : n.kind = "new_expression"
  made : ∃ c, n.child? "constructor" = some c ∧ c.lastSegment? ctx.source = some name

/-- Whether a node gives a new bus to a name, or to what is assigned to. -/
inductive GivesBus (x : EventBus) (ctx : FileContext) : Node → Node → Prop
  | declaration {n name value : Node} (hkind : n.kind = "variable_declarator") (hname : n.child? "name" = some name)
      (hvalue : n.child? "value" = some value) (h : Makes ctx x.busConstructor value) : GivesBus x ctx n name
  | assignment {n left right : Node} (hkind : n.kind = "assignment_expression") (hleft : n.child? "left" = some left)
      (hright : n.child? "right" = some right) (h : Makes ctx x.busConstructor right) : GivesBus x ctx n left

/-- Whether a call dispatches a custom event on a receiver. -/
structure Dispatches (x : EventBus) (ctx : FileContext) (call receiver : Node) : Prop where
  kind : call.kind = "call_expression"
  method : ∃ function property, call.child? "function" = some function ∧ function.kind = "member_expression" ∧
    function.child? "object" = some receiver ∧ function.child? "property" = some property ∧
    ctx.textOf property = "dispatchEvent"
  event : ∃ event others, call.callArguments = event :: others ∧ Makes ctx x.eventConstructor event

/-- Whether something with this text is given a new bus, wherever in the module. -/
def HoldsBus (x : EventBus) (ctx : FileContext) (root : Node) (text : String) : Prop :=
  ∃ f ∈ (Focus.root root).subtree, ∃ holder, x.GivesBus ctx f.node holder ∧ ctx.textOf holder = text

/-- The text by which an injected bus is known, as a configuration has it. -/
def marker (c : Config) : String :=
  (((c.options .eventBus).option? "bus_marker").bind (·.string?)).getD "bus"

/-- Whether a text has another one in it once both are in lowercase. -/
def ContainsInAnyCase (text part : String) : Prop :=
  (Text.lowercase part).toList <:+: (Text.lowercase text).toList

/-- Whether a call dispatches a custom event on a receiver that is no bus of the module and no injected one. -/
structure IsStray (c : Config) (ctx : FileContext) (root call receiver : Node) : Prop where
  dispatches : (ofConfig c).Dispatches ctx call receiver
  unheld : ¬ (ofConfig c).HoldsBus ctx root (ctx.textOf receiver)
  unmarked : ¬ ContainsInAnyCase (ctx.textOf receiver) (marker c)

/-- Whether the text of a node can be read, and an access to a property has an object. -/
structure IsLegible (ctx : FileContext) (n : Node) : Prop where
  text : (ctx.text n).isOk = true
  object : n.kind = "member_expression" → (n.child? "object").isSome = true

instance : DecidablePred (IsLegible ctx) := fun n =>
  decidable_of_iff ((ctx.text n).isOk = true ∧ (n.kind = "member_expression" → (n.child? "object").isSome = true))
    ⟨fun h => ⟨h.1, h.2⟩, fun h => ⟨h.text, h.object⟩⟩

theorem constructs_iff {name : String} : n.constructs ctx.source name = true ↔ Makes ctx name n := by
  simp only [Node.constructs, Bool.and_eq_true, beq_iff_eq, Option.any_eq_true]
  exact ⟨fun ⟨hkind, hmade⟩ => ⟨hkind, hmade⟩, fun ⟨hkind, hmade⟩ => ⟨hkind, hmade⟩⟩

/-! ## What a node adds -/

/-- The node to which another one gives a new bus. -/
def holder? (x : EventBus) (ctx : FileContext) (n : Node) : Option Node :=
  match n.kind with
  | "variable_declarator" => x.busTarget? ctx n "name" "value"
  | "assignment_expression" => x.busTarget? ctx n "left" "right"
  | _ => none

/-- The receiver on which a node dispatches a custom event. -/
def receiver? (x : EventBus) (ctx : FileContext) (n : Node) : Option Node :=
  if n.kind == "call_expression" && x.dispatches ctx n then (n.child? "function").bind (·.child? "object") else none

theorem busTarget?_eq_some_iff {target value : String} : x.busTarget? ctx n target value = some holder ↔
    n.child? target = some holder ∧ ∃ made, n.child? value = some made ∧ Makes ctx x.busConstructor made := by
  unfold busTarget?
  split
  · rename_i holder' made hholder hmade
    rw [Option.ite_none_right_eq_some, constructs_iff, hholder, hmade]
    constructor
    · rintro ⟨h, hholder⟩
      exact ⟨hholder, made, rfl, h⟩
    · rintro ⟨h, made', hmade', h'⟩
      cases hmade'
      exact ⟨h', h⟩
  · rename_i hnone
    constructor
    · intro h
      cases h
    · rintro ⟨hholder, made, hmade, -⟩
      exact absurd hmade (hnone holder made hholder)

theorem holder?_eq_some_iff : x.holder? ctx n = some holder ↔ x.GivesBus ctx n holder := by
  constructor
  · intro h
    unfold holder? at h
    split at h
    · obtain ⟨hname, value, hvalue, h⟩ := busTarget?_eq_some_iff.1 h
      exact .declaration ‹_› hname hvalue h
    · obtain ⟨hleft, right, hright, h⟩ := busTarget?_eq_some_iff.1 h
      exact .assignment ‹_› hleft hright h
    · cases h
  · rintro (⟨hkind, htarget, hvalue, h⟩ | ⟨hkind, htarget, hvalue, h⟩)
    all_goals
      simp only [holder?, hkind]
      exact busTarget?_eq_some_iff.2 ⟨htarget, _, hvalue, h⟩

theorem dispatches_iff : x.dispatches ctx call = true ↔
    (∃ function property, call.child? "function" = some function ∧ function.kind = "member_expression" ∧
      function.child? "property" = some property ∧ ctx.textOf property = "dispatchEvent") ∧
    ∃ event others, call.callArguments = event :: others ∧ Makes ctx x.eventConstructor event := by
  unfold dispatches
  rw [Bool.and_eq_true, beq_iff_eq]
  refine and_congr ?_ ?_
  · simp only [Node.calledMethod?, Node.propertyName?, Option.bind_eq_some_iff, Option.ite_none_right_eq_some,
      Option.map_eq_some_iff, beq_iff_eq]
    constructor
    · rintro ⟨function, hfunction, hkind, property, hproperty, htext⟩
      exact ⟨function, property, hfunction, hkind, hproperty, htext⟩
    · rintro ⟨function, property, hfunction, hkind, hproperty, htext⟩
      exact ⟨function, hfunction, hkind, property, hproperty, htext⟩
  · cases call.callArguments with
    | nil => simp
    | cons event others => simp [constructs_iff]

theorem receiver?_eq_some_iff : x.receiver? ctx call = some receiver ↔ x.Dispatches ctx call receiver := by
  simp only [receiver?, Option.ite_none_right_eq_some, Bool.and_eq_true, beq_iff_eq, dispatches_iff,
    Option.bind_eq_some_iff]
  constructor
  · rintro ⟨⟨hkind, ⟨function, property, hfunction, hmember, hproperty, htext⟩, hevent⟩, function', hfunction', hobject⟩
    obtain rfl := Option.some.inj (hfunction'.symm.trans hfunction)
    exact ⟨hkind, ⟨function', property, hfunction, hmember, hobject, hproperty, htext⟩, hevent⟩
  · rintro ⟨hkind, ⟨function, property, hfunction, hmember, hobject, hproperty, htext⟩, hevent⟩
    exact ⟨⟨hkind, ⟨function, property, hfunction, hmember, hproperty, htext⟩, hevent⟩, function, hfunction, hobject⟩

def dispatched? (x : EventBus) (ctx : FileContext) (f : Focus) : Option Dispatched :=
  (x.receiver? ctx f.node).map fun receiver => ⟨ctx.textOf receiver, f.node⟩

def busText? (x : EventBus) (ctx : FileContext) (f : Focus) : Option String :=
  (x.holder? ctx f.node).map ctx.textOf

/-- What was seen, and what stands at a place besides. -/
def take (x : EventBus) (ctx : FileContext) (seen : Seen) (f : Focus) : Seen :=
  ⟨seen.buses ++ (x.busText? ctx f).toList, seen.events ++ (x.dispatched? ctx f).toList⟩

theorem busText?_of_kind_ne (hname : f.node.kind ≠ "variable_declarator")
    (hleft : f.node.kind ≠ "assignment_expression") : x.busText? ctx f = none := by
  unfold busText? holder?
  split <;> first | contradiction | rfl

theorem dispatched?_of_kind_ne (h : f.node.kind ≠ "call_expression") : x.dispatched? ctx f = none := by
  unfold dispatched? receiver?
  rw [beq_eq_false_iff_ne.2 h, Bool.false_and, if_neg Bool.false_ne_true, Option.map_none]

theorem seeBus_eq {holder? : Option Node} (h : ∀ holder, holder? = some holder → (ctx.text holder).isOk = true)
    (seen : Seen) :
    seeBus ctx seen holder? = .ok { seen with buses := seen.buses ++ (holder?.map ctx.textOf).toList } := by
  cases holder? with
  | none => simp [seeBus, pure, Except.pure]
  | some holder =>
    rw [seeBus, FileContext.text_of_isOk (h holder rfl)]
    rfl

theorem seeCall_eq (h : f.node.Throughout (IsLegible ctx)) (hkind : f.node.kind = "call_expression") (seen : Seen) :
    x.seeCall ctx seen f.node = .ok { seen with events := seen.events ++ (x.dispatched? ctx f).toList } := by
  unfold seeCall dispatched? receiver?
  rw [hkind, beq_self_eq_true, Bool.true_and]
  cases hfunction : f.node.child? "function" with
  | none => simp [pure, Except.pure]
  | some function =>
    by_cases hdispatches : x.dispatches ctx f.node = true
    · obtain ⟨⟨function', property, hfunction', hmember, -⟩, -⟩ := dispatches_iff.1 hdispatches
      obtain rfl := Option.some.inj (hfunction'.symm.trans hfunction)
      have hlegible := h.of_child? hfunction
      obtain ⟨receiver, hreceiver⟩ := Option.isSome_iff_exists.1 (hlegible.self.object hmember)
      have htext := FileContext.text_of_isOk (hlegible.of_child? hreceiver).self.text
      simp only [if_pos hdispatches, Option.bind_some, hreceiver, htext]
      rfl
    · simp [if_neg hdispatches, pure, Except.pure]

theorem see_eq (h : f.node.Throughout (IsLegible ctx)) (seen : Seen) :
    x.see ctx seen f.node = .ok (x.take ctx seen f) := by
  have hbus {target value : String} (holder : Node) (hholder : x.busTarget? ctx f.node target value = some holder) :
      (ctx.text holder).isOk = true :=
    (h.of_child? (busTarget?_eq_some_iff.1 hholder).1).self.text
  unfold see take
  split
  · rename_i hkind
    have hcall : f.node.kind ≠ "call_expression" := by simp [hkind]
    rw [seeBus_eq hbus, dispatched?_of_kind_ne hcall, busText?, holder?, hkind]
    simp
  · rename_i hkind
    have hcall : f.node.kind ≠ "call_expression" := by simp [hkind]
    rw [seeBus_eq hbus, dispatched?_of_kind_ne hcall, busText?, holder?, hkind]
    simp
  · rename_i hkind
    rw [seeCall_eq h hkind, busText?_of_kind_ne (by simp [hkind]) (by simp [hkind])]
    simp
  · rename_i hname hleft hcall
    rw [busText?_of_kind_ne hname hleft, dispatched?_of_kind_ne hcall]
    simp [pure, Except.pure]

/-! ## The whole module -/

/-- The texts of what is given a new bus, in document order. -/
def busTexts (x : EventBus) (ctx : FileContext) (root : Node) : List String :=
  (Focus.root root).subtree.filterMap (x.busText? ctx)

/-- The receivers on which custom events are dispatched, in document order. -/
def receivers (x : EventBus) (ctx : FileContext) (root : Node) : List String :=
  (Focus.root root).subtree.filterMap fun f => (x.dispatched? ctx f).map (·.receiver)

theorem mem_busTexts_iff {text : String} : text ∈ x.busTexts ctx root ↔ x.HoldsBus ctx root text := by
  simp only [busTexts, List.mem_filterMap, busText?, Option.map_eq_some_iff, holder?_eq_some_iff, HoldsBus]

theorem mem_receivers_iff {text : String} : text ∈ x.receivers ctx root ↔
    ∃ f ∈ (Focus.root root).subtree, ∃ receiver, x.Dispatches ctx f.node receiver ∧ ctx.textOf receiver = text := by
  simp only [receivers, List.mem_filterMap, dispatched?, Option.map_map, Option.map_eq_some_iff,
    receiver?_eq_some_iff, Function.comp_apply]

theorem foldl_take (places : List Focus) (seen : Seen) : places.foldl (x.take ctx) seen =
    ⟨seen.buses ++ places.filterMap (x.busText? ctx), seen.events ++ places.filterMap (x.dispatched? ctx)⟩ := by
  induction places generalizing seen with
  | nil => simp
  | cons f places ih =>
    rw [List.foldl_cons, ih]
    cases hbus : x.busText? ctx f <;> cases hevent : x.dispatched? ctx f <;> simp [take, hbus, hevent]

theorem gathers_checker (hlegible : ∀ f ∈ (Focus.root root).subtree, IsLegible ctx f.node) (bound : Nat) :
    x.checker.Gathers ctx ⟨[], []⟩ (x.take ctx) (fun _ => []) (x.verdict ctx) ((Focus.root root).within bound) where
  start := rfl
  visit := by
    intro f hf _ seen k
    have hnext : x.see ctx seen f.node = .ok (x.take ctx seen f) :=
      see_eq (Focus.throughout_of_mem_subtree hlegible (List.mem_of_mem_filter hf)) seen
    simp only [checker]
    rw [hnext]
    rfl
  finish _ _ := rfl

theorem filterMap_kinds {α : Type} {g : Focus → Option α} {places : List Focus}
    (h : ∀ f : Focus, f.node.kind ∉ x.checker.kinds → g f = none) :
    (places.filter (·.node.kind ∈ x.checker.kinds)).filterMap g = places.filterMap g :=
  filterMap_filter_of_none fun f _ hkind => h f (of_decide_eq_false hkind)

theorem foldl_take_module : ((Focus.root root).subtree.filter (·.node.kind ∈ x.checker.kinds)).foldl (x.take ctx)
    ⟨[], []⟩ = ⟨x.busTexts ctx root, (Focus.root root).subtree.filterMap (x.dispatched? ctx)⟩ := by
  have hkinds : x.checker.kinds = ["variable_declarator", "assignment_expression", "call_expression"] := rfl
  rw [foldl_take, List.nil_append, List.nil_append, filterMap_kinds, filterMap_kinds, busTexts]
  · intro f hkind
    exact dispatched?_of_kind_ne fun h => hkind (by simp [hkinds, h])
  · intro f hkind
    exact busText?_of_kind_ne (fun h => hkind (by simp [hkinds, h])) fun h => hkind (by simp [hkinds, h])

def strayReport (x : EventBus) (ctx : FileContext) (call receiver : Node) : Violation :=
  (ctx.violationAt .eventBus call (x.message (ctx.textOf receiver))).withHint

/-- What is reported of a place in the end, when these are the buses. -/
def stray? (x : EventBus) (ctx : FileContext) (buses : List String) (f : Focus) : Option Violation :=
  ((x.receiver? ctx f.node).filter fun receiver => !x.isBus buses (ctx.textOf receiver)).map
    (x.strayReport ctx f.node)

theorem verdict_eq (buses : List String) (places : List Focus) :
    x.verdict ctx ⟨buses, places.filterMap (x.dispatched? ctx)⟩ = places.filterMap (x.stray? ctx buses) := by
  rw [verdict, List.filter_filterMap, List.map_filterMap]
  refine List.filterMap_congr fun f _ => ?_
  unfold dispatched? stray?
  cases x.receiver? ctx f.node with
  | none => rfl
  | some receiver =>
    rw [Option.map_some, Option.filter_some, Option.filter_some]
    cases x.isBus buses (ctx.textOf receiver) <;> rfl

theorem ofWalk_checker {bound : Nat} (hlegible : ∀ f ∈ (Focus.root root).subtree, IsLegible ctx f.node)
    (hbound : ∀ f ∈ (Focus.root root).subtree, f.depth ≤ bound) :
    (FileAnalysis.ofWalk [x.checker] bound ctx root).violations =
        (Focus.root root).subtree.filterMap (x.stray? ctx (x.busTexts ctx root)) ∧
      (FileAnalysis.ofWalk [x.checker] bound ctx root).faults = [] := by
  obtain ⟨hviolations, hfaults⟩ := Walk.ofWalk_of_gathers_silently (gathers_checker (x := x) hlegible bound)
  rw [Focus.within_eq_subtree hbound] at hviolations
  refine ⟨hviolations.trans ((congrArg (x.verdict ctx) foldl_take_module).trans ?_), hfaults⟩
  exact verdict_eq _ _

/-! ## Stray dispatches -/

variable {c : Config}

theorem isBus_iff {text : String} : (ofConfig c).isBus ((ofConfig c).busTexts ctx root) text = true ↔
    (ofConfig c).HoldsBus ctx root text ∨ ContainsInAnyCase text (marker c) := by
  have hmarker : (ofConfig c).busMarker = Text.lowercase (marker c) := rfl
  rw [isBus, Bool.or_eq_true, List.contains_iff_mem, mem_busTexts_iff, hmarker, Text.contains_iff, ContainsInAnyCase]

theorem stray?_eq_some_iff {v : Violation} :
    (ofConfig c).stray? ctx ((ofConfig c).busTexts ctx root) f = some v ↔
      ∃ receiver, IsStray c ctx root f.node receiver ∧ v = (ofConfig c).strayReport ctx f.node receiver := by
  simp only [stray?, Option.map_eq_some_iff, Option.filter_eq_some_iff, receiver?_eq_some_iff]
  refine exists_congr fun receiver => ?_
  rw [Bool.not_eq_true', ← Bool.not_eq_true, isBus_iff, not_or]
  constructor
  · rintro ⟨⟨hdispatches, hunheld, hunmarked⟩, rfl⟩
    exact ⟨⟨hdispatches, hunheld, hunmarked⟩, rfl⟩
  · rintro ⟨⟨hdispatches, hunheld, hunmarked⟩, rfl⟩
    exact ⟨⟨hdispatches, hunheld, hunmarked⟩, rfl⟩

theorem isSome_stray?_iff : ((ofConfig c).stray? ctx ((ofConfig c).busTexts ctx root) f).isSome = true ↔
    ∃ receiver, IsStray c ctx root f.node receiver := by
  simp only [Option.isSome_iff_exists, stray?_eq_some_iff]
  exact ⟨fun ⟨_, receiver, h, _⟩ => ⟨receiver, h⟩, fun ⟨receiver, h⟩ => ⟨_, receiver, h, rfl⟩⟩

theorem map_message_strays (x : EventBus) (ctx : FileContext) (root : Node) (buses : List String) :
    ((Focus.root root).subtree.filterMap (x.stray? ctx buses)).map (·.message) =
      ((x.receivers ctx root).filter (!x.isBus buses ·)).map x.message := by
  rw [receivers, List.map_filterMap, List.filter_filterMap, List.map_filterMap]
  refine List.filterMap_congr fun f _ => ?_
  unfold dispatched? stray?
  cases x.receiver? ctx f.node with
  | none => rfl
  | some receiver =>
    rw [Option.map_some, Option.map_some, Option.filter_some, Option.filter_some]
    cases x.isBus buses (ctx.textOf receiver) <;> rfl

/-- What is reported are the stray dispatches, once each and in document order. In a module with the same dispatches
and at least the same buses no more is reported. -/
theorem violations_of_isLegible {bound : Nat} (hlegible : ∀ f ∈ (Focus.root root).subtree, IsLegible ctx f.node)
    (hbound : ∀ f ∈ (Focus.root root).subtree, f.depth ≤ bound) :
    (FileAnalysis.ofWalk [(ofConfig c).checker] bound ctx root).faults = [] ∧
      (∃ calls : List Focus, calls.Pairwise (fun f g => f.isBefore g = true) ∧
        (∀ call, call ∈ calls ↔
          call ∈ (Focus.root root).subtree ∧ ∃ receiver, IsStray c ctx root call.node receiver) ∧
        List.Forall₂
          (fun call v => ∃ receiver, IsStray c ctx root call.node receiver ∧
            v = (ofConfig c).strayReport ctx call.node receiver)
          calls (FileAnalysis.ofWalk [(ofConfig c).checker] bound ctx root).violations) ∧
      ∀ (other : FileContext) (root' : Node), (∀ f ∈ (Focus.root root').subtree, IsLegible other f.node) →
        (∀ f ∈ (Focus.root root').subtree, f.depth ≤ bound) →
        (ofConfig c).receivers other root' = (ofConfig c).receivers ctx root →
        (∀ text, (ofConfig c).HoldsBus ctx root text → (ofConfig c).HoldsBus other root' text) →
        ((FileAnalysis.ofWalk [(ofConfig c).checker] bound other root').violations.map (·.message)).Sublist
          ((FileAnalysis.ofWalk [(ofConfig c).checker] bound ctx root).violations.map (·.message)) := by
  obtain ⟨hviolations, hfaults⟩ := ofWalk_checker (x := ofConfig c) hlegible hbound
  rw [hviolations]
  refine ⟨hfaults, ⟨(Focus.root root).subtree.filter fun call =>
    ((ofConfig c).stray? ctx ((ofConfig c).busTexts ctx root) call).isSome,
    (Focus.subtree_pairwise _).filter _, fun call => ?_, ?_⟩, ?_⟩
  · rw [List.mem_filter, isSome_stray?_iff]
  · have hstrays := forall₂_filterMap ((ofConfig c).stray? ctx ((ofConfig c).busTexts ctx root))
      (Focus.root root).subtree
    exact hstrays.imp fun call v => stray?_eq_some_iff.1
  · intro other root' hlegible' hbound' hreceivers hbuses
    rw [(ofWalk_checker hlegible' hbound').1, map_message_strays, map_message_strays, hreceivers]
    refine (List.monotone_filter_right _ fun text hstray => ?_).map _
    rw [Bool.not_eq_true', ← Bool.not_eq_true, isBus_iff] at hstray ⊢
    exact mt (Or.imp_left (hbuses text)) hstray

/-- The call `el.dispatchEvent(new CustomEvent('x'))`. -/
def announcement : Node :=
  .plain "call_expression" "" 0 38 [
    .plain "member_expression" "function" 0 16
      [.plain "identifier" "object" 0 2 [], .plain "property_identifier" "property" 3 16 []],
    .plain "arguments" "arguments" 16 38 [.plain "new_expression" "" 17 37
      [.plain "identifier" "constructor" 21 32 [], .plain "arguments" "arguments" 32 37 [.plain "string" "" 33 36 []]]]]

/-- The declaration `const el = new EventTarget();` behind the call. -/
def declaration : Node :=
  .plain "lexical_declaration" "" 40 69 [.plain "variable_declarator" "" 46 68 [.plain "identifier" "name" 46 48 [],
    .plain "new_expression" "value" 51 68
      [.plain "identifier" "constructor" 55 66 [], .plain "arguments" "arguments" 66 68 []]]]

def alone : FileContext × Node :=
  (.ofFile ⟨"/app"⟩ ⟨"/app/a.js"⟩ "el.dispatchEvent(new CustomEvent('x'));",
    .plain "program" "" 0 39 [.plain "expression_statement" "" 0 39 [announcement]])

def declaredBehind : FileContext × Node :=
  (.ofFile ⟨"/app"⟩ ⟨"/app/a.js"⟩ "el.dispatchEvent(new CustomEvent('x')); const el = new EventTarget();",
    .plain "program" "" 0 69 [.plain "expression_statement" "" 0 39 [announcement], declaration])

theorem receivers_alone : (ofConfig .default).receivers alone.1 alone.2 = ["el"] := by decide +kernel

theorem receivers_declaredBehind : (ofConfig .default).receivers declaredBehind.1 declaredBehind.2 = ["el"] := by
  decide +kernel

theorem holdsBus_declaredBehind : (ofConfig .default).HoldsBus declaredBehind.1 declaredBehind.2 "el" := by
  have hbuses : (ofConfig .default).busTexts declaredBehind.1 declaredBehind.2 = ["el"] := by decide +kernel
  rw [← mem_busTexts_iff, hbuses]
  exact List.mem_cons_self

theorem not_holdsBus_alone (text : String) : ¬ (ofConfig .default).HoldsBus alone.1 alone.2 text := by
  have hbuses : (ofConfig .default).busTexts alone.1 alone.2 = [] := by decide +kernel
  rw [← mem_busTexts_iff, hbuses]
  exact List.not_mem_nil

theorem textOf_receiver_alone (hf : f ∈ (Focus.root alone.2).subtree)
    (h : IsStray .default alone.1 alone.2 f.node receiver) : alone.1.textOf receiver = "el" := by
  have htext : alone.1.textOf receiver ∈ (ofConfig .default).receivers alone.1 alone.2 :=
    mem_receivers_iff.2 ⟨f, hf, receiver, h.dispatches, rfl⟩
  rwa [receivers_alone, List.mem_singleton] at htext

theorem exists_isStray_alone : ∃ call ∈ (Focus.root alone.2).subtree, ∃ receiver,
    IsStray .default alone.1 alone.2 call.node receiver := by
  have hreceiver : "el" ∈ (ofConfig .default).receivers alone.1 alone.2 := receivers_alone ▸ List.mem_cons_self
  obtain ⟨call, hcall, receiver, hdispatches, htext⟩ := mem_receivers_iff.1 hreceiver
  refine ⟨call, hcall, receiver, hdispatches, not_holdsBus_alone _, ?_⟩
  rw [htext, ContainsInAnyCase, ← Text.contains_iff]
  decide +kernel

theorem eq_of_mem_alone {f g : Focus} (hf : f ∈ (Focus.root alone.2).subtree) (hg : g ∈ (Focus.root alone.2).subtree)
    (hkind : f.node.kind = "call_expression") (hkind' : g.node.kind = "call_expression") : f = g := by
  have hcalls : ((Focus.root alone.2).subtree.filter (·.node.kind = "call_expression")).length = 1 := rfl
  obtain ⟨call, hcalls⟩ := List.length_eq_one_iff.1 hcalls
  have hone {f : Focus} (hf : f ∈ (Focus.root alone.2).subtree) (hkind : f.node.kind = "call_expression") :
      f = call := by
    have hmem : f ∈ (Focus.root alone.2).subtree.filter (·.node.kind = "call_expression") :=
      List.mem_filter.2 ⟨hf, decide_eq_true hkind⟩
    rwa [hcalls, List.mem_singleton] at hmem
  rw [hone hf hkind, hone hg hkind']

theorem not_isStray_declaredBehind (hf : f ∈ (Focus.root declaredBehind.2).subtree) :
    ¬ IsStray .default declaredBehind.1 declaredBehind.2 f.node receiver := by
  intro h
  have htext : declaredBehind.1.textOf receiver ∈ (ofConfig .default).receivers declaredBehind.1 declaredBehind.2 :=
    mem_receivers_iff.2 ⟨f, hf, receiver, h.dispatches, rfl⟩
  rw [receivers_declaredBehind, List.mem_singleton] at htext
  exact h.unheld (htext ▸ holdsBus_declaredBehind)

theorem violations_declaredBehind :
    (FileAnalysis.ofWalk [(ofConfig .default).checker] 4096 alone.1 alone.2).violations.map (·.message) =
        [(ofConfig .default).message "el"] ∧
      (FileAnalysis.ofWalk [(ofConfig .default).checker] 4096 declaredBehind.1 declaredBehind.2).violations = [] ∧
      ((FileAnalysis.ofWalk [(ofConfig .default).checker] 4096 declaredBehind.1 declaredBehind.2).violations.map
          (·.message)).Sublist
        ((FileAnalysis.ofWalk [(ofConfig .default).checker] 4096 alone.1 alone.2).violations.map (·.message)) := by
  have hlegible : ∀ f ∈ (Focus.root alone.2).subtree, IsLegible alone.1 f.node := by decide +kernel
  have hlegible' : ∀ f ∈ (Focus.root declaredBehind.2).subtree, IsLegible declaredBehind.1 f.node := by decide +kernel
  have hdepth : ∀ f ∈ (Focus.root alone.2).subtree, f.depth ≤ 4096 := by decide
  have hdepth' : ∀ f ∈ (Focus.root declaredBehind.2).subtree, f.depth ≤ 4096 := by decide
  obtain ⟨-, ⟨calls, hordered, hcalls, hreports⟩, hmore⟩ := violations_of_isLegible (c := .default) hlegible hdepth
  obtain ⟨-, ⟨calls', -, hcalls', hreports'⟩, -⟩ := violations_of_isLegible (c := .default) hlegible' hdepth'
  refine ⟨?_, ?_, hmore _ _ hlegible' hdepth' ?_ fun text h => absurd h (not_holdsBus_alone text)⟩
  · obtain ⟨call, hcall, receiver, hstray⟩ := exists_isStray_alone
    have hone : calls = [call] := by
      refine Focus.eq_of_pairwise_isBefore hordered (List.pairwise_singleton _ _) fun other => ?_
      rw [hcalls, List.mem_singleton]
      constructor
      · rintro ⟨hother, receiver', hstray'⟩
        exact eq_of_mem_alone hother hcall hstray'.dispatches.kind hstray.dispatches.kind
      · rintro rfl
        exact ⟨hcall, receiver, hstray⟩
    rw [hone] at hreports
    obtain ⟨v, rest, ⟨receiver', hstray', hreport⟩, hrest, hviolations⟩ := List.forall₂_cons_left_iff.1 hreports
    rw [hviolations, List.forall₂_nil_left_iff.1 hrest, hreport, ← textOf_receiver_alone hcall hstray']
    rfl
  · have hnone : calls' = [] := by
      refine List.eq_nil_iff_forall_not_mem.2 fun call hcall => ?_
      obtain ⟨hcall, receiver, hstray⟩ := (hcalls' call).1 hcall
      exact not_isStray_declaredBehind hcall hstray
    rwa [hnone, List.forall₂_nil_left_iff] at hreports'
  · exact receivers_declaredBehind.trans receivers_alone.symm

end Guardrails.EventBus
