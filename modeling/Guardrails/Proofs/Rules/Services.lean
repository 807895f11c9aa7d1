import Guardrails.Proofs.Tree.Access
import Guardrails.Proofs.Walk.Gathering
import Guardrails.Rules.Services

/-!
# Direct network access

A call reaches the network directly when it calls a listed function by its name, or through one of the global objects.
The checker reads the names of a callee only, and so it cannot tell a plain name from the property of something that
has no name.
-/

namespace Guardrails.ApiClient

open Node

variable {x : ApiClient} {ctx : FileContext} {callee : Node} {call : Focus} {name : String}

/-! ## Callees -/

/-- Whether a callee is the name of a global, or an access to it through one of the global objects. -/
def IsDirect (s : Source) (callee : Node) (name : String) : Prop :=
  callee.IsIdentifier s name ∨
    ∃ object, callee.IsAccessOn s object name ∧ ∃ receiver ∈ globalReceivers, object.IsIdentifier s receiver

/-- Whether a callee has the name of a global, or this name behind that of one of the global objects, when nothing is
asked about what it is made on. -/
inductive LooksDirect (s : Source) : Node → String → Prop
  | plain {n : Node} {name : String} (h : n.ReadsAs s name) : LooksDirect s n name
  | access {n object property : Node} {receiver : String} (hkind : n.kind = "member_expression")
      (hobject : n.child? "object" = some object) (hproperty : n.child? "property" = some property)
      (hreceiver : receiver ∈ globalReceivers) (h : object.ReadsAs s receiver) : LooksDirect s n (s.textOf property)
  | parentheses {n inside : Node} {name : String} (hkind : n.kind = "parenthesized_expression")
      (hinside : n.inside? = some inside) (h : LooksDirect s inside name) : LooksDirect s n name
  | unfinished {n object : Node} {name : String} (hkind : n.kind = "member_expression")
      (hobject : n.child? "object" = some object) (hproperty : n.child? "property" = none)
      (h : LooksDirect s object name) : LooksDirect s n name

def accessReport (ctx : FileContext) (call : Focus) (name : String) : Violation :=
  (ctx.violationAt .apiClient call.node ("direct network access via " ++ name ++ "()")).withHint

theorem globalName?_eq_some_iff {path : List String} : globalName? path = some name ↔
    path = [name] ∨ ∃ receiver ∈ globalReceivers, path = [receiver, name] := by
  unfold globalName?
  split
  · simp
  · rename_i receiver last
    by_cases h : receiver ∈ globalReceivers
    · simp [h]
    · simp only [List.contains_iff_mem, h, if_false, reduceCtorEq, List.cons.injEq, and_false, false_or, false_iff,
        not_exists, not_and]
      rintro g hg rfl
      exact absurd hg h
  · simp_all

theorem looksDirect_of_accessTail {s : Source} {receiver : String} (hreceiver : receiver ∈ globalReceivers) {n : Node}
    (htail : n.accessTail s = [receiver, name]) : LooksDirect s n name := by
  -- Two names are only read off an access, perhaps in parentheses; the other kinds of nodes give one name or none.
  induction n using accessTail.induct s with
  | case1 n hkind ih =>
    cases hproperty : n.child? "property" with
    | none =>
      rw [accessTail_of_unfinished s hkind hproperty] at htail
      cases hobject : n.child? "object" with
      | none => simp [hobject] at htail
      | some object =>
        exact .unfinished hkind hobject hproperty (ih object hobject (by simpa [hobject] using htail))
    | some property =>
      rw [accessTail_of_property s hkind hproperty] at htail
      have htail : _ ++ [s.textOf property] = [receiver] ++ [name] := htail
      obtain ⟨hfront, hname⟩ := List.append_inj' htail rfl
      cases hobject : n.child? "object" with
      | none => simp [hobject] at hfront
      | some object =>
        rw [← List.singleton_inj.1 hname]
        exact .access hkind hobject hproperty hreceiver
          ((accessTail_eq_singleton_iff s object receiver).1 (by simpa [hobject] using hfront))
  | case2 n hkind inside hinside ih =>
    rw [accessTail_parentheses s hkind hinside] at htail
    exact .parentheses hkind hinside (ih htail)
  | case3 n hkind hinside => simp [accessTail_eq s n, hkind, hinside] at htail
  | case4 n hkind => simp [accessTail_plain s (.inl hkind)] at htail
  | case5 n hkind => simp [accessTail_plain s (.inr hkind)] at htail
  | case6 n hmember hparentheses hidentifier hthis =>
    rw [accessTail_other s (by simp_all [accessKinds])] at htail
    cases htail

theorem globalName?_accessTail (s : Source) (n : Node) (name : String) :
    globalName? (n.accessTail s) = some name ↔ LooksDirect s n name := by
  rw [globalName?_eq_some_iff]
  constructor
  · rintro (htail | ⟨receiver, hreceiver, htail⟩)
    · exact .plain ((accessTail_eq_singleton_iff s n name).1 htail)
    · exact looksDirect_of_accessTail hreceiver htail
  · intro h
    induction h with
    | plain h => exact .inl ((accessTail_eq_singleton_iff s _ _).2 h)
    | access hkind hobject hproperty hreceiver h =>
      refine .inr ⟨_, hreceiver, ?_⟩
      rw [accessTail_member s hkind hobject hproperty, (accessTail_eq_singleton_iff s _ _).2 h]
      rfl
    | parentheses hkind hinside h ih => rwa [accessTail_parentheses s hkind hinside]
    | unfinished hkind hobject hproperty h ih => rwa [accessTail_of_unfinished s hkind hproperty, hobject]

theorem IsDirect.looksDirect {s : Source} (h : IsDirect s callee name) : LooksDirect s callee name := by
  rw [← globalName?_accessTail, globalName?_eq_some_iff]
  rcases h with hname | ⟨object, haccess, receiver, hreceiver, hobject⟩
  · exact .inl hname.accessTail
  · refine .inr ⟨receiver, hreceiver, ?_⟩
    rw [haccess.accessTail, hobject.accessTail]
    rfl

theorem LooksDirect.isDirect {s : Source} (h : LooksDirect s callee name) (hrooted : callee.IsRooted) :
    IsDirect s callee name := by
  rw [← globalName?_accessTail, globalName?_eq_some_iff] at h
  rcases h with htail | ⟨receiver, hreceiver, htail⟩
  · exact .inl (hrooted.isIdentifier htail)
  · obtain ⟨object, haccess, hobject, hfront⟩ := hrooted.isAccessOn (List.cons_ne_nil receiver []) htail
    exact .inr ⟨object, haccess, receiver, hreceiver, hobject.isIdentifier hfront⟩

/-! ## Calls -/

theorem directCall?_eq (hlibraries : x.libraries = []) (callee : Node) : x.directCall? ctx callee =
    ((globalName? (callee.accessTail ctx.source)).filter (x.functions.contains ·)).map (· ++ "()") := by
  unfold directCall?
  rw [hlibraries]
  cases (globalName? (callee.accessTail ctx.source)).filter (x.functions.contains ·) with
  | some name => rfl
  | none =>
    cases callee.accessPath? ctx.source with
    | none => rfl
    | some path => cases path.head? <;> simp

theorem foundAt_call (hlibraries : x.libraries = []) (hkind : call.node.kind = "call_expression")
    (hcallee : call.node.child? "function" = some callee) : foundAt x.findings ctx call =
      (((globalName? (callee.accessTail ctx.source)).filter (x.functions.contains ·)).map
        (accessReport ctx call)).toList := by
  unfold foundAt findings access?
  rw [hkind, hcallee]
  simp only [beq_self_eq_true, if_true, Option.bind_some, directCall?_eq hlibraries]
  cases (globalName? (callee.accessTail ctx.source)).filter (x.functions.contains ·) with
  | none => rfl
  | some name => simp [accessReport, String.append_assoc]

theorem foundAt_of_looksDirect (hlibraries : x.libraries = []) (hkind : call.node.kind = "call_expression")
    (hcallee : call.node.child? "function" = some callee) (hname : name ∈ x.functions)
    (h : LooksDirect ctx.source callee name) : foundAt x.findings ctx call = [accessReport ctx call name] := by
  rw [foundAt_call hlibraries hkind hcallee, (globalName?_accessTail ctx.source callee name).2 h,
    Option.filter_some, if_pos (by simpa using hname)]
  rfl

theorem foundAt_of_not_looksDirect (hlibraries : x.libraries = []) (hkind : call.node.kind = "call_expression")
    (h : ∀ callee name, call.node.child? "function" = some callee → name ∈ x.functions →
      ¬ LooksDirect ctx.source callee name) : foundAt x.findings ctx call = [] := by
  cases hcallee : call.node.child? "function" with
  | none => simp [foundAt, findings, access?, hkind, hcallee]
  | some callee =>
    have hnone : (globalName? (callee.accessTail ctx.source)).filter (x.functions.contains ·) = none := by
      refine Option.filter_eq_none_iff.2 fun name hname hlisted => ?_
      exact h callee name hcallee (by simpa using hlisted) ((globalName?_accessTail ctx.source callee name).1 hname)
    rw [foundAt_call hlibraries hkind hcallee, hnone]
    rfl

/-- Every call is reported once at most. It is reported when its callee looks direct, as every direct one does; one
that begins at an identifier looks direct only when it is. -/
theorem violations_of_libraries_eq_nil (hlibraries : x.libraries = []) (bound : Nat) (ctx : FileContext)
    (root : Node) :
    (FileAnalysis.ofWalk [x.checker] bound ctx root).faults = [] ∧
      (FileAnalysis.ofWalk [x.checker] bound ctx root).violations =
        (((Focus.root root).within bound).filter (·.node.kind ∈ x.checker.kinds)).flatMap
          (foundAt x.findings ctx) ∧
      (((Focus.root root).within bound).filter (·.node.kind ∈ x.checker.kinds)).Pairwise
        (fun f g => f.isBefore g = true) ∧
      ∀ call : Focus, call.node.kind = "call_expression" →
        ((∀ callee name, call.node.child? "function" = some callee → name ∈ x.functions →
          ¬ LooksDirect ctx.source callee name) → foundAt x.findings ctx call = []) ∧
        ∀ callee name, call.node.child? "function" = some callee → name ∈ x.functions →
          (LooksDirect ctx.source callee name → foundAt x.findings ctx call = [accessReport ctx call name]) ∧
          (IsDirect ctx.source callee name → LooksDirect ctx.source callee name) ∧
          (callee.IsRooted → LooksDirect ctx.source callee name → IsDirect ctx.source callee name) := by
  have hfindings : ∀ f ∈ (Focus.root root).within bound, f.node.kind ∈ x.checker.kinds →
      (x.findings ctx f).isOk = true := fun _ _ _ => rfl
  obtain ⟨hfaults, hviolations, hordered⟩ := Walk.ofWalk_ofFindings hfindings
  refine ⟨hfaults, hviolations, hordered, fun call hkind => ⟨foundAt_of_not_looksDirect hlibraries hkind, ?_⟩⟩
  intro callee name hcallee hname
  exact ⟨foundAt_of_looksDirect hlibraries hkind hcallee hname, IsDirect.looksDirect,
    fun hrooted h => h.isDirect hrooted⟩

/-- The source `(window).fetch(x);`, with the place of the call and its callee. -/
def onWindow : FileContext × Node × Focus × Node :=
  let callee := Node.plain "member_expression" "function" 0 14
    [.plain "parenthesized_expression" "object" 0 8 [.plain "identifier" "" 1 7 []],
      .plain "property_identifier" "property" 9 14 []]
  let call := Node.plain "call_expression" "" 0 17
    [callee, .plain "arguments" "arguments" 14 17 [.plain "identifier" "" 15 16 []]]
  let statement := Node.plain "expression_statement" "" 0 18 [call]
  let root := Node.plain "program" "" 0 18 [statement]
  (.ofFile ⟨"/app"⟩ ⟨"/app/a.js"⟩ "(window).fetch(x);", root, ⟨call, [⟨statement, 0⟩, ⟨root, 0⟩]⟩, callee)

def withoutLibraries : ApiClient :=
  ⟨["fetch"], [], ["XMLHttpRequest"]⟩

theorem isDirect_onWindow :
    let (ctx, _, _, callee) := onWindow
    IsDirect ctx.source callee "fetch" :=
  .inr ⟨_, ⟨_, _, .refl _, rfl, rfl, rfl, rfl⟩, "window", by decide, _, .parentheses rfl rfl (.refl _), rfl, rfl⟩

theorem violations_onWindow :
    let (ctx, root, call, callee) := onWindow
    IsDirect ctx.source callee "fetch" ∧
      (FileAnalysis.ofWalk [withoutLibraries.checker] 4096 ctx root).violations = [accessReport ctx call "fetch"] := by
  obtain ⟨-, hviolations, -, hcalls⟩ := violations_of_libraries_eq_nil (x := withoutLibraries) rfl 4096 onWindow.1
    onWindow.2.1
  obtain ⟨hreported, hlooks, -⟩ := (hcalls onWindow.2.2.1 rfl).2 _ "fetch" rfl (by decide)
  have hplaces : (((Focus.root onWindow.2.1).within 4096).filter (·.node.kind ∈ withoutLibraries.checker.kinds)) =
      [onWindow.2.2.1] := rfl
  rw [hplaces, List.flatMap_singleton, hreported (hlooks isDirect_onWindow)] at hviolations
  exact ⟨isDirect_onWindow, hviolations⟩

/-- The source `a[0].fetch(x);`, with the place of the call and its callee. -/
def onElement : FileContext × Focus × Node :=
  let element := Node.plain "subscript_expression" "object" 0 4
    [.plain "identifier" "object" 0 1 [], .plain "number" "index" 2 3 []]
  let callee := Node.plain "member_expression" "function" 0 10
    [element, .plain "property_identifier" "property" 5 10 []]
  let call := Node.plain "call_expression" "" 0 13
    [callee, .plain "arguments" "arguments" 10 13 [.plain "identifier" "" 11 12 []]]
  let statement := Node.plain "expression_statement" "" 0 14 [call]
  (.ofFile ⟨"/app"⟩ ⟨"/app/a.js"⟩ "a[0].fetch(x);",
    ⟨call, [⟨statement, 0⟩, ⟨.plain "program" "" 0 14 [statement], 0⟩]⟩, callee)

theorem looksDirect_onElement :
    let (ctx, _, callee) := onElement
    LooksDirect ctx.source callee "fetch" := by
  have hnamed : onElement.2.2.ReadsAs onElement.1.source
      (onElement.1.source.textOf (.plain "property_identifier" "property" 5 10 [])) := by
    refine .access rfl rfl fun object hobject => ?_
    cases hobject
    exact .other (by decide)
  exact .plain hnamed

theorem not_isDirect_onElement (name : String) :
    let (ctx, _, callee) := onElement
    ¬ IsDirect ctx.source callee name := by
  rintro (⟨n, hwraps, hkind, -⟩ | ⟨object, ⟨n, property, hwraps, -, hobject, -⟩, receiver, -, m, hreceiver, hkind, -⟩)
  · obtain rfl := hwraps.eq_of_kind_ne (by decide)
    exact absurd hkind (by decide)
  · obtain rfl := hwraps.eq_of_kind_ne (by decide)
    obtain rfl := Option.some.inj hobject
    obtain rfl := hreceiver.eq_of_kind_ne (by decide)
    exact absurd hkind (by decide)

/-- A method of an element of an array may be reported. -/
theorem not_reported_only_if_isDirect : ¬ ∀ (x : ApiClient) (ctx : FileContext) (call : Focus) (callee : Node),
    x.libraries = [] → call.node.kind = "call_expression" → call.node.child? "function" = some callee →
      (foundAt x.findings ctx call ≠ [] ↔ ∃ name ∈ x.functions, IsDirect ctx.source callee name) := by
  intro h
  have hfound : foundAt withoutLibraries.findings onElement.1 onElement.2.1 = _ :=
    foundAt_of_looksDirect rfl rfl rfl (by decide) looksDirect_onElement
  have hreported := (h withoutLibraries onElement.1 onElement.2.1 onElement.2.2 rfl rfl rfl).1
  rw [hfound] at hreported
  obtain ⟨name, -, hdirect⟩ := hreported (List.cons_ne_nil _ _)
  exact not_isDirect_onElement name hdirect

end Guardrails.ApiClient
