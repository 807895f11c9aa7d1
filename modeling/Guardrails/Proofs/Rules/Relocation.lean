import Guardrails.Proofs.Rules.Builtin
import Guardrails.Proofs.Walk.Mirroring

/-!
# The same text in another file

Where a text stands, and whether it stands in a test, makes a difference to two rules only. All that the built-in
checkers find about the other rules in one file they find in the other one.
-/

namespace Guardrails

/-- The same text, as another file. -/
abbrev FileContext.elsewhere (ctx : FileContext) (path relative : Path) (isTest : Bool) : FileContext :=
  { ctx with path, relative, isTest }

theorem FileContext.text_elsewhere (ctx : FileContext) (path relative : Path) (isTest : Bool) :
    (ctx.elsewhere path relative isTest).text = ctx.text := rfl

/-- Whether a rule is checked in tests as it is in other files. -/
def Rule.isCheckedInTests (r : Rule) : Bool :=
  r != .factoryExport && r != .notifyViaDi

/-- Findings as they are in another file. -/
def relocate (file : Path) (found : Except Failure (List Violation)) : Except Failure (List Violation) :=
  found.map (List.map (·.inFile file))

section

variable (ctx : FileContext) (path relative : Path) (isTest : Bool) (f : Focus)

/-! ## Checkers that look at each node by itself -/

theorem TopLevelEffects.findings_elsewhere :
    findings (ctx.elsewhere path relative isTest) f = relocate relative (findings ctx f) := by
  simp only [findings, relocate, Except.map, List.map_filterMap, Option.map_map]
  rfl

theorem ModuleSize.findings_elsewhere (x : ModuleSize) :
    x.findings (ctx.elsewhere path relative isTest) f = relocate relative (x.findings ctx f) := by
  simp only [findings]
  split_ifs <;> rfl

theorem ReadinessGate.findings_elsewhere (x : ReadinessGate) :
    x.findings (ctx.elsewhere path relative isTest) f = relocate relative (x.findings ctx f) := by
  simp only [findings]
  split
  · split_ifs <;> rfl
  · rfl

theorem AnalyticsConsent.findings_elsewhere (x : AnalyticsConsent) :
    x.findings (ctx.elsewhere path relative isTest) f = relocate relative (x.findings ctx f) := by
  have hinitializer : x.initializer? (ctx.elsewhere path relative isTest) f.node = x.initializer? ctx f.node := rfl
  have hgated : x.isGated (ctx.elsewhere path relative isTest) f = x.isGated ctx f := rfl
  unfold findings
  rw [hinitializer, hgated]
  split
  · split_ifs <;> rfl
  · rfl

theorem TrackedListeners.findings_elsewhere (x : TrackedListeners) :
    x.findings (ctx.elsewhere path relative isTest) f = relocate relative (x.findings ctx f) := by
  simp only [findings, relocate, Except.map, List.map_map]
  rfl

theorem NavigationService.findings_elsewhere (x : NavigationService) :
    x.findings (ctx.elsewhere path relative isTest) f = relocate relative (x.findings ctx f) := by
  simp only [findings, relocate, Except.map, List.map_map]
  rfl

theorem ApiClient.findings_elsewhere (x : ApiClient) :
    x.findings (ctx.elsewhere path relative isTest) f = relocate relative (x.findings ctx f) := by
  simp only [findings, relocate, Except.map, List.map_map]
  rfl

theorem NoServiceLocator.findings_elsewhere (x : NoServiceLocator) :
    x.findings (ctx.elsewhere path relative isTest) f = relocate relative (x.findings ctx f) := by
  have hlookup : x.isLookup (ctx.elsewhere path relative isTest) f.node = x.isLookup ctx f.node := rfl
  unfold findings
  rw [hlookup]
  split_ifs <;> rfl

theorem NoSharedStateMutation.findings_elsewhere (x : NoSharedStateMutation) :
    x.findings (ctx.elsewhere path relative isTest) f = relocate relative (x.findings ctx f) := by
  have htarget : target? (ctx.elsewhere path relative isTest) f.node = target? ctx f.node := rfl
  unfold findings
  rw [htarget]
  cases target? ctx f.node with
  | error e => rfl
  | ok target? =>
    simp only [bind, Except.bind, pure, Except.pure, relocate, Except.map, List.map_map]
    rfl

theorem ErrorCapture.findings_elsewhere (x : ErrorCapture) :
    x.findings (ctx.elsewhere path relative isTest) f = relocate relative (x.findings ctx f) := by
  simp only [findings]
  split
  · rfl
  · rfl
  · rename_i body parameter _ _
    have hcaptured : ∀ error, x.isCaptured (ctx.elsewhere path relative isTest) error body =
        x.isCaptured ctx error body := fun _ => rfl
    simp only [FileContext.text_elsewhere, hcaptured]
    split_ifs
    · cases ctx.text parameter with
      | error e => rfl
      | ok error =>
        simp only [bind, Except.bind]
        split_ifs <;> rfl
    · rfl

theorem SanitizeHtml.writeFindings_elsewhere (x : SanitizeHtml) (n : Node) :
    x.writeFindings (ctx.elsewhere path relative isTest) n = (x.writeFindings ctx n).map (·.inFile relative) := by
  have hsafe : x.isSafe (ctx.elsewhere path relative isTest) = x.isSafe ctx := rfl
  have hsink : x.sinkProperty? (ctx.elsewhere path relative isTest) = x.sinkProperty? ctx := rfl
  unfold writeFindings
  rw [hsafe, hsink]
  split
  · split
    · split_ifs <;> rfl
    · rfl
  · rfl

theorem SanitizeHtml.callFindings_elsewhere (x : SanitizeHtml) (n : Node) :
    x.callFindings (ctx.elsewhere path relative isTest) n = (x.callFindings ctx n).map (·.inFile relative) := by
  have hsafe : x.isSafe (ctx.elsewhere path relative isTest) = x.isSafe ctx := rfl
  simp only [callFindings, hsafe]
  split
  · split_ifs <;> rfl
  · rfl

theorem SanitizeHtml.findings_elsewhere (x : SanitizeHtml) :
    x.findings (ctx.elsewhere path relative isTest) f = relocate relative (x.findings ctx f) := by
  unfold findings assignmentFindings
  rw [writeFindings_elsewhere, callFindings_elsewhere, FileContext.text_elsewhere]
  split_ifs
  · rfl
  · split
    · rename_i operator _
      cases ctx.text operator with
      | error e => rfl
      | ok text =>
        simp only [bind, Except.bind]
        split_ifs <;> rfl
    · rfl
  · rfl

/-! ## Checkers that report at the end -/

theorem ListenerCleanup.verdict_elsewhere (x : ListenerCleanup) (seen : Seen) :
    x.verdict (ctx.elsewhere path relative isTest) seen = (x.verdict ctx seen).map (·.inFile relative) := by
  unfold verdict
  split_ifs <;> rfl

theorem EventBus.verdict_elsewhere (x : EventBus) (seen : Seen) :
    x.verdict (ctx.elsewhere path relative isTest) seen = (x.verdict ctx seen).map (·.inFile relative) := by
  unfold verdict
  rw [List.map_map]
  rfl

theorem NotifierMetadata.see_elsewhere (x : NotifierMetadata) (seen : Seen) (n : Node) :
    x.see (ctx.elsewhere path relative isTest) seen n =
      ((x.see ctx seen n).1, (x.see ctx seen n).2.map (·.inFile relative)) := by
  simp only [see]
  split
  · split_ifs
    · rfl
    · rw [List.map_map]
      rfl
    · rfl
  · rfl

theorem NotifierMetadata.verdict_elsewhere (x : NotifierMetadata) (seen : Seen) :
    x.verdict (ctx.elsewhere path relative isTest) seen = (x.verdict ctx seen).map (·.inFile relative) := by
  unfold verdict
  split_ifs <;> rfl

end

/-! ## Browser globals -/

namespace ForbiddenGlobals

variable {x : ForbiddenGlobals} {ctx : FileContext} {path relative : Path} {isTest : Bool} {f : Focus}

theorem rule_of_mem_callFindings {v : Violation} (h : v ∈ x.callFindings ctx f) : v.rule = .notifyViaDi := by
  unfold callFindings at h
  split at h
  · split_ifs at h
    · cases h
    · rw [List.mem_singleton.1 h]
      rfl
  · cases h

/-- What is found at an access by a name that must not be used like this. -/
def useFindings (x : ForbiddenGlobals) (ctx : FileContext) (f : Focus) (name : String) (use : GlobalUse) :
    Except Failure (List Violation) :=
  if x.isExempt ctx use || f.isParameterInScope ctx.source name then return []
  else do
    let message? ← x.memberMessage? ctx f name use
    return message?.toList.map fun message => (ctx.violationAt use.rule f.node message).withHint

theorem rule_of_mem_useFindings {name : String} {use : GlobalUse} {vs : List Violation}
    (h : x.useFindings ctx f name use = .ok vs) : ∀ v ∈ vs, v.rule = use.rule := by
  intro v hv
  unfold useFindings at h
  split_ifs at h
  · cases h
    cases hv
  · obtain ⟨message?, -, h⟩ := Except.bind_eq_ok.1 h
    cases h
    obtain ⟨message, -, rfl⟩ := List.mem_map.1 hv
    rfl

theorem useFindings_elsewhere (name : String) : x.useFindings (ctx.elsewhere path relative isTest) f name .singleton =
    relocate relative (x.useFindings ctx f name .singleton) := by
  have hexempt : ∀ other : FileContext, x.isExempt other .singleton = false := by
    intro other
    rw [isExempt, GlobalUse.rule]
    exact Bool.and_false _
  have hcallee : x.isDialogCallee (ctx.elsewhere path relative isTest) f = x.isDialogCallee ctx f := rfl
  simp only [useFindings, hexempt, Bool.false_or, memberMessage?, hcallee]
  split_ifs <;> rfl

theorem isMirrored_useFindings {name : String} {use : GlobalUse} {vs vs' : List Violation}
    (h : x.useFindings ctx f name use = .ok vs)
    (h' : x.useFindings (ctx.elsewhere path relative isTest) f name use = .ok vs') :
    IsMirrored Rule.isCheckedInTests relative vs vs' := by
  cases use with
  | singleton =>
    rw [useFindings_elsewhere, h] at h'
    cases h'
    exact .of_eq rfl
  | console | dialog =>
    refine .of_hidden (fun v hv => ?_) fun v hv => ?_
    · rw [rule_of_mem_useFindings h v hv]
      rfl
    · rw [rule_of_mem_useFindings h' v hv]
      rfl

theorem isMirrored_memberFindings {vs vs' : List Violation} (h : x.memberFindings ctx f = .ok vs)
    (h' : x.memberFindings (ctx.elsewhere path relative isTest) f = .ok vs') :
    IsMirrored Rule.isCheckedInTests relative vs vs' := by
  have hnothing : (.ok [] : Except Failure (List Violation)) = .ok vs → .ok [] = Except.ok (ε := Failure) vs' →
      IsMirrored Rule.isCheckedInTests relative vs vs' := by
    intro hvs hvs'
    cases hvs
    cases hvs'
    exact .nil
  unfold memberFindings at h h'
  cases hobject : f.node.child? "object" with
  | none =>
    rw [hobject] at h h'
    exact hnothing h h'
  | some object =>
    rw [hobject] at h h'
    by_cases hidentifier : object.kind = "identifier"
    · simp only [hidentifier, beq_self_eq_true, if_true] at h h'
      obtain ⟨name, hname, h⟩ := Except.bind_eq_ok.1 h
      obtain ⟨name', hname', h'⟩ := Except.bind_eq_ok.1 h'
      obtain rfl : name = name' := Except.ok.inj (hname.symm.trans hname')
      cases huse : x.use? name with
      | none =>
        rw [huse] at h h'
        exact hnothing h h'
      | some use =>
        rw [huse] at h h'
        exact isMirrored_useFindings h h'
    · simp only [beq_iff_eq, hidentifier, if_false] at h h'
      exact hnothing h h'

theorem isMirrored_findings {vs vs' : List Violation} (h : x.findings ctx f = .ok vs)
    (h' : x.findings (ctx.elsewhere path relative isTest) f = .ok vs') :
    IsMirrored Rule.isCheckedInTests relative vs vs' := by
  unfold findings at h h'
  generalize f.node.kind = kind at h h'
  split at h
  · exact isMirrored_memberFindings h h'
  · cases h
    cases h'
    refine .of_hidden (fun v hv => ?_) fun v hv => ?_
    · rw [rule_of_mem_callFindings hv]
      rfl
    · rw [rule_of_mem_callFindings hv]
      rfl
  · rename_i hmember hcall
    split at h'
    · exact absurd rfl hmember
    · exact absurd rfl hcall
    · cases h
      cases h'
      exact .nil

end ForbiddenGlobals

/-! ## All checkers -/

namespace Checker

variable {shown : Rule → Bool} {ctx : FileContext} {path relative : Path} {isTest : Bool}

theorem mirrors_of_elsewhere {name : String} {rules : List Rule} {kinds : List String} {below : Visit}
    {findings : FileContext → Focus → Except Failure (List Violation)}
    (h : ∀ f, findings (ctx.elsewhere path relative isTest) f = relocate relative (findings ctx f)) :
    (ofFindings name rules kinds below findings).Mirrors shown ctx (ctx.elsewhere path relative isTest) := by
  refine mirrors_ofFindings fun f vs vs' hvs hvs' => ?_
  rw [h, hvs] at hvs'
  cases hvs'
  exact .of_eq rfl

theorem mirrors_listenerCleanup (x : ListenerCleanup) :
    x.checker.Mirrors shown ctx (ctx.elsewhere path relative isTest) where
  start := rfl
  visit state f k next next' hnext hnext' := ⟨Except.ok.inj (hnext'.symm.trans hnext), .nil⟩
  finish := by
    intro (seen : ListenerCleanup.Seen) k _ _ _ _
    exact ⟨rfl, .of_eq (x.verdict_elsewhere ctx path relative isTest seen)⟩

theorem mirrors_eventBus (x : EventBus) : x.checker.Mirrors shown ctx (ctx.elsewhere path relative isTest) where
  start := rfl
  visit := by
    intro (seen : EventBus.Seen) f k next next' hnext hnext'
    have hnone := Reporting.reports_bind_pure (x.see ctx seen f.node) (·, .enter) k
    exact ⟨Except.ok.inj (hnext'.symm.trans hnext), hnone ▸ .nil⟩
  finish := by
    intro (seen : EventBus.Seen) k _ _ _ _
    exact ⟨rfl, .of_eq (x.verdict_elsewhere ctx path relative isTest seen)⟩

theorem mirrors_notifierMetadata (x : NotifierMetadata) :
    x.checker.Mirrors shown ctx (ctx.elsewhere path relative isTest) where
  start := rfl
  visit := by
    intro (seen : NotifierMetadata.Seen) f k next next' hnext hnext'
    have hsee := x.see_elsewhere ctx path relative isTest seen f.node
    obtain rfl : ((x.see ctx seen f.node).1, Visit.enter) = next := Except.ok.inj hnext
    obtain rfl : ((x.see (ctx.elsewhere path relative isTest) seen f.node).1, Visit.enter) = next' :=
      Except.ok.inj hnext'
    have hreports : IsMirrored shown relative (x.see ctx seen f.node).2
        (x.see (ctx.elsewhere path relative isTest) seen f.node).2 := .of_eq (by rw [hsee])
    exact ⟨by rw [hsee], hreports.append .nil⟩
  finish := by
    intro (seen : NotifierMetadata.Seen) k _ _ _ _
    exact ⟨rfl, .of_eq (x.verdict_elsewhere ctx path relative isTest seen)⟩

/-- A built-in checker with a rule that is checked in tests finds the same about it in another file. -/
theorem mirrors_of_mem_builtin {config : Config} {c : Checker} (h : c ∈ builtin config)
    (hrule : c.rules.any Rule.isCheckedInTests = true) :
    c.Mirrors Rule.isCheckedInTests ctx (ctx.elsewhere path relative isTest) := by
  simp only [builtin, List.mem_cons, List.not_mem_nil, or_false] at h
  rcases h with rfl | rfl | rfl | rfl | rfl | rfl | rfl | rfl | rfl | rfl | rfl | rfl | rfl | rfl | rfl | rfl
  · cases hrule
  · exact mirrors_ofFindings fun _ _ _ => ForbiddenGlobals.isMirrored_findings
  · exact mirrors_of_elsewhere (TopLevelEffects.findings_elsewhere ctx path relative isTest)
  · exact mirrors_listenerCleanup _
  · exact mirrors_of_elsewhere fun f => ErrorCapture.findings_elsewhere ctx path relative isTest f _
  · exact mirrors_of_elsewhere fun f => SanitizeHtml.findings_elsewhere ctx path relative isTest f _
  · exact mirrors_of_elsewhere fun f => ReadinessGate.findings_elsewhere ctx path relative isTest f _
  · exact mirrors_of_elsewhere fun f => NoSharedStateMutation.findings_elsewhere ctx path relative isTest f _
  · exact mirrors_eventBus _
  · exact mirrors_of_elsewhere fun f => NavigationService.findings_elsewhere ctx path relative isTest f _
  · exact mirrors_of_elsewhere fun f => ApiClient.findings_elsewhere ctx path relative isTest f _
  · exact mirrors_of_elsewhere fun f => AnalyticsConsent.findings_elsewhere ctx path relative isTest f _
  · exact mirrors_notifierMetadata _
  · exact mirrors_of_elsewhere fun f => TrackedListeners.findings_elsewhere ctx path relative isTest f _
  · exact mirrors_of_elsewhere fun f => NoServiceLocator.findings_elsewhere ctx path relative isTest f _
  · exact mirrors_of_elsewhere fun f => ModuleSize.findings_elsewhere ctx path relative isTest f _

end Checker
end Guardrails
