import Guardrails.Proofs.Rules.Findings
import Guardrails.Rules.Builtin

/-!
# What the built-in checkers find

None of the built-in checkers asks how much was reported before it, and each stays with its own rules. What
they look for hangs on the options of the configuration alone.
-/

namespace Guardrails

open FileContext

/-! ## Whole modules -/

namespace TopLevelEffects

theorem buildsAll_findings {ctx : FileContext} {f : Focus} {vs : List Violation}
    (h : findings ctx f = .ok vs) : ctx.BuildsAll [.noTopLevelSideEffects] f.IsNear vs := by
  intro v hv
  cases h
  obtain ⟨statement, hstatement, heffect⟩ := List.mem_filterMap.1 hv
  obtain ⟨message, -, rfl⟩ := Option.map_eq_some_iff.1 heffect
  exact .atNode message (by simp) (.inr (Node.mem_children_of_mem_namedChildren hstatement))

end TopLevelEffects

namespace ModuleSize

theorem buildsAll_findings {x : ModuleSize} {ctx : FileContext} {f : Focus} {vs : List Violation}
    (h : x.findings ctx f = .ok vs) : ctx.BuildsAll [.moduleSize] f.IsNear vs := by
  cases h
  split_ifs
  · exact .ofFile _ _ (by simp)
  · exact .nil

end ModuleSize

/-! ## Startup -/

namespace ReadinessGate

theorem buildsAll_findings {x : ReadinessGate} {ctx : FileContext} {f : Focus} {vs : List Violation}
    (h : x.findings ctx f = .ok vs) : ctx.BuildsAll [.readinessGate] f.IsNear vs := by
  cases h
  split
  · split_ifs
    · exact .atNode _ (by simp) f.isNear_node
    · exact .nil
  · exact .nil

end ReadinessGate

namespace AnalyticsConsent

theorem buildsAll_findings {x : AnalyticsConsent} {ctx : FileContext} {f : Focus} {vs : List Violation}
    (h : x.findings ctx f = .ok vs) : ctx.BuildsAll [.analyticsConsent] f.IsNear vs := by
  cases h
  split
  · split_ifs
    · exact .nil
    · exact .atNode _ (by simp) f.isNear_node
  · exact .nil

end AnalyticsConsent

/-! ## Listeners -/

namespace TrackedListeners

theorem buildsAll_findings {x : TrackedListeners} {ctx : FileContext} {f : Focus} {vs : List Violation}
    (h : x.findings ctx f = .ok vs) : ctx.BuildsAll [.trackedListeners] f.IsNear vs := by
  cases h
  exact .map _ (by simp) f.isNear_node

end TrackedListeners

/-! ## Services -/

namespace NavigationService

theorem buildsAll_findings {x : NavigationService} {ctx : FileContext} {f : Focus} {vs : List Violation}
    (h : x.findings ctx f = .ok vs) : ctx.BuildsAll [.navigationService] f.IsNear vs := by
  cases h
  exact .map id (by simp) f.isNear_node

end NavigationService

namespace ApiClient

theorem buildsAll_findings {x : ApiClient} {ctx : FileContext} {f : Focus} {vs : List Violation}
    (h : x.findings ctx f = .ok vs) : ctx.BuildsAll [.apiClient] f.IsNear vs := by
  cases h
  exact .map _ (by simp) f.isNear_node

end ApiClient

namespace NoServiceLocator

theorem buildsAll_findings {x : NoServiceLocator} {ctx : FileContext} {f : Focus} {vs : List Violation}
    (h : x.findings ctx f = .ok vs) : ctx.BuildsAll [.noServiceLocator] f.IsNear vs := by
  cases h
  split_ifs
  · exact .atNode _ (by simp) f.isNear_node
  · exact .nil

end NoServiceLocator

/-! ## Shared state -/

namespace NoSharedStateMutation

theorem buildsAll_findings {x : NoSharedStateMutation} {ctx : FileContext} {f : Focus}
    {vs : List Violation} (h : x.findings ctx f = .ok vs) :
    ctx.BuildsAll [.noSharedStateMutation] f.IsNear vs := by
  obtain ⟨target?, -, h⟩ := Except.bind_eq_ok.1 h
  cases h
  exact .map _ (by simp) f.isNear_node

end NoSharedStateMutation

/-! ## Caught errors -/

namespace ErrorCapture

theorem buildsAll_findings {x : ErrorCapture} {ctx : FileContext} {f : Focus} {vs : List Violation}
    (h : x.findings ctx f = .ok vs) : ctx.BuildsAll [.errorCapture] f.IsNear vs := by
  simp only [findings] at h
  split at h
  · cases h
  · cases h
    exact .atNode _ (by simp) f.isNear_node
  · rename_i body parameter hbody hparameter
    split_ifs at h
    · obtain ⟨error, -, h⟩ := Except.bind_eq_ok.1 h
      cases h
      split_ifs
      · exact .nil
      · exact .atNode _ (by simp) f.isNear_node
    · cases h
      exact .atNode _ (by simp) (Focus.isNear_of_child? hparameter)

end ErrorCapture

/-! ## Markup -/

namespace SanitizeHtml

theorem buildsAll_writeFindings (x : SanitizeHtml) (ctx : FileContext) {near : Node → Prop} {n : Node}
    (hn : near n) : ctx.BuildsAll [.sanitizeHtml] near (x.writeFindings ctx n) := by
  unfold writeFindings
  split
  · split
    · split_ifs
      · exact .nil
      · exact .atNode _ (by simp) hn
    · exact .nil
  · exact .nil

theorem buildsAll_callFindings (x : SanitizeHtml) (ctx : FileContext) {near : Node → Prop} {n : Node}
    (hn : near n) : ctx.BuildsAll [.sanitizeHtml] near (x.callFindings ctx n) := by
  unfold callFindings
  split
  · split_ifs
    · exact .nil
    · exact .atNode _ (by simp) hn
  · exact .nil

theorem buildsAll_findings {x : SanitizeHtml} {ctx : FileContext} {f : Focus} {vs : List Violation}
    (h : x.findings ctx f = .ok vs) : ctx.BuildsAll [.sanitizeHtml] f.IsNear vs := by
  unfold findings assignmentFindings at h
  split_ifs at h
  · cases h
    exact x.buildsAll_callFindings ctx f.isNear_node
  · split at h
    · obtain ⟨text, -, h⟩ := Except.bind_eq_ok.1 h
      cases h
      split_ifs
      · exact x.buildsAll_writeFindings ctx f.isNear_node
      · exact .nil
    · cases h
  · cases h
    exact x.buildsAll_writeFindings ctx f.isNear_node

end SanitizeHtml

/-! ## Browser globals -/

namespace ForbiddenGlobals

theorem rule_mem (use : GlobalUse) : use.rule ∈ [Rule.noGlobalAccess, .notifyViaDi] := by
  cases use <;> simp [GlobalUse.rule]

theorem buildsAll_memberFindings {x : ForbiddenGlobals} {ctx : FileContext} {f : Focus}
    {vs : List Violation} (h : x.memberFindings ctx f = .ok vs) :
    ctx.BuildsAll [.noGlobalAccess, .notifyViaDi] f.IsNear vs := by
  unfold memberFindings at h
  split at h
  · split_ifs at h
    · obtain ⟨name, -, h⟩ := Except.bind_eq_ok.1 h
      split at h
      · rename_i use huse
        split_ifs at h
        · cases h
          exact .nil
        · obtain ⟨message?, -, h⟩ := Except.bind_eq_ok.1 h
          cases h
          exact .map id (rule_mem use) f.isNear_node
      · cases h
        exact .nil
    · cases h
      exact .nil
  · cases h
    exact .nil

theorem buildsAll_callFindings (x : ForbiddenGlobals) (ctx : FileContext) (f : Focus) :
    ctx.BuildsAll [.noGlobalAccess, .notifyViaDi] f.IsNear (x.callFindings ctx f) := by
  unfold callFindings
  split
  · split_ifs
    · exact .nil
    · exact .atNode _ (by simp) f.isNear_node
  · exact .nil

theorem buildsAll_findings {x : ForbiddenGlobals} {ctx : FileContext} {f : Focus} {vs : List Violation}
    (h : x.findings ctx f = .ok vs) :
    ctx.BuildsAll [.noGlobalAccess, .notifyViaDi] f.IsNear vs := by
  unfold findings at h
  split at h
  · exact buildsAll_memberFindings h
  · cases h
    exact x.buildsAll_callFindings ctx f
  · cases h
    exact .nil

end ForbiddenGlobals

/-! ## Checkers that report at the end -/

namespace FactoryExport

theorem buildsAll_verdict (x : FactoryExport) (ctx : FileContext) (found : Found) :
    ctx.BuildsAll [.factoryExport] (· ∈ found.candidates.map (·.nameNode)) (x.verdict ctx found) := by
  simp only [verdict]
  split_ifs
  · exact .nil
  · split
    · exact .ofFile _ _ (by simp)
    · rename_i c rest hexported
      have hc : c ∈ found.exported := hexported ▸ List.mem_cons_self
      exact .atNode _ (by simp) (List.mem_map_of_mem (List.mem_of_mem_filter hc))

theorem nameNode_of_mem_record {found : Found} {name : String} {nameNode function n : Node}
    {isExported : Bool}
    (h : n ∈ (found.record name nameNode function isExported).candidates.map (·.nameNode)) :
    n ∈ found.candidates.map (·.nameNode) ∨ n = nameNode := by
  unfold Found.record at h
  split_ifs at h
  · simp only [List.map_map] at h
    obtain ⟨c, hc, rfl⟩ := List.mem_map.1 h
    refine .inl (List.mem_map.2 ⟨c, hc, ?_⟩)
    simp only [Function.comp_apply]
    split_ifs <;> rfl
  · rw [List.map_append, List.mem_append] at h
    exact h.imp_right List.mem_singleton.1

theorem nameNode_of_recordNode {x : FactoryExport} {ctx : FileContext} {found next : Found}
    {nameNode function n : Node} {isExported : Bool}
    (h : x.recordNode ctx found nameNode function isExported = .ok next)
    (hn : n ∈ next.candidates.map (·.nameNode)) :
    n ∈ found.candidates.map (·.nameNode) ∨ n = nameNode := by
  obtain ⟨name, -, h⟩ := Except.bind_eq_ok.1 h
  cases h
  split_ifs at hn
  · exact nameNode_of_mem_record hn
  · exact .inl hn

theorem nameNode_of_visitNode {x : FactoryExport} {ctx : FileContext} {found next : Found} {f : Focus}
    {n : Node} (h : x.visitNode ctx found f = .ok next) (hn : n ∈ next.candidates.map (·.nameNode)) :
    n ∈ found.candidates.map (·.nameNode) ∨ f.IsNear n := by
  simp only [visitNode] at h
  split at h
  · obtain ⟨names, -, h⟩ := Except.bind_eq_ok.1 h
    cases h
    exact .inl hn
  · split at h
    · rename_i hname
      refine (nameNode_of_recordNode h hn).imp_right ?_
      rintro rfl
      exact Focus.isNear_of_child? hname
    · cases h
    · cases h
      exact .inl hn
  · split at h
    · rename_i hname _
      split_ifs at h
      · refine (nameNode_of_recordNode h hn).imp_right ?_
        rintro rfl
        exact Focus.isNear_of_child? hname
      · cases h
        exact .inl hn
    · cases h
      exact .inl hn
  · cases h
    exact .inl hn

theorem onlyReports (x : FactoryExport) : x.checker.OnlyReports where
  visit := by
    intro ctx found f k l
    simp only [checker]
    split_ifs
    · rfl
    · exact Reporting.bind_pure_steady (x.visitNode ctx found f) (·, .enter) k l
  finish _ _ _ _ := rfl

theorem holds (x : FactoryExport) : x.checker.Holds fun found => found.candidates.map (·.nameNode) where
  start := by
    intro ctx found h
    cases h
    rfl
  visit := by
    intro ctx found f k
    simp only [checker]
    split_ifs
    · exact .nil
    · rw [Reporting.reports_bind_pure (x.visitNode ctx found f) (·, .enter) k]
      exact .nil
  keeps := by
    intro ctx found f k next below h n hn
    simp only [checker] at h
    split_ifs at h
    · cases h
      exact .inl hn
    · obtain ⟨state, hvisit, heq⟩ := Reporting.result_bind_pure h
      cases heq
      exact nameNode_of_visitNode hvisit hn
  finish := by
    intro ctx found k
    simp only [checker, Reply.report]
    split_ifs
    · exact .nil
    · exact x.buildsAll_verdict ctx found

end FactoryExport

namespace ListenerCleanup

theorem buildsAll_verdict (x : ListenerCleanup) (ctx : FileContext) (seen : Seen)
    (near : Node → Prop) : ctx.BuildsAll [.listenerCleanup] near (x.verdict ctx seen) := by
  unfold verdict
  split_ifs
  · exact .ofFile _ _ (by simp)
  · exact .nil

theorem onlyReports (x : ListenerCleanup) : x.checker.OnlyReports :=
  ⟨fun _ _ _ _ _ => rfl, fun _ _ _ _ => rfl⟩

theorem holds (x : ListenerCleanup) : x.checker.Holds fun _ => [] where
  start _ _ _ := rfl
  visit _ _ _ _ := .nil
  keeps _ _ _ _ _ _ _ _ hn := absurd hn List.not_mem_nil
  finish ctx seen _ := x.buildsAll_verdict ctx seen _

end ListenerCleanup

namespace EventBus

theorem buildsAll_verdict (x : EventBus) (ctx : FileContext) (seen : Seen) :
    ctx.BuildsAll [.eventBus] (· ∈ seen.events.map (·.call)) (x.verdict ctx seen) := by
  intro v hv
  obtain ⟨event, hevent, rfl⟩ := List.mem_map.1 hv
  exact .atNode _ (by simp) (List.mem_map_of_mem (List.mem_of_mem_filter hevent))

theorem call_of_see {x : EventBus} {ctx : FileContext} {seen next : Seen} {n call : Node}
    (h : x.see ctx seen n = .ok next) (hcall : call ∈ next.events.map (·.call)) :
    call ∈ seen.events.map (·.call) ∨ call = n := by
  have hbus : ∀ holder?, seeBus ctx seen holder? = .ok next → next.events = seen.events := by
    intro holder? hsee
    cases holder? with
    | none =>
      cases hsee
      rfl
    | some holder =>
      obtain ⟨text, -, hsee⟩ := Except.bind_eq_ok.1 hsee
      cases hsee
      rfl
  unfold see at h
  split at h
  · exact .inl (hbus _ h ▸ hcall)
  · exact .inl (hbus _ h ▸ hcall)
  · unfold seeCall at h
    split at h
    · split_ifs at h
      · split at h
        · obtain ⟨text, -, h⟩ := Except.bind_eq_ok.1 h
          cases h
          rw [List.map_append, List.mem_append] at hcall
          exact hcall.imp_right List.mem_singleton.1
        · cases h
      · cases h
        exact .inl hcall
    · cases h
      exact .inl hcall
  · cases h
    exact .inl hcall

theorem onlyReports (x : EventBus) : x.checker.OnlyReports where
  visit ctx seen f k l := Reporting.bind_pure_steady (x.see ctx seen f.node) (·, .enter) k l
  finish _ _ _ _ := rfl

theorem holds (x : EventBus) : x.checker.Holds fun seen => seen.events.map (·.call) where
  start := by
    intro ctx seen h
    cases h
    rfl
  visit := by
    intro ctx seen f k
    have hnone := Reporting.reports_bind_pure (x.see ctx seen f.node) (·, .enter) k
    exact hnone ▸ .nil
  keeps := by
    intro ctx seen f k next below h n hn
    obtain ⟨state, hsee, heq⟩ := Reporting.result_bind_pure h
    cases heq
    refine (call_of_see hsee hn).imp_right ?_
    rintro rfl
    exact f.isNear_node
  finish ctx seen _ := x.buildsAll_verdict ctx seen

end EventBus

namespace NotifierMetadata

theorem buildsAll_see (x : NotifierMetadata) (ctx : FileContext) (seen : Seen) (f : Focus) :
    ctx.BuildsAll [.notifierMetadata] f.IsNear (x.see ctx seen f.node).2 := by
  simp only [see]
  split
  · split_ifs
    · exact .nil
    · exact .map id (by simp) f.isNear_node
    · exact .nil
  · exact .nil

theorem buildsAll_verdict (x : NotifierMetadata) (ctx : FileContext) (seen : Seen)
    (near : Node → Prop) : ctx.BuildsAll [.notifierMetadata] near (x.verdict ctx seen) := by
  unfold verdict
  split_ifs
  · exact .ofFile _ _ (by simp)
  · exact .nil

theorem onlyReports (x : NotifierMetadata) : x.checker.OnlyReports :=
  ⟨fun _ _ _ _ _ => rfl, fun _ _ _ _ => rfl⟩

theorem holds (x : NotifierMetadata) : x.checker.Holds fun _ => [] where
  start _ _ _ := rfl
  visit := by
    intro ctx seen f k v hv
    have hfound : v ∈ (x.see ctx seen f.node).2 ++ [] := hv
    rw [List.append_nil] at hfound
    exact x.buildsAll_see ctx seen f v hfound
  keeps _ _ _ _ _ _ _ _ hn := absurd hn List.not_mem_nil
  finish ctx seen _ := x.buildsAll_verdict ctx seen _

end NotifierMetadata

/-! ## All checkers -/

namespace Checker

theorem forall_builtin {P : Checker → Prop} (config : Config)
    (hfindings : ∀ {name rules kinds below findings},
      (∀ ctx f vs, findings ctx f = .ok vs → ctx.BuildsAll rules f.IsNear vs) →
        P (ofFindings name rules kinds below findings))
    (hfactory : ∀ x : FactoryExport, P x.checker) (hlisteners : ∀ x : ListenerCleanup, P x.checker)
    (hevents : ∀ x : EventBus, P x.checker) (hnotifier : ∀ x : NotifierMetadata, P x.checker) :
    ∀ c ∈ builtin config, P c := by
  intro c h
  simp only [builtin, List.mem_cons, List.not_mem_nil, or_false] at h
  rcases h with rfl | rfl | rfl | rfl | rfl | rfl | rfl | rfl | rfl | rfl | rfl | rfl | rfl | rfl | rfl | rfl
  · exact hfactory _
  · exact hfindings fun _ _ _ => ForbiddenGlobals.buildsAll_findings
  · exact hfindings fun _ _ _ => TopLevelEffects.buildsAll_findings
  · exact hlisteners _
  · exact hfindings fun _ _ _ => ErrorCapture.buildsAll_findings
  · exact hfindings fun _ _ _ => SanitizeHtml.buildsAll_findings
  · exact hfindings fun _ _ _ => ReadinessGate.buildsAll_findings
  · exact hfindings fun _ _ _ => NoSharedStateMutation.buildsAll_findings
  · exact hevents _
  · exact hfindings fun _ _ _ => NavigationService.buildsAll_findings
  · exact hfindings fun _ _ _ => ApiClient.buildsAll_findings
  · exact hfindings fun _ _ _ => AnalyticsConsent.buildsAll_findings
  · exact hnotifier _
  · exact hfindings fun _ _ _ => TrackedListeners.buildsAll_findings
  · exact hfindings fun _ _ _ => NoServiceLocator.buildsAll_findings
  · exact hfindings fun _ _ _ => ModuleSize.buildsAll_findings

/-- A built-in checker builds its violations at the nodes it was handed, or right below them. -/
theorem exists_holds_of_mem_builtin {config : Config} {c : Checker} (h : c ∈ builtin config) :
    ∃ held, c.Holds held :=
  forall_builtin (P := fun c => ∃ held, c.Holds held) config (fun hbuilds => ⟨_, holds_ofFindings hbuilds⟩)
    (fun x => ⟨_, x.holds⟩) (fun x => ⟨_, x.holds⟩) (fun x => ⟨_, x.holds⟩) (fun x => ⟨_, x.holds⟩) c h

theorem isSelfContained_of_mem_builtin {config : Config} {c : Checker} (h : c ∈ builtin config) :
    c.IsSelfContained where
  onlyReports := forall_builtin (P := OnlyReports) config (fun _ => onlyReports_ofFindings _ _ _ _ _)
    FactoryExport.onlyReports ListenerCleanup.onlyReports EventBus.onlyReports NotifierMetadata.onlyReports c h
  reportsOwn := by
    obtain ⟨held, hheld⟩ := exists_holds_of_mem_builtin h
    exact hheld.reportsOwn

theorem nodup_name_builtin (config : Config) : ((builtin config).map (·.name)).Nodup := by
  change (["factory-export", "forbidden-globals", "no-top-level-side-effects", "listener-cleanup",
    "error-capture", "sanitize-html", "readiness-gate", "no-shared-state-mutation", "event-bus",
    "navigation-service", "api-client", "analytics-consent", "notifier-metadata", "tracked-listeners",
    "no-service-locator", "module-size"] : List String).Nodup
  decide

/-- The built-in checkers see nothing of a configuration but the options of the rules. -/
theorem builtin_congr {config config' : Config}
    (h : ∀ r key, (config'.options r).option? key = (config.options r).option? key) :
    builtin config' = builtin config := by
  simp only [builtin, FactoryExport.ofConfig, ForbiddenGlobals.ofConfig, ListenerCleanup.ofConfig,
    ErrorCapture.ofConfig, SanitizeHtml.ofConfig, ReadinessGate.ofConfig, NoSharedStateMutation.ofConfig,
    EventBus.ofConfig, NavigationService.ofConfig, ApiClient.ofConfig, AnalyticsConsent.ofConfig,
    NotifierMetadata.ofConfig, TrackedListeners.ofConfig, NoServiceLocator.ofConfig, ModuleSize.ofConfig,
    RuleSection.flag, RuleSection.count, RuleSection.names, h]

end Checker

end Guardrails
