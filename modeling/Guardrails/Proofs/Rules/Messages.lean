import Guardrails.Proofs.Rules.Builtin
import Guardrails.Proofs.Rules.Quoting
import Guardrails.Proofs.Walk.Attribution

/-!
# Messages on one line

Whatever a built-in checker reports is shown on one line, where the options are on one line each and the tree has
nothing to quote that is longer. Two of the checkers keep texts of the source until they are done with a file; these
texts are on one line all the while.
-/

namespace Guardrails

/-! ## Checkers that look at each node by itself -/

section

variable {config : Config} {ctx : FileContext} {f : Focus} {vs : List Violation}

theorem TopLevelEffects.isOneLine_effect? {statement : Node} {message : String}
    (h : effect? statement = some message) : IsOneLine message := by
  unfold effect? at h
  split_ifs at h
  · cases h
    decide
  · cases h
    unfold statementMessage
    split <;> decide

theorem TopLevelEffects.areOneLine_findings (hfile : IsOneLine ctx.relative.spelling)
    (h : findings ctx f = .ok vs) : AreOneLine vs := by
  intro v hv
  cases h
  obtain ⟨statement, -, heffect⟩ := List.mem_filterMap.1 hv
  obtain ⟨message, hmessage, rfl⟩ := Option.map_eq_some_iff.1 heffect
  exact AreOneLine.atNode hfile (isOneLine_effect? hmessage) _ List.mem_cons_self

theorem ModuleSize.areOneLine_findings {x : ModuleSize} (hfile : IsOneLine ctx.relative.spelling)
    (h : x.findings ctx f = .ok vs) : AreOneLine vs := by
  cases h
  split_ifs
  · refine .ofFile hfile ?_
    simp +decide only [isOneLine_append, isOneLine_toString, and_true]
  · exact .nil

theorem NavigationService.isOneLine_of_hit? {patterns : List String} {target? : Option Node} {pattern : String}
    (hpatterns : ∀ p ∈ patterns, IsOneLine p) (h : target?.bind (hit? ctx patterns) = some pattern) :
    IsOneLine pattern := by
  obtain ⟨target, -, hfound⟩ := Option.bind_eq_some_iff.1 h
  exact hpatterns pattern (List.mem_of_find?_eq_some hfound)

theorem NavigationService.isOneLine_message? {n : Node} {message : String}
    (hconfig : config.HasOneLineOptions) (h : (ofConfig config).message? ctx n = some message) :
    IsOneLine message := by
  have hassigned : ∀ p ∈ (ofConfig config).assigned, IsOneLine p :=
    (hconfig .navigationService).names (by decide)
  have hcalls : ∀ p ∈ (ofConfig config).calls, IsOneLine p :=
    (hconfig .navigationService).names (by decide)
  unfold message? at h
  split_ifs at h
  · obtain ⟨pattern, hpattern, rfl⟩ := Option.map_eq_some_iff.1 h
    exact .between (by decide) (isOneLine_of_hit? hassigned hpattern) (by decide)
  · obtain ⟨pattern, hpattern, rfl⟩ := Option.map_eq_some_iff.1 h
    exact .between (by decide) (isOneLine_of_hit? hcalls hpattern) (by decide)

theorem ApiClient.isOneLine_access? {n : Node} {access : String}
    (hconfig : config.HasOneLineOptions) (h : (ofConfig config).access? ctx n = some access) :
    IsOneLine access := by
  have hfunctions : ∀ name ∈ (ofConfig config).functions, IsOneLine name :=
    (hconfig .apiClient).names (by decide)
  have hlibraries : ∀ name ∈ (ofConfig config).libraries, IsOneLine name :=
    (hconfig .apiClient).names (by decide)
  have hconstructors : ∀ name ∈ (ofConfig config).constructors, IsOneLine name :=
    (hconfig .apiClient).names (by decide)
  unfold access? at h
  split_ifs at h
  · obtain ⟨function, -, hcall⟩ := Option.bind_eq_some_iff.1 h
    unfold directCall? at hcall
    split at hcall
    · rename_i name hname
      cases hcall
      exact isOneLine_append.2 ⟨isOneLine_of_filter hfunctions hname, by decide⟩
    · obtain ⟨path, -, hcall⟩ := Option.bind_eq_some_iff.1 hcall
      obtain ⟨root, -, hcall⟩ := Option.bind_eq_some_iff.1 hcall
      obtain ⟨hlisted, heq⟩ := Option.ite_none_right_eq_some.1 hcall
      cases heq
      exact isOneLine_append.2 ⟨hlibraries root (List.contains_iff_mem.1 hlisted), by decide⟩
  · obtain ⟨constructor, -, hmade⟩ := Option.bind_eq_some_iff.1 h
    obtain ⟨name, hname, rfl⟩ := Option.map_eq_some_iff.1 hmade
    exact .between (by decide) (isOneLine_of_filter hconstructors hname) (by decide)

section

variable (hconfig : config.HasOneLineOptions) (hfile : IsOneLine ctx.relative.spelling)
include hconfig hfile

theorem ReadinessGate.areOneLine_findings (h : (ofConfig config).findings ctx f = .ok vs) : AreOneLine vs := by
  have hnames : ∀ name ∈ (ofConfig config).startupNames, IsOneLine name :=
    (hconfig .readinessGate).names (by decide)
  have hapis : ∀ name ∈ (ofConfig config).readinessApis, IsOneLine name :=
    (hconfig .readinessGate).names (by decide)
  cases h
  split
  · rename_i name hname
    split_ifs
    · refine .atNode hfile (.between (.between (by decide) ?_ (by decide)) ?_ (by decide))
      · exact isOneLine_of_filter hnames hname
      · exact isOneLine_intercalate (by decide) hapis
    · exact .nil
  · exact .nil

theorem AnalyticsConsent.areOneLine_findings (h : (ofConfig config).findings ctx f = .ok vs) : AreOneLine vs := by
  have hnames : ∀ name ∈ (ofConfig config).initializers, IsOneLine name :=
    (hconfig .analyticsConsent).names (by decide)
  cases h
  split
  · rename_i name hname
    obtain ⟨function, -, hfound⟩ := Option.bind_eq_some_iff.1 hname
    split_ifs
    · exact .nil
    · exact .atNode hfile (.between (by decide) (hnames name (List.mem_of_find?_eq_some hfound)) (by decide))
  · exact .nil

theorem TrackedListeners.areOneLine_findings (h : (ofConfig config).findings ctx f = .ok vs) : AreOneLine vs := by
  have hnames : ∀ name ∈ (ofConfig config).methods, IsOneLine name :=
    (hconfig .trackedListeners).names (by decide)
  cases h
  refine .map _ hfile fun method hmethod => ?_
  exact .between (by decide) (isOneLine_of_filter hnames (Option.mem_toList.1 hmethod)) (by decide)

theorem NavigationService.areOneLine_findings (h : (ofConfig config).findings ctx f = .ok vs) : AreOneLine vs := by
  cases h
  exact .map _ hfile fun message hmessage => isOneLine_message? hconfig (Option.mem_toList.1 hmessage)

theorem ApiClient.areOneLine_findings (h : (ofConfig config).findings ctx f = .ok vs) : AreOneLine vs := by
  cases h
  refine .map _ hfile fun access haccess => isOneLine_append.2 ⟨by decide, ?_⟩
  exact isOneLine_access? hconfig (Option.mem_toList.1 haccess)

theorem NoSharedStateMutation.areOneLine_findings (h : (ofConfig config).findings ctx f = .ok vs) :
    AreOneLine vs := by
  have hroots : ∀ root ∈ (ofConfig config).roots, IsOneLine root :=
    (hconfig .noSharedStateMutation).names (by decide)
  obtain ⟨target?, -, h⟩ := Except.bind_eq_ok.1 h
  cases h
  refine .map _ hfile fun root hroot => ?_
  obtain ⟨path, -, hfound⟩ := Option.bind_eq_some_iff.1 (Option.mem_toList.1 hroot)
  exact .between (by decide) (hroots root (List.mem_of_find?_eq_some hfound)) (by decide)

theorem SanitizeHtml.areOneLine_writeFindings (n : Node) : AreOneLine ((ofConfig config).writeFindings ctx n) := by
  have hsinks : ∀ name ∈ (ofConfig config).sinks, IsOneLine name :=
    (hconfig .sanitizeHtml).names (by decide)
  unfold writeFindings
  split
  · split
    · rename_i property hproperty
      split_ifs
      · exact .nil
      · exact .atNode hfile (.between (by decide) (isOneLine_of_filter hsinks hproperty) (by decide))
    · exact .nil
  · exact .nil

theorem SanitizeHtml.areOneLine_callFindings (n : Node) : AreOneLine ((ofConfig config).callFindings ctx n) := by
  have hmethods : ∀ name ∈ (ofConfig config).sinkMethods, IsOneLine name :=
    (hconfig .sanitizeHtml).names (by decide)
  unfold callFindings
  split
  · rename_i method html hmethod hhtml
    split_ifs
    · exact .nil
    · exact .atNode hfile (.between (by decide) (isOneLine_of_filter hmethods hmethod) (by decide))
  · exact .nil

theorem SanitizeHtml.areOneLine_findings (h : (ofConfig config).findings ctx f = .ok vs) : AreOneLine vs := by
  unfold findings assignmentFindings at h
  split_ifs at h
  · cases h
    exact areOneLine_callFindings hconfig hfile f.node
  · split at h
    · obtain ⟨text, -, h⟩ := Except.bind_eq_ok.1 h
      cases h
      split_ifs
      · exact areOneLine_writeFindings hconfig hfile f.node
      · exact .nil
    · cases h
  · cases h
    exact areOneLine_writeFindings hconfig hfile f.node

end

section

variable (hfile : IsOneLine ctx.relative.spelling) (htree : f.node.Throughout (ctx.FitsLine config))
include hfile htree

theorem ErrorCapture.areOneLine_findings (h : (ofConfig config).findings ctx f = .ok vs) : AreOneLine vs := by
  simp only [findings] at h
  split at h
  · cases h
  · cases h
    exact .atNode hfile (by decide)
  · rename_i body parameter hbody hparameter
    split_ifs at h with hkind
    · obtain ⟨error, herror, h⟩ := Except.bind_eq_ok.1 h
      cases h
      split_ifs
      · exact .nil
      · have hname : parameter.kind ∈ Node.nameKinds := by simp [eq_of_beq hkind, Node.nameKinds]
        have hone := FileContext.isOneLine_of_text (htree.of_child? hparameter) hname herror
        exact .atNode hfile (.between (by decide) hone (by decide))
    · cases h
      exact .atNode hfile (by decide)

theorem NoServiceLocator.areOneLine_findings (h : (ofConfig config).findings ctx f = .ok vs) : AreOneLine vs := by
  cases h
  split_ifs with hlookup
  · refine .atNode hfile ?_
    unfold message
    split
    · rename_i name hname
      have hquoted := htree.self.quotes.service hlookup name hname
      exact isOneLine_append.2 ⟨by decide, .between (by decide) hquoted (by decide)⟩
    · decide
  · exact .nil

omit hfile in
theorem ForbiddenGlobals.isOneLine_memberMessage? {object : Node} {name message : String} {use : GlobalUse}
    (hkind : f.node.kind = "member_expression") (hobject : f.node.child? "object" = some object)
    (hidentifier : (object.kind == "identifier") = true) (hname : ctx.text object = .ok name)
    (huse : (ofConfig config).use? name = some use)
    (h : (ofConfig config).memberMessage? ctx f name use = .ok (some message)) : IsOneLine message := by
  cases use with
  | singleton =>
    have hkind' := Node.mem_nameKinds_of_identifier hidentifier
    have hone := FileContext.isOneLine_of_text (htree.of_child? hobject) hkind' hname
    obtain heq := Except.ok.inj h
    split_ifs at heq
    cases heq
    exact .between (by decide) hone (by decide)
  | console =>
    obtain ⟨text, htext, heq⟩ := Except.bind_eq_ok.1 h
    cases heq
    rw [← FileContext.textOf_of_text hname] at huse
    have hquoted := htree.self.quotes.console hkind object hobject (eq_of_beq hidentifier) huse
    rw [FileContext.textOf, FileContext.textOf_of_text htext] at hquoted
    exact .between (by decide) hquoted (by decide)
  | dialog => cases h

theorem ForbiddenGlobals.areOneLine_memberFindings (hkind : f.node.kind = "member_expression")
    (h : (ofConfig config).memberFindings ctx f = .ok vs) : AreOneLine vs := by
  unfold memberFindings at h
  split at h
  · rename_i object hobject
    split_ifs at h with hidentifier
    · obtain ⟨name, hname, h⟩ := Except.bind_eq_ok.1 h
      split at h
      · rename_i use huse
        split_ifs at h
        · cases h
          exact .nil
        · obtain ⟨message?, hmessage, h⟩ := Except.bind_eq_ok.1 h
          cases h
          refine AreOneLine.map id hfile fun message hmem => ?_
          rw [Option.mem_toList.1 hmem] at hmessage
          exact isOneLine_memberMessage? htree hkind hobject hidentifier hname huse hmessage
      · cases h
        exact .nil
    · cases h
      exact .nil
  · cases h
    exact .nil

theorem ForbiddenGlobals.areOneLine_callFindings : AreOneLine ((ofConfig config).callFindings ctx f) := by
  unfold callFindings
  split
  · rename_i name hname
    obtain ⟨function, hfunction, hdialog⟩ := Option.bind_eq_some_iff.1 hname
    have hmem : name ∈ function.accessTail ctx.source := by
      unfold dialogName? at hdialog
      split at hdialog
      · rename_i only htail
        split_ifs at hdialog
        cases hdialog
        simp [htail]
      · rename_i receiver last htail
        split_ifs at hdialog
        cases hdialog
        simp [htail]
      · cases hdialog
    split_ifs
    · exact .nil
    · have hone := Node.isOneLine_of_mem_accessTail (htree.of_child? hfunction) hmem
      exact .atNode hfile (.between (by decide) hone (by decide))
  · exact .nil

theorem ForbiddenGlobals.areOneLine_findings (h : (ofConfig config).findings ctx f = .ok vs) : AreOneLine vs := by
  unfold findings at h
  split at h
  · rename_i hkind
    exact areOneLine_memberFindings hfile htree hkind h
  · cases h
    exact areOneLine_callFindings hfile htree
  · cases h
    exact .nil

end

end

/-! ## Checkers that report at the end -/

section

variable {config : Config} {ctx : FileContext}

namespace FactoryExport

/-- Whether the names of all candidates are on one line. -/
def Found.IsOneLine (found : Found) : Prop :=
  ∀ c ∈ found.candidates, Guardrails.IsOneLine c.name

theorem Found.IsOneLine.record {found : Found} {name : String} {nameNode function : Node} {isExported : Bool}
    (h : found.IsOneLine) (hname : Guardrails.IsOneLine name) :
    (found.record name nameNode function isExported).IsOneLine := by
  intro c hc
  unfold Found.record at hc
  split_ifs at hc
  · obtain ⟨old, hold, rfl⟩ := List.mem_map.1 hc
    have hsame : (if old.name == name && isExported then { old with isExported := true } else old).name = old.name := by
      split_ifs <;> rfl
    rw [hsame]
    exact h old hold
  · rcases List.mem_append.1 hc with hc | hc
    · exact h c hc
    · rw [List.mem_singleton.1 hc]
      exact hname

theorem isOneLine_recordNode {x : FactoryExport} {found next : Found} {nameNode function : Node} {isExported : Bool}
    (hfound : found.IsOneLine) (hname : nameNode.Throughout (ctx.FitsLine config))
    (hkind : nameNode.kind ∈ Node.nameKinds)
    (h : x.recordNode ctx found nameNode function isExported = .ok next) : next.IsOneLine := by
  obtain ⟨name, htext, h⟩ := Except.bind_eq_ok.1 h
  cases h
  split_ifs
  · exact hfound.record (FileContext.isOneLine_of_text hname hkind htext)
  · exact hfound

theorem isOneLine_visitNode {x : FactoryExport} {found next : Found} {f : Focus} (hfound : found.IsOneLine)
    (htree : f.node.Throughout (ctx.FitsLine config)) (h : x.visitNode ctx found f = .ok next) : next.IsOneLine := by
  simp only [visitNode] at h
  split at h
  · obtain ⟨names, -, h⟩ := Except.bind_eq_ok.1 h
    cases h
    exact hfound
  · rename_i hkind
    split at h
    · rename_i name hlevel hname
      exact isOneLine_recordNode hfound (htree.of_child? hname) (htree.self.lexical.declared hkind name hname) h
    · cases h
    · cases h
      exact hfound
  · split at h
    · rename_i name value hlevel hname hvalue
      split_ifs at h with hfunction
      · have hkind := Node.mem_nameKinds_of_identifier (Bool.and_eq_true_iff.1 hfunction).1
        exact isOneLine_recordNode hfound (htree.of_child? hname) hkind h
      · cases h
        exact hfound
    · cases h
      exact hfound
  · cases h
    exact hfound

theorem areOneLine_verdict (hconfig : config.HasOneLineOptions) (hfile : IsOneLine ctx.relative.spelling)
    {found : Found} (hfound : found.IsOneLine) : AreOneLine ((ofConfig config).verdict ctx found) := by
  have hstart : IsOneLine (ofConfig config).nameStart := (hconfig .factoryExport).text (by decide)
  simp only [verdict]
  split_ifs
  · exact .nil
  · split
    · exact .ofFile hfile (.between (by decide) hstart (by decide))
    · rename_i c rest hexported
      have hname : IsOneLine c.name := by
        have hc : c ∈ found.exported := hexported ▸ List.mem_cons_self
        exact hfound c (List.mem_of_mem_filter hc)
      refine .atNode hfile ?_
      unfold incompleteMessage
      split_ifs
      · exact .between (by decide) hname (by decide)
      · exact .between (by decide) hname (by decide)

end FactoryExport

namespace EventBus

/-- Whether the receivers of all events are on one line. -/
def Seen.IsOneLine (seen : Seen) : Prop :=
  ∀ e ∈ seen.events, Guardrails.IsOneLine e.receiver

theorem isOneLine_seeBus {seen next : Seen} (hseen : seen.IsOneLine) {holder? : Option Node}
    (h : seeBus ctx seen holder? = .ok next) : next.IsOneLine := by
  cases holder? with
  | none =>
    cases h
    exact hseen
  | some holder =>
    obtain ⟨text, -, h⟩ := Except.bind_eq_ok.1 h
    cases h
    exact hseen

theorem isOneLine_seeCall {seen next : Seen} (hseen : seen.IsOneLine) {call : Node}
    (hquotes : ctx.QuotesOnLine config call) (h : (ofConfig config).seeCall ctx seen call = .ok next) :
    next.IsOneLine := by
  unfold seeCall at h
  split at h
  · rename_i function hfunction
    split_ifs at h with hdispatches
    · split at h
      · rename_i receiver hreceiver
        obtain ⟨text, htext, h⟩ := Except.bind_eq_ok.1 h
        cases h
        have hone := hquotes.receiver hdispatches function hfunction receiver hreceiver
        rw [FileContext.textOf, FileContext.textOf_of_text htext] at hone
        intro e he
        rcases List.mem_append.1 he with he | he
        · exact hseen e he
        · rw [List.mem_singleton.1 he]
          exact hone
      · cases h
    · cases h
      exact hseen
  · cases h
    exact hseen

theorem isOneLine_see {seen next : Seen} (hseen : seen.IsOneLine) {n : Node} (hquotes : ctx.QuotesOnLine config n)
    (h : (ofConfig config).see ctx seen n = .ok next) : next.IsOneLine := by
  unfold see at h
  split at h
  · exact isOneLine_seeBus hseen h
  · exact isOneLine_seeBus hseen h
  · exact isOneLine_seeCall hseen hquotes h
  · cases h
    exact hseen

theorem areOneLine_verdict (hconfig : config.HasOneLineOptions) (hfile : IsOneLine ctx.relative.spelling)
    {seen : Seen} (hseen : seen.IsOneLine) : AreOneLine ((ofConfig config).verdict ctx seen) := by
  have hevent : IsOneLine (ofConfig config).eventConstructor := (hconfig .eventBus).text (by decide)
  intro v hv
  obtain ⟨e, he, rfl⟩ := List.mem_map.1 hv
  have hreceiver := hseen e (List.mem_of_mem_filter he)
  have hmessage : IsOneLine ((ofConfig config).message e.receiver) :=
    .between (.between (by decide) hreceiver (by decide)) hevent (by decide)
  exact AreOneLine.atNode hfile hmessage _ List.mem_cons_self

end EventBus

theorem ListenerCleanup.areOneLine_verdict (hconfig : config.HasOneLineOptions)
    (hfile : IsOneLine ctx.relative.spelling) (seen : Seen) : AreOneLine ((ofConfig config).verdict ctx seen) := by
  have hcleanup : ∀ name ∈ (ofConfig config).cleanupNames, IsOneLine name :=
    (hconfig .listenerCleanup).names (by decide)
  have hrelease : ∀ name ∈ (ofConfig config).releaseMethods, IsOneLine name :=
    (hconfig .listenerCleanup).names (by decide)
  unfold verdict
  split_ifs
  · refine .ofFile hfile (isOneLine_append.2 ⟨.between ?_ ?_ (by decide), ?_⟩)
    · simp +decide only [isOneLine_append, isOneLine_toString, and_true]
    · exact isOneLine_intercalate (by decide) hcleanup
    · exact isOneLine_intercalate (by decide) hrelease
  · exact .nil

namespace NotifierMetadata

theorem isOneLine_message? (hconfig : config.HasOneLineOptions) {s : Source} {tail : List String}
    {options? : Option Node} {message : String} (htail : ∀ name ∈ tail, IsOneLine name)
    (h : (ofConfig config).message? s tail options? = some message) : IsOneLine message := by
  have hkeys : ∀ key ∈ (ofConfig config).requiredKeys, IsOneLine key :=
    (hconfig .notifierMetadata).names (by decide)
  have hmissing : ∀ missing, (ofConfig config).missingKeys? s options? = some missing →
      ∀ key ∈ missing, IsOneLine key := by
    intro missing hsome key hkey
    unfold missingKeys? at hsome
    split at hsome
    · cases hsome
      exact hkeys key hkey
    · split_ifs at hsome
      cases hsome
      exact hkeys key (List.mem_of_mem_filter hkey)
  have hpath : IsOneLine ("`" ++ ".".intercalate tail ++ "` ") :=
    .between (by decide) (isOneLine_intercalate (by decide) htail) (by decide)
  unfold message? at h
  split at h
  · cases h
  · cases h
  · rename_i missing _ hsome
    cases h
    refine isOneLine_append.2 ⟨hpath, ?_⟩
    split_ifs
    · decide
    · exact isOneLine_append.2 ⟨by decide, isOneLine_intercalate (by decide) (hmissing missing hsome)⟩

theorem areOneLine_see (hconfig : config.HasOneLineOptions) (hfile : IsOneLine ctx.relative.spelling) (seen : Seen)
    {call : Node} (htree : call.Throughout (ctx.FitsLine config)) :
    AreOneLine ((ofConfig config).see ctx seen call).2 := by
  simp only [see]
  split
  · rename_i function hfunction
    split_ifs
    · exact .nil
    · refine AreOneLine.map id hfile fun message hmessage => ?_
      have htail : ∀ name ∈ function.accessTail ctx.source, IsOneLine name :=
        fun name hname => Node.isOneLine_of_mem_accessTail (htree.of_child? hfunction) hname
      exact isOneLine_message? hconfig htail (Option.mem_toList.1 hmessage)
    · exact .nil
  · exact .nil

theorem areOneLine_verdict {x : NotifierMetadata} (hfile : IsOneLine ctx.relative.spelling) (seen : Seen) :
    AreOneLine (x.verdict ctx seen) := by
  unfold verdict
  split_ifs
  · refine .ofFile hfile ?_
    simp +decide only [isOneLine_append, isOneLine_toString, and_true]
  · exact .nil

end NotifierMetadata

end

/-! ## All checkers -/

namespace Checker

/-- Whether a checker shows what it reports on one line each, as long as what may be quoted is. -/
def ShowsOneLine (c : Checker) (ctx : FileContext) (config : Config) : Prop :=
  ∃ kept, c.Keeps ctx (fun f => f.node.Throughout (ctx.FitsLine config)) kept fun v => IsOneLine v.display

section

variable {config : Config} {ctx : FileContext}

theorem showsOneLine_ofFindings {name : String} {rules : List Rule} {kinds : List String} {below : Visit}
    {findings : FileContext → Focus → Except Failure (List Violation)}
    (h : ∀ f vs, f.node.Throughout (ctx.FitsLine config) → findings ctx f = .ok vs → AreOneLine vs) :
    (ofFindings name rules kinds below findings).ShowsOneLine ctx config := by
  refine ⟨fun _ => True, ?_, ?_, ?_, ?_⟩
  · exact fun _ _ => trivial
  · intro state f k _ htree v hv
    obtain ⟨vs, hfindings, hv⟩ := mem_reports_ofFindings hv
    exact h f vs htree hfindings v hv
  · exact fun _ _ _ _ _ _ _ _ => trivial
  · exact fun _ _ _ _ hv => absurd hv List.not_mem_nil

variable (hconfig : config.HasOneLineOptions) (hfile : IsOneLine ctx.relative.spelling)
include hconfig hfile

theorem showsOneLine_factoryExport : (FactoryExport.ofConfig config).checker.ShowsOneLine ctx config := by
  refine ⟨FactoryExport.Found.IsOneLine, ?_, ?_, ?_, ?_⟩
  · intro found hfound
    cases hfound
    exact fun _ hc => absurd hc List.not_mem_nil
  · intro found f k _ _ v hv
    simp only [FactoryExport.checker] at hv
    split_ifs at hv
    · exact absurd hv List.not_mem_nil
    · rw [Reporting.reports_bind_pure ((FactoryExport.ofConfig config).visitNode ctx found f) (·, .enter) k] at hv
      exact absurd hv List.not_mem_nil
  · intro found f k next below hfound htree hresult
    simp only [FactoryExport.checker] at hresult
    split_ifs at hresult
    · cases hresult
      exact hfound
    · obtain ⟨state, hvisit, heq⟩ := Reporting.result_bind_pure hresult
      cases heq
      exact FactoryExport.isOneLine_visitNode hfound htree hvisit
  · intro found k hfound v hv
    simp only [FactoryExport.checker, Reply.report] at hv
    split_ifs at hv
    · exact absurd hv List.not_mem_nil
    · exact FactoryExport.areOneLine_verdict hconfig hfile hfound v hv

theorem showsOneLine_eventBus : (EventBus.ofConfig config).checker.ShowsOneLine ctx config := by
  refine ⟨EventBus.Seen.IsOneLine, ?_, ?_, ?_, ?_⟩
  · intro seen hseen
    cases hseen
    exact fun _ he => absurd he List.not_mem_nil
  · intro seen f k _ _ v hv
    have hnone := Reporting.reports_bind_pure ((EventBus.ofConfig config).see ctx seen f.node) (·, .enter) k
    exact absurd (hnone ▸ hv) List.not_mem_nil
  · intro seen f k next below hseen htree hresult
    obtain ⟨state, hsee, heq⟩ := Reporting.result_bind_pure hresult
    cases heq
    exact EventBus.isOneLine_see hseen htree.self.quotes hsee
  · intro seen k hseen v hv
    exact EventBus.areOneLine_verdict hconfig hfile hseen v hv

theorem showsOneLine_listenerCleanup : (ListenerCleanup.ofConfig config).checker.ShowsOneLine ctx config := by
  refine ⟨fun _ => True, ?_, ?_, ?_, ?_⟩
  · exact fun _ _ => trivial
  · exact fun _ _ _ _ _ _ hv => absurd hv List.not_mem_nil
  · exact fun _ _ _ _ _ _ _ _ => trivial
  · exact fun seen _ _ v hv => ListenerCleanup.areOneLine_verdict hconfig hfile seen v hv

theorem showsOneLine_notifierMetadata : (NotifierMetadata.ofConfig config).checker.ShowsOneLine ctx config := by
  refine ⟨fun _ => True, ?_, ?_, ?_, ?_⟩
  · exact fun _ _ => trivial
  · intro seen f k _ htree v hv
    have hfound : v ∈ ((NotifierMetadata.ofConfig config).see ctx seen f.node).2 ++ [] := hv
    rw [List.append_nil] at hfound
    exact NotifierMetadata.areOneLine_see hconfig hfile seen htree v hfound
  · exact fun _ _ _ _ _ _ _ _ => trivial
  · exact fun seen _ _ v hv => NotifierMetadata.areOneLine_verdict hfile seen v hv

theorem showsOneLine_of_mem_builtin {c : Checker} (h : c ∈ builtin config) : c.ShowsOneLine ctx config := by
  simp only [builtin, List.mem_cons, List.not_mem_nil, or_false] at h
  rcases h with rfl | rfl | rfl | rfl | rfl | rfl | rfl | rfl | rfl | rfl | rfl | rfl | rfl | rfl | rfl | rfl
  · exact showsOneLine_factoryExport hconfig hfile
  · exact showsOneLine_ofFindings fun _ _ htree => ForbiddenGlobals.areOneLine_findings hfile htree
  · exact showsOneLine_ofFindings fun _ _ _ => TopLevelEffects.areOneLine_findings hfile
  · exact showsOneLine_listenerCleanup hconfig hfile
  · exact showsOneLine_ofFindings fun _ _ htree => ErrorCapture.areOneLine_findings hfile htree
  · exact showsOneLine_ofFindings fun _ _ _ => SanitizeHtml.areOneLine_findings hconfig hfile
  · exact showsOneLine_ofFindings fun _ _ _ => ReadinessGate.areOneLine_findings hconfig hfile
  · exact showsOneLine_ofFindings fun _ _ _ => NoSharedStateMutation.areOneLine_findings hconfig hfile
  · exact showsOneLine_eventBus hconfig hfile
  · exact showsOneLine_ofFindings fun _ _ _ => NavigationService.areOneLine_findings hconfig hfile
  · exact showsOneLine_ofFindings fun _ _ _ => ApiClient.areOneLine_findings hconfig hfile
  · exact showsOneLine_ofFindings fun _ _ _ => AnalyticsConsent.areOneLine_findings hconfig hfile
  · exact showsOneLine_notifierMetadata hconfig hfile
  · exact showsOneLine_ofFindings fun _ _ _ => TrackedListeners.areOneLine_findings hconfig hfile
  · exact showsOneLine_ofFindings fun _ _ htree => NoServiceLocator.areOneLine_findings hfile htree
  · exact showsOneLine_ofFindings fun _ _ _ => ModuleSize.areOneLine_findings hfile

end

end Checker
end Guardrails
