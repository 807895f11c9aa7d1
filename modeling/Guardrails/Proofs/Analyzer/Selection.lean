import Guardrails.Analyzer.Batch
import Guardrails.Proofs.Allow.Applying
import Guardrails.Proofs.Rules.Builtin
import Guardrails.Proofs.Walk.Attribution

/-!
# Selection of rules

To switch rules off is to leave out what the analysis finds about them, and nothing else.
-/

namespace Guardrails.Analyzer

/-- Whether an analyzer differs from another one in having fewer rules on. -/
structure Narrows (a' a : Analyzer) : Prop where
  root : a'.root = a.root
  maxDepth : a'.maxDepth = a.maxDepth
  severity : ∀ r, a'.config.severity r = a.config.severity r
  options : ∀ r key, (a'.config.options r).option? key = (a.config.options r).option? key
  enabled : ∀ r, a'.config.isEnabled r = true → a.config.isEnabled r = true

/-- What is left of an analysis when only these rules are on: the violations of these rules, and the faults
of the built-in checkers that have one of them. -/
def restrict (config : Config) (analysis : FileAnalysis) : FileAnalysis where
  violations := analysis.violations.filter fun v => config.isEnabled v.rule
  faults := analysis.faults.filter fun x =>
    (Checker.builtin config).any fun c => c.name == x.checker && isActive config c
  depthLimited := analysis.depthLimited

/-! ## Building -/

theorem ofOptions_eq_ok {here : Path} {checkers : List Checker} {o : AnalyzerOptions} {a : Analyzer}
    (h : ofOptions here checkers o = .ok a) :
    a.checkers = checkers.filter (isActive o.config) ∧ a.config = o.config := by
  simp only [ofOptions] at h
  split at h
  · cases h
  · cases h
  · cases h
    exact ⟨rfl, rfl⟩

theorem isActive_of_isActive {config config' : Config} {c : Checker}
    (henabled : ∀ r, config'.isEnabled r = true → config.isEnabled r = true)
    (h : isActive config' c = true) : isActive config c = true := by
  rw [isActive, List.any_eq_true] at *
  obtain ⟨r, hr, hon⟩ := h
  exact ⟨r, hr, henabled r hon⟩

theorem Narrows.checkers {here here' : Path} {o o' : AnalyzerOptions} {a a' : Analyzer}
    (hn : a'.Narrows a) (h : ofOptions here (Checker.builtin o.config) o = .ok a)
    (h' : ofOptions here' (Checker.builtin o'.config) o' = .ok a') :
    a'.checkers = a.checkers.filter (isActive a'.config) := by
  obtain ⟨hcheckers, hconfig⟩ := ofOptions_eq_ok h
  obtain ⟨hcheckers', hconfig'⟩ := ofOptions_eq_ok h'
  rw [hcheckers, hcheckers', ← hconfig, ← hconfig', Checker.builtin_congr hn.options, List.filter_filter]
  refine List.filter_congr fun c _ => ?_
  cases hactive : isActive a'.config c with
  | false => rfl
  | true => rw [isActive_of_isActive hn.enabled hactive]; rfl

/-! ## Settling -/

theorem settle_eq (config : Config) (ctx : FileContext) (vs : List Violation) :
    settle config ctx vs = (Allowances.ofSource ctx.source).apply ctx
      ((vs.filter fun v => config.isEnabled v.rule).map fun v => v.withSeverity (config.severity v.rule)) := by
  rw [settle, Allowances.filter_apply, List.filter_map]
  rfl

theorem mem_settle {config : Config} {ctx : FileContext} {vs : List Violation} {v : Violation}
    (h : v ∈ settle config ctx vs) : config.isEnabled v.rule = true ∧
      ((∃ w ∈ vs, w.withSeverity (config.severity w.rule) = v) ∨
        ∃ vs', ∃ u ∈ (Allowances.ofSource ctx.source).unexplained vs', u.violation ctx = v) := by
  obtain ⟨hmem, henabled⟩ := List.mem_filter.1 h
  refine ⟨henabled, ?_⟩
  rw [Allowances.apply_eq, List.mem_append] at hmem
  rcases hmem with hkept | hwarned
  · exact .inl (List.mem_map.1 (List.mem_of_mem_filter hkept))
  · exact .inr ⟨_, List.mem_map.1 hwarned⟩

theorem filter_settle {config config' : Config} (ctx : FileContext) (vs : List Violation)
    (hseverity : ∀ r, config'.severity r = config.severity r)
    (henabled : ∀ r, config'.isEnabled r = true → config.isEnabled r = true) :
    (settle config ctx vs).filter (fun v => config'.isEnabled v.rule) = settle config' ctx vs := by
  have hboth : (vs.filter fun v => config.isEnabled v.rule).filter (fun v => config'.isEnabled v.rule) =
      vs.filter fun v => config'.isEnabled v.rule := by
    rw [List.filter_filter]
    refine List.filter_congr fun v _ => ?_
    cases hon : config'.isEnabled v.rule with
    | false => rfl
    | true => rw [henabled v.rule hon]; rfl
  rw [settle_eq, settle_eq, Allowances.filter_apply, List.filter_map]
  simp only [hseverity]
  rw [← hboth]
  rfl

/-! ## One file -/

section

variable {here here' : Path} {o o' : AnalyzerOptions} {a a' : Analyzer}

/-- With fewer rules on, a walk finds the same about these. -/
theorem ofWalk_of_narrows (h : ofOptions here (Checker.builtin o.config) o = .ok a)
    (h' : ofOptions here' (Checker.builtin o'.config) o' = .ok a') (hn : a'.Narrows a) (ctx : FileContext)
    (root : Node) :
    settle a'.config ctx (FileAnalysis.ofWalk a'.checkers a'.maxDepth ctx root).violations =
        settle a'.config ctx (FileAnalysis.ofWalk a.checkers a.maxDepth ctx root).violations ∧
      (FileAnalysis.ofWalk a'.checkers a'.maxDepth ctx root).faults =
        (FileAnalysis.ofWalk a.checkers a.maxDepth ctx root).faults.filter (fun x =>
          (Checker.builtin a'.config).any fun c => c.name == x.checker && isActive a'.config c) ∧
      (FileAnalysis.ofWalk a'.checkers a'.maxDepth ctx root).depthLimited =
        (FileAnalysis.ofWalk a.checkers a.maxDepth ctx root).depthLimited := by
  obtain ⟨hcheckers, hconfig⟩ := ofOptions_eq_ok h
  have hbuiltin : Checker.builtin a'.config = Checker.builtin o.config := by
    rw [Checker.builtin_congr hn.options, hconfig]
  have hself : ∀ c ∈ a.checkers, c.IsSelfContained := by
    intro c hc
    rw [hcheckers] at hc
    exact Checker.isSelfContained_of_mem_builtin (List.mem_of_mem_filter hc)
  have hnames : (a.checkers.map (·.name)).Nodup := by
    rw [hcheckers]
    exact (Checker.nodup_name_builtin o.config).sublist (List.filter_sublist.map _)
  rw [hn.checkers h h', hn.maxDepth]
  refine ⟨?_, ?_, ?_⟩
  · rw [settle_eq, settle_eq]
    congr 2
    refine Walk.filter_violations_filter hself ?_ a.maxDepth ctx root
    intro c _ hoff r hr
    rw [isActive, List.any_eq_false] at hoff
    exact Bool.eq_false_iff.2 (hoff r hr)
  · have hfaults := Walk.faults_filter (p := isActive a'.config) hself hnames a.maxDepth ctx root
    refine hfaults.trans (List.filter_congr fun x _ => ?_)
    rw [hbuiltin, hcheckers, List.any_filter]
    refine List.any_congr rfl fun c => ?_
    cases hactive : isActive a'.config c with
    | false => rw [Bool.and_false, Bool.and_false]
    | true => rw [← hconfig, isActive_of_isActive hn.enabled hactive, Bool.true_and]
  · exact (Walk.depthLimited_run_eq _ a.maxDepth ctx root).trans
      (Walk.depthLimited_run_eq _ a.maxDepth ctx root).symm

/-- With fewer rules on, the analysis of a file is what is left of the one with more. With only one rule on,
it finds what keeping that rule leaves of the report with more rules on. -/
theorem analyzeSource_of_narrows (h : ofOptions here (Checker.builtin o.config) o = .ok a)
    (h' : ofOptions here' (Checker.builtin o'.config) o' = .ok a') (hn : a'.Narrows a) (path : Path)
    (text : String) (root : Node) :
    a'.analyzeSource path text root = (a.analyzeSource path text root).map (restrict a'.config) ∧
      ∀ r, (∀ s, a'.config.isEnabled s = true ↔ s = r) →
        (reportOf (a'.analyzeSource path text root)).violations =
          ((reportOf (a.analyzeSource path text root)).onlyRule r).violations := by
  have hsource : a'.analyzeSource path text root =
      (a.analyzeSource path text root).map (restrict a'.config) := by
    simp only [analyzeSource, hn.root]
    split
    · rfl
    · obtain ⟨hviolations, hfaults, hlimited⟩ := ofWalk_of_narrows h h' hn
        (FileContext.ofFile a.root path text) root
      simp only [Except.map, restrict, hviolations, hfaults, hlimited,
        filter_settle _ _ hn.severity hn.enabled]
  refine ⟨hsource, ?_⟩
  intro r honly
  have hrule : ∀ v : Violation, a'.config.isEnabled v.rule = (v.rule == r) := by
    intro v
    rw [Bool.eq_iff_iff, honly, beq_iff_eq]
  rw [hsource]
  cases a.analyzeSource path text root with
  | error failure => rfl
  | ok analysis =>
    simp only [Except.map, reportOf, restrict, Report.onlyRule, hrule]

/-- The configuration that leaves only module size on, beside the one that leaves every rule on. -/
theorem analyzeSource_of_moduleSize :
    let settings : AnalyzerSettings := { AnalyzerSettings.default with excluded := [] }
    let sections := Rule.all.map fun r => (r.name, RuleSection.mk (some (r == .moduleSize)) none [])
    let every : Config := ⟨.recommended, settings, []⟩
    let only : Config := ⟨.recommended, settings, sections⟩
    let analyzer (c : Config) : Analyzer :=
      ⟨(Path.mk "/").join ⟨"."⟩, [(Path.mk "/").join ⟨"."⟩],
        (Checker.builtin c).filter (isActive c), [], [], 4096, c⟩
    let root : Node := ⟨"program", true, false, false, false, "", 0, 0, []⟩
    (analyzer only).analyzeSource ⟨"/a.js"⟩ "" root =
        ((analyzer every).analyzeSource ⟨"/a.js"⟩ "" root).map (restrict only) ∧
      (reportOf ((analyzer only).analyzeSource ⟨"/a.js"⟩ "" root)).violations =
        ((reportOf ((analyzer every).analyzeSource ⟨"/a.js"⟩ "" root)).onlyRule .moduleSize).violations := by
  intro settings sections every only analyzer root
  let options (c : Config) : AnalyzerOptions := ⟨none, [], [], [], none, c⟩
  have hevery : ofOptions ⟨"/"⟩ (Checker.builtin (options every).config) (options every) =
    .ok (analyzer every) := rfl
  have honly : ofOptions ⟨"/"⟩ (Checker.builtin (options only).config) (options only) =
    .ok (analyzer only) := rfl
  have hn : (analyzer only).Narrows (analyzer every) :=
    ⟨rfl, rfl, fun r => by cases r <;> rfl, fun r key => by cases r <;> rfl, fun _ _ => rfl⟩
  obtain ⟨hsource, hrule⟩ := analyzeSource_of_narrows hevery honly hn ⟨"/a.js"⟩ "" root
  exact ⟨hsource, hrule .moduleSize fun s => by cases s <;> decide⟩

end

end Guardrails.Analyzer
