import Guardrails.Proofs.Analyzer.Selection

/-!
# Severities of rules

What is found does not hang on how severe it is. Severities are shown with it, and they decide of which
directives is warned: of those without a reason that hide an error.
-/

namespace Guardrails

/-! ## Directives that hide errors -/

namespace Allowances

/-- Warnings are made of the directives that would hide errors if every rule were one, by leaving out the rules
that are none. -/
theorem unexplained_map_withSeverity (a : Allowances) (grade : Rule → Severity) (vs : List Violation) :
    a.unexplained (vs.map fun v => v.withSeverity (grade v.rule)) =
      (a.unexplained (vs.map (·.withSeverity .error))).filter fun u => grade u.rule == .error := by
  refine Unexplained.eq_of_mem_iff (pairwise_unexplained a _) ((pairwise_unexplained a _).filter _) ?_
  intro u
  simp only [List.mem_filter, mem_unexplained, List.mem_map, unexplained?_eq_some_iff, beq_iff_eq]
  constructor
  · rintro ⟨_, ⟨v, hv, rfl⟩, d, hd, herror, hreason, hline, hrule⟩
    exact ⟨⟨_, ⟨v, hv, rfl⟩, d, hd, rfl, hreason, hline, hrule⟩, hrule ▸ herror⟩
  · rintro ⟨⟨_, ⟨v, hv, rfl⟩, d, hd, -, hreason, hline, hrule⟩, herror⟩
    exact ⟨_, ⟨v, hv, rfl⟩, d, hd, hrule ▸ herror, hreason, hline, hrule⟩

theorem decides_iff {s : Source} {r : Rule} {line? : Option Nat} {n : Nat} {d : AllowDirective} :
    s.Decides r line? n d ↔ (ofSource s).allowing? r line? = some d ∧ d.line = n := by
  constructor
  · exact allowing?_of_decides
  · rintro ⟨hd, rfl⟩
    exact decides_of_allowing? hd

end Allowances

namespace Analyzer

/-! ## Settling -/

/-- What is reported under the severities of a configuration: what was found, and a warning of each directive
that hides an error. -/
def graded (config : Config) (ctx : FileContext) (found : List Violation)
    (us : List Allowances.Unexplained) : List Violation :=
  found.map (fun v => v.withSeverity (config.severity v.rule)) ++
    (us.filter fun u => config.severity u.rule == .error).map (·.violation ctx)

/-- What was found about the rules that are on and is not allowed. -/
def foundIn (config : Config) (ctx : FileContext) (vs : List Violation) : List Violation :=
  vs.filter fun v => config.isEnabled v.rule && !ctx.source.allows v.rule v.location.line?

/-- The directives without a reason that decide about what was found about the rules that are on. -/
def unexplainedIn (config : Config) (ctx : FileContext) (vs : List Violation) : List Allowances.Unexplained :=
  (Allowances.ofSource ctx.source).unexplained
    ((vs.filter fun v => config.isEnabled v.rule).map (·.withSeverity .error))

theorem settle_eq_graded (config : Config) (ctx : FileContext) (vs : List Violation) :
    settle config ctx vs = graded config ctx (foundIn config ctx vs) (unexplainedIn config ctx vs) := by
  rw [settle_eq, Allowances.apply_eq, Allowances.unexplained_map_withSeverity, List.filter_map,
    List.filter_filter]
  unfold graded foundIn unexplainedIn
  congr 2
  refine List.filter_congr fun v _ => ?_
  rw [← Allowances.isSome_allowing?, Option.not_isSome, Bool.and_comm]
  rfl

theorem mem_unexplainedIn {config : Config} {ctx : FileContext} {vs : List Violation}
    {u : Allowances.Unexplained} :
    u ∈ unexplainedIn config ctx vs ↔ config.isEnabled u.rule = true ∧ ∃ v ∈ vs, ∃ d,
      ctx.source.Decides v.rule v.location.line? u.line d ∧ v.rule = u.rule ∧ d.reason? = none := by
  simp only [unexplainedIn, Allowances.mem_unexplained, List.mem_map, List.mem_filter,
    Allowances.unexplained?_eq_some_iff, Allowances.decides_iff]
  constructor
  · rintro ⟨_, ⟨v, ⟨hv, hon⟩, rfl⟩, d, hd, -, hreason, hline, hrule⟩
    exact ⟨hrule ▸ hon, v, hv, d, ⟨hd, hline⟩, hrule, hreason⟩
  · rintro ⟨hon, v, hv, d, ⟨hd, hline⟩, hrule, hreason⟩
    exact ⟨_, ⟨v, ⟨hv, hrule ▸ hon⟩, rfl⟩, d, hd, rfl, hreason, hline, hrule⟩

/-! ## One file -/

/-- Whether an analyzer differs from another one in the severities of rules only. -/
structure Regrades (a' a : Analyzer) : Prop where
  root : a'.root = a.root
  maxDepth : a'.maxDepth = a.maxDepth
  enabled : ∀ r, a'.config.isEnabled r = a.config.isEnabled r

namespace Regrades

variable {a a' : Analyzer}

theorem refl (a : Analyzer) : a.Regrades a :=
  ⟨rfl, rfl, fun _ => rfl⟩

theorem checkers_eq {here here' : Path} {checkers : List Checker} {o o' : AnalyzerOptions}
    (hr : a'.Regrades a) (h : ofOptions here checkers o = .ok a)
    (h' : ofOptions here' checkers o' = .ok a') : a'.checkers = a.checkers := by
  obtain ⟨hcheckers, hconfig⟩ := ofOptions_eq_ok h
  obtain ⟨hcheckers', hconfig'⟩ := ofOptions_eq_ok h'
  rw [hcheckers, hcheckers', ← hconfig, ← hconfig']
  unfold isActive
  rw [funext hr.enabled]

theorem settle_eq (hr : a'.Regrades a) (ctx : FileContext) (vs : List Violation) :
    settle a'.config ctx vs =
      graded a'.config ctx (foundIn a.config ctx vs) (unexplainedIn a.config ctx vs) := by
  rw [settle_eq_graded]
  simp only [foundIn, unexplainedIn, hr.enabled]

theorem analyzeSource_eq (hr : a'.Regrades a) (hcheckers : a'.checkers = a.checkers) (path : Path)
    (text : String) (root : Node) :
    let ctx := FileContext.ofFile a.root path text
    let walked := FileAnalysis.ofWalk a.checkers a.maxDepth ctx root
    a'.analyzeSource path text root =
      match ParseFailure.ofTree? ctx.relative ctx.source root with
      | some failure => .error failure
      | none => .ok { walked with
          violations := graded a'.config ctx (foundIn a.config ctx walked.violations)
            (unexplainedIn a.config ctx walked.violations) } := by
  intro ctx walked
  cases hparsed : ParseFailure.ofTree? ctx.relative ctx.source root with
  | some failure =>
    simp only [analyzeSource, hr.root]
    rw [hparsed]
  | none =>
    simp only [analyzeSource, hr.root, hr.maxDepth, hcheckers, hr.settle_eq]
    rw [hparsed]

end Regrades

/-- The built-in checkers hang on the options of the rules only. With the same checkers and the same rules on, a
file is refused by the parser under both severities, or it has the same findings, faults and depth under both, and
each finding carries the severity of its rule. Warned of are, among the directives without a reason that decide
about a finding, those whose rule is an error. -/
theorem analyzeSource_of_regrades :
    (∀ config config' : Config,
      (∀ r key, (config'.options r).option? key = (config.options r).option? key) →
        Checker.builtin config' = Checker.builtin config) ∧
    ∀ (here here' : Path) (checkers : List Checker) (o o' : AnalyzerOptions) (a a' : Analyzer),
      ofOptions here checkers o = .ok a → ofOptions here' checkers o' = .ok a' → a'.Regrades a →
      ∀ (path : Path) (text : String) (root : Node),
        let ctx := FileContext.ofFile a.root path text
        let walked := FileAnalysis.ofWalk a.checkers a.maxDepth ctx root
        (∃ failure, a.analyzeSource path text root = .error failure ∧
          a'.analyzeSource path text root = .error failure) ∨
        ∃ us : List Allowances.Unexplained,
          a.analyzeSource path text root = .ok { walked with
            violations := graded a.config ctx (foundIn a.config ctx walked.violations) us } ∧
          a'.analyzeSource path text root = .ok { walked with
            violations := graded a'.config ctx (foundIn a.config ctx walked.violations) us } ∧
          (us.Pairwise fun u v => u.isBefore v = true) ∧
          (∀ u, u ∈ us ↔ a.config.isEnabled u.rule = true ∧ ∃ v ∈ walked.violations, ∃ d,
            ctx.source.Decides v.rule v.location.line? u.line d ∧ v.rule = u.rule ∧ d.reason? = none) ∧
          ∀ u ∈ us, (u.violation ctx).rule = u.rule ∧ (u.violation ctx).severity = .warning ∧
            (u.violation ctx).location.line? = some u.line := by
  refine ⟨fun _ _ => Checker.builtin_congr, ?_⟩
  intro here here' checkers o o' a a' h h' hr path text root ctx walked
  rw [(Regrades.refl a).analyzeSource_eq rfl, hr.analyzeSource_eq (hr.checkers_eq h h')]
  cases ParseFailure.ofTree? ctx.relative ctx.source root with
  | some failure => exact .inl ⟨failure, rfl, rfl⟩
  | none =>
    exact .inr ⟨unexplainedIn a.config ctx walked.violations, rfl, rfl,
      Allowances.pairwise_unexplained _ _, fun _ => mem_unexplainedIn, fun _ _ => ⟨rfl, rfl, rfl⟩⟩

/-- A directive without a reason that hides the only finding, with its rule an error and with its rule a
warning. -/
theorem analyzeSource_of_lenient :
    let checkers := [(FactoryExport.ofConfig .default).checker]
    let settings : AnalyzerSettings := { AnalyzerSettings.default with excluded := [] }
    let strict : Config := ⟨.recommended, settings, []⟩
    let lenient : Config := ⟨.recommended, settings, [("factory-export", ⟨none, some .warning, []⟩)]⟩
    let analyzer (c : Config) : Analyzer :=
      ⟨(Path.mk "/").join ⟨"."⟩, [(Path.mk "/").join ⟨"."⟩], checkers.filter (isActive c), [], [], 4096, c⟩
    let path : Path := ⟨"/a.js"⟩
    let text := "// guardlint:allow-file(factory-export)\n"
    let root : Node :=
      ⟨"program", true, false, false, false, "", 0, 40, [⟨"comment", true, false, false, false, "", 0, 39, []⟩]⟩
    let ctx := FileContext.ofFile (analyzer strict).root path text
    let walked := FileAnalysis.ofWalk (analyzer strict).checkers 4096 ctx root
    let shown (c : Config) := (reportOf ((analyzer c).analyzeSource path text root)).violations.map (·.severity)
    shown strict = [.warning] ∧ shown lenient = [] ∧
      ∃ us : List Allowances.Unexplained,
        (analyzer strict).analyzeSource path text root = .ok { walked with
          violations := graded strict ctx (foundIn strict ctx walked.violations) us } ∧
        (analyzer lenient).analyzeSource path text root = .ok { walked with
          violations := graded lenient ctx (foundIn strict ctx walked.violations) us } := by
  intro checkers settings strict lenient analyzer path text root ctx walked shown
  have hshown : shown strict = [.warning] := by decide +kernel +revert
  have hnone : shown lenient = [] := by decide +kernel +revert
  refine ⟨hshown, hnone, ?_⟩
  let options (c : Config) : AnalyzerOptions := ⟨none, [], [], [], none, c⟩
  have hstrict : ofOptions ⟨"/"⟩ checkers (options strict) = .ok (analyzer strict) := rfl
  have hlenient : ofOptions ⟨"/"⟩ checkers (options lenient) = .ok (analyzer lenient) := rfl
  have hr : (analyzer lenient).Regrades (analyzer strict) := ⟨rfl, rfl, fun r => by cases r <;> rfl⟩
  rcases analyzeSource_of_regrades.2 ⟨"/"⟩ ⟨"/"⟩ checkers (options strict) (options lenient) _ _ hstrict
    hlenient hr path text root with ⟨failure, hfailure, -⟩ | ⟨us, hgraded, hgraded', -⟩
  · -- a file that is not parsed has no violations, and there is one
    simp only [shown, hfailure, reportOf] at hshown
    cases hshown
  · exact ⟨us, hgraded, hgraded'⟩

end Analyzer
end Guardrails
