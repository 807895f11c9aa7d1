import Guardrails.Proofs.Analyzer.Failures
import Guardrails.Proofs.Analyzer.Roots
import Guardrails.Proofs.Analyzer.Selection
import Guardrails.Proofs.Rules.Relocation

/-!
# Test files

Whether a file is a test touches two rules. About the others the same is reported on a text in a test and in
another file, allow directives included, as long as no checker fails in either of them.
-/

namespace Guardrails

/-! ## Directives -/

/-- Directives decide about violations wherever the file is, and are warned of where it is. -/
theorem Allowances.apply_inFile (a : Allowances) (ctx : FileContext) (path relative : Path) (isTest : Bool)
    (vs : List Violation) : a.apply (ctx.elsewhere path relative isTest) (vs.map (·.inFile relative)) =
      (a.apply ctx vs).map (·.inFile relative) := by
  have hunexplained : a.unexplained (vs.map (·.inFile relative)) = a.unexplained vs := by
    rw [unexplained, unexplained, List.filterMap_map]
    rfl
  rw [apply_eq, apply_eq, hunexplained, List.filter_map, List.map_append, List.map_map]
  rfl

namespace Analyzer

theorem isMirrored_settle {shown : Rule → Bool} {config : Config} {ctx : FileContext} {path relative : Path}
    {isTest : Bool} {vs vs' : List Violation} (h : IsMirrored shown relative vs vs') :
    IsMirrored shown relative (settle config ctx vs) (settle config (ctx.elsewhere path relative isTest) vs') := by
  let graded (ws : List Violation) : List Violation :=
    (ws.filter fun v => config.isEnabled v.rule).map fun v => v.withSeverity (config.severity v.rule)
  have hshown : ∀ ws, (graded ws).filter (fun v => shown v.rule) = graded (ws.filter fun v => shown v.rule) := by
    intro ws
    simp only [graded]
    rw [List.filter_map, List.filter_filter, List.filter_filter]
    congr 1
    exact List.filter_congr fun v _ => Bool.and_comm _ _
  have hmoved : ∀ ws, graded (ws.map (·.inFile relative)) = (graded ws).map (·.inFile relative) := by
    intro ws
    simp only [graded]
    rw [List.filter_map, List.map_map, List.map_map]
    rfl
  unfold IsMirrored at *
  rw [settle_eq, settle_eq, Allowances.filter_apply, Allowances.filter_apply, hshown, hshown, h, hmoved]
  exact Allowances.apply_inFile _ ctx path relative isTest _

/-! ## One file -/

theorem ofTree?_file (file file' : Path) (s : Source) (root : Node) :
    ParseFailure.ofTree? file' s root =
      (ParseFailure.ofTree? file s root).map fun failure => { failure with file := file' } := by
  unfold ParseFailure.ofTree?
  split_ifs
  · cases root.firstDefect? <;> rfl
  · rfl

/-- Of two files with the same text both are analyzed or neither. The analyses reach as deep, and agree about the
rules that are checked in tests, if no checker failed: the same violations in the same order, but for the file. -/
theorem analyzeSource_elsewhere {a : Analyzer} {config : Config}
    (hbuiltin : ∀ c ∈ a.checkers, c ∈ Checker.builtin config) (path path' : Path) (text : String) (root : Node) :
    (∃ failure, a.analyzeSource path text root = .error failure ∧
        a.analyzeSource path' text root = .error { failure with file := a.root.relativeTo path' }) ∨
      ∃ analysis analysis', a.analyzeSource path text root = .ok analysis ∧
        a.analyzeSource path' text root = .ok analysis' ∧ analysis'.depthLimited = analysis.depthLimited ∧
        (analysis.faults = [] → analysis'.faults = [] →
          analysis'.violations.filter (fun v => v.rule.isCheckedInTests) =
            (analysis.violations.filter fun v => v.rule.isCheckedInTests).map
              (·.inFile (a.root.relativeTo path'))) := by
  have hfile := ofTree?_file (a.root.relativeTo path) (a.root.relativeTo path') ⟨text⟩ root
  cases hfailure : ParseFailure.ofTree? (a.root.relativeTo path) ⟨text⟩ root with
  | some failure =>
    rw [hfailure, Option.map_some] at hfile
    exact .inl ⟨failure, analyzeSource_of_some hfailure, analyzeSource_of_some hfile⟩
  | none =>
    rw [hfailure, Option.map_none] at hfile
    let ctx := FileContext.ofFile a.root path text
    let ctx' := ctx.elsewhere path' (a.root.relativeTo path') path'.isTest
    have hself : ∀ c ∈ a.checkers, c.IsSelfContained :=
      fun c hc => Checker.isSelfContained_of_mem_builtin (hbuiltin c hc)
    have hmirrors : ∀ c ∈ a.checkers, c.rules.any Rule.isCheckedInTests = true →
        c.Mirrors Rule.isCheckedInTests ctx ctx' :=
      fun c hc hrule => Checker.mirrors_of_mem_builtin (hbuiltin c hc) hrule
    refine .inr ⟨_, _, analyzeSource_of_none hfailure, analyzeSource_of_none hfile, ?_, ?_⟩
    · exact (Walk.depthLimited_run_eq _ _ _ root).trans (Walk.depthLimited_run_eq _ _ _ root).symm
    · intro hfaults hfaults'
      have hwalk : IsMirrored Rule.isCheckedInTests (a.root.relativeTo path')
          (Walk.run a.checkers a.maxDepth ctx root).violations (Walk.run a.checkers a.maxDepth ctx' root).violations :=
        Walk.isMirrored_run_of_shown hself hmirrors hfaults hfaults'
      have hsettled : IsMirrored Rule.isCheckedInTests (a.root.relativeTo path')
          (settle a.config ctx (Walk.run a.checkers a.maxDepth ctx root).violations)
          (settle a.config ctx' (Walk.run a.checkers a.maxDepth ctx' root).violations) :=
        isMirrored_settle hwalk
      exact hsettled

/-- The analysis of `console.log('x');` as a file. -/
def analysisAt (path : Path) : Except ParseFailure FileAnalysis :=
  Analyzer.analyzeSource ⟨⟨"/repo"⟩, [], Checker.builtin .default, [], [], 4096, .default⟩ path "console.log('x');"
    logging

theorem analysisAt_test : (Path.mk "/repo/a.js").isTest = false ∧ (Path.mk "/repo/a.test.js").isTest = true ∧
    ∃ analysis analysis', analysisAt ⟨"/repo/a.js"⟩ = .ok analysis ∧ analysisAt ⟨"/repo/a.test.js"⟩ = .ok analysis' ∧
      analysis.faults = [] ∧ analysis'.faults = [] ∧
      analysis'.violations.filter (fun v => v.rule.isCheckedInTests) =
        (analysis.violations.filter fun v => v.rule.isCheckedInTests).map (·.inFile ⟨"a.test.js"⟩) := by
  have hfaults : (analysisAt ⟨"/repo/a.js"⟩).map (·.faults.length) = .ok 0 := by
    simp only [analysisAt, analyzeSource, FileAnalysis.ofWalk, Walk.run_eq]
    rfl
  have hfaults' : (analysisAt ⟨"/repo/a.test.js"⟩).map (·.faults.length) = .ok 0 := by
    simp only [analysisAt, analyzeSource, FileAnalysis.ofWalk, Walk.run_eq]
    rfl
  obtain ⟨analysis, hanalysis, hnone⟩ := Except.map_eq_ok.1 hfaults
  obtain ⟨analysis', hanalysis', hnone'⟩ := Except.map_eq_ok.1 hfaults'
  rw [List.length_eq_zero_iff] at hnone hnone'
  refine ⟨rfl, rfl, analysis, analysis', hanalysis, hanalysis', hnone, hnone', ?_⟩
  have hbuiltin : ∀ c ∈ Checker.builtin .default, c ∈ Checker.builtin .default := fun _ hc => hc
  rcases analyzeSource_elsewhere (a := ⟨⟨"/repo"⟩, [], _, [], [], 4096, .default⟩) hbuiltin ⟨"/repo/a.js"⟩
    ⟨"/repo/a.test.js"⟩ "console.log('x');" logging with ⟨failure, hfailure, -⟩ | ⟨one, other, hone, hother, -, hsame⟩
  · cases hfailure.symm.trans hanalysis
  · obtain rfl := Except.ok.inj (hone.symm.trans hanalysis)
    obtain rfl := Except.ok.inj (hother.symm.trans hanalysis')
    exact hsame hnone hnone'

end Analyzer
end Guardrails
