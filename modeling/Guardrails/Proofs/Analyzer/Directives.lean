import Guardrails.Proofs.Allow.Markers
import Guardrails.Proofs.Analyzer.Selection
import Guardrails.Proofs.Rules.Comments

/-!
# Directives and comments

Directives are comments, as far as the text keeps their marker to its comments. A file without comments then has
no directives, and nothing that is found in it is hidden or added to.
-/

namespace Guardrails

/-- The comment nodes of a tree. -/
def Node.comments (root : Node) : List Node :=
  (root :: root.descendants).filter fun n => Node.commentKinds.contains n.kind

/-- Whether every marker of a text stands in a comment of its tree. -/
def Node.CoversMarkers (root : Node) (s : Source) : Prop :=
  ∀ offset, s.MarkerAt offset → ∃ n ∈ root.comments, n.start ≤ offset ∧ offset < n.stop

theorem Node.CoversMarkers.exists_comment {root : Node} {s : Source} (h : root.CoversMarkers s)
    {d : AllowDirective} (hd : d ∈ (Allowances.ofSource s).directives) :
    ∃ n ∈ root.comments, ∃ offset, n.start ≤ offset ∧ offset < n.stop ∧ (s.positionAt offset).line = d.line := by
  obtain ⟨offset, hmarker, hline⟩ := Source.exists_markerAt_of_directiveOn? (Allowances.mem_directives.1 hd)
  obtain ⟨n, hn, hstart, hstop⟩ := h offset hmarker
  exact ⟨n, hn, offset, hstart, hstop, hline⟩

theorem Allowances.apply_of_directives {a : Allowances} (h : a.directives = []) (ctx : FileContext)
    (vs : List Violation) : a.apply ctx vs = vs := by
  have hdecision : ∀ v, a.decisionOn? v = none := by
    intro v
    cases hline : v.location.line? <;> simp [decisionOn?, allowing?, ofFile?, onLine?, h, hline]
  have hunexplained : a.unexplained vs = [] := by
    refine List.eq_nil_iff_forall_not_mem.2 fun u hu => ?_
    obtain ⟨v, -, hv⟩ := mem_unexplained.1 hu
    obtain ⟨d, hd, -⟩ := unexplained?_eq_some_iff.1 hv
    rw [hdecision] at hd
    cases hd
  rw [apply_eq, hunexplained, List.map_nil, List.append_nil]
  exact List.filter_eq_self.2 fun v _ => by rw [hdecision]; rfl

theorem Allowances.apply_of_explained {a : Allowances} {d : AllowDirective} (h : a.directives = [d])
    (hscope : d.scope = .file) (hall : d.all = true) (hreason : d.reason?.isNone = false) (ctx : FileContext)
    (vs : List Violation) : a.apply ctx vs = [] := by
  have hdecision : ∀ v, a.decisionOn? v = some d := by
    intro v
    have hcovers : d.covers v.rule = true := by rw [AllowDirective.covers, hall, Bool.true_or]
    simp [decisionOn?, allowing?, ofFile?, h, hscope, hcovers]
  have hunexplained : ∀ v ∈ vs, a.unexplained? v = none := by
    intro v _
    simp [unexplained?, hdecision, hreason]
  rw [apply, List.filterMap_eq_nil_iff.2 hunexplained, List.filter_eq_nil_iff.2 fun v _ => by rw [hdecision]; simp]
  rfl

namespace Analyzer

/-- What is reported of the rules that are on when no directive is looked at. -/
def unhidden (config : Config) (vs : List Violation) : List Violation :=
  (vs.filter fun v => config.isEnabled v.rule).map fun v => v.withSeverity (config.severity v.rule)

/-- The analysis of a file when no directive is looked at. -/
def analyzeUnhidden (a : Analyzer) (path : Path) (text : String) (root : Node) : Except ParseFailure FileAnalysis :=
  let ctx := FileContext.ofFile a.root path text
  match ParseFailure.ofTree? ctx.relative ctx.source root with
  | some failure => .error failure
  | none =>
    let analysis := FileAnalysis.ofWalk a.checkers a.maxDepth ctx root
    .ok { analysis with violations := unhidden a.config analysis.violations }

/-- Where the markers of a text stand in comments, every directive comes from a comment on its line, and a tree
without comments is analyzed as if there were no directives at all. -/
theorem analyzeSource_of_coversMarkers {root : Node} {text : String} (h : root.CoversMarkers ⟨text⟩) :
    (∀ d ∈ (Allowances.ofSource ⟨text⟩).directives, ∃ n ∈ root.comments, ∃ offset,
        n.start ≤ offset ∧ offset < n.stop ∧ ((Source.mk text).positionAt offset).line = d.line) ∧
      (root.comments = [] → ∀ (a : Analyzer) (path : Path),
        a.analyzeSource path text root = a.analyzeUnhidden path text root) := by
  refine ⟨fun d hd => h.exists_comment hd, ?_⟩
  intro hnone a path
  have hdirectives : (Allowances.ofSource ⟨text⟩).directives = [] := by
    refine List.eq_nil_iff_forall_not_mem.2 fun d hd => ?_
    obtain ⟨n, hn, -⟩ := h.exists_comment hd
    rw [hnone] at hn
    cases hn
  have hsettle : ∀ vs, settle a.config (.ofFile a.root path text) vs = unhidden a.config vs := by
    intro vs
    rw [settle_eq]
    exact Allowances.apply_of_directives hdirectives _ _
  simp only [analyzeSource, hsettle]
  rfl

/-- The tree of a module that declares one string. -/
def declaring (length : Nat) : Node :=
  .plain "program" "" 0 (length + 11) [.plain "lexical_declaration" "" 0 (length + 11)
    [.plain "variable_declarator" "" 6 (length + 10)
      [.plain "identifier" "name" 6 7 [], .plain "string" "value" 10 (length + 10) []]]]

theorem comments_declaring (length : Nat) : (declaring length).comments = [] := by
  rw [Node.comments, Node.descendants_eq]
  rfl

def factoryAnalyzer : Analyzer :=
  ⟨⟨"/repo"⟩, [], [(FactoryExport.ofConfig .default).checker], [], [], 4096, .default⟩

theorem analyzeSource_declaring :
    (declaring 27).CoversMarkers ⟨"const s = '// guardlint is not a tag';"⟩ ∧
      factoryAnalyzer.analyzeSource ⟨"/repo/a.js"⟩ "const s = '// guardlint is not a tag';" (declaring 27) =
        factoryAnalyzer.analyzeUnhidden ⟨"/repo/a.js"⟩ "const s = '// guardlint is not a tag';"
          (declaring 27) := by
  have hnone : AllowDirective.body? "const s = '// guardlint is not a tag';".toList = none := by decide
  have hcovers : (declaring 27).CoversMarkers ⟨"const s = '// guardlint is not a tag';"⟩ :=
    fun offset hmarker => absurd hmarker (Source.not_markerAt hnone offset)
  exact ⟨hcovers, (analyzeSource_of_coversMarkers hcovers).2 (comments_declaring 27) _ _⟩

/-- A source that holds a directive in a string. -/
def allowingInString : String := "const s = '// guardlint: allow-file(all) reason=\"x\"';"

/-- A string that holds a directive hides what is found in the file. -/
theorem not_analyzeSource_eq_analyzeUnhidden : ¬ ∀ (a : Analyzer) (path : Path) (text : String) (root : Node),
    root.comments = [] → a.analyzeSource path text root = a.analyzeUnhidden path text root := by
  intro h
  have hsame := h factoryAnalyzer ⟨"/repo/a.js"⟩ allowingInString (declaring 42) (comments_declaring 42)
  have hfound : (factoryAnalyzer.analyzeUnhidden ⟨"/repo/a.js"⟩ allowingInString (declaring 42)).toOption.map
      (·.violations.length) = some 1 := by
    simp only [analyzeUnhidden, FileAnalysis.ofWalk, Walk.run_eq]
    rfl
  have hdirectives : (Allowances.ofSource ⟨allowingInString⟩).directives = [⟨.file, [], true, some "x", 1⟩] := by
    decide +kernel
  have hhidden : (factoryAnalyzer.analyzeSource ⟨"/repo/a.js"⟩ allowingInString (declaring 42)).toOption.map
      (·.violations.length) = some 0 := by
    have hsettle : ∀ vs, settle factoryAnalyzer.config
        (.ofFile factoryAnalyzer.root ⟨"/repo/a.js"⟩ allowingInString) vs = [] := by
      intro vs
      rw [settle_eq]
      exact Allowances.apply_of_explained hdirectives rfl rfl rfl _ _
    simp only [analyzeSource, hsettle]
    rfl
  rw [hsame, hfound] at hhidden
  cases hhidden

end Analyzer
end Guardrails
