import Mathlib
import Guardrails.Proofs.Analyzer.Selection
import Guardrails.Proofs.Source.Lines

/-!
# Well-formed reports

What is reported on a file carries the code and the name of a rule that is on, and points at the file as a
whole or into one of its lines. This holds of what the checkers build and of the warnings about directives.
-/

namespace Guardrails

open Source (byteLength dropReturn)

/-- Whether the range of a node lies in the text. -/
def Node.LiesIn (n : Node) (s : Source) : Prop :=
  n.start ≤ n.stop ∧ n.stop ≤ s.byteCount

/-- Whether a location stands for the file as a whole, without a text, or for a range of it that starts in a
line, with the text of that line. The carriage return that a line may end in belongs to its terminator, in
front of a newline and at the end of the file alike. -/
inductive Location.IsPlaced (s : Source) (text? : Option String) (l : Location) : Prop
  | file (line : l.line? = none) (column : l.column = 0) (offset : l.offset = 0) (length : l.length = 0)
      (text : text? = none)
  | line {before line after : List Char} (isLine : IsLine s.text.toList before line after)
      (number : l.line? = some (before.count '\n' + 1))
      (starts : byteLength before ≤ l.offset) (ends : l.offset ≤ byteLength before + byteLength line)
      (column : l.column = l.offset - byteLength before + 1)
      (range : l.offset + l.length ≤ s.byteCount)
      (text : text? = some (String.ofList (dropReturn line)))

/-- Whether a violation agrees with the catalog and with the file it is about. -/
structure Violation.IsWellFormed (ctx : FileContext) (v : Violation) : Prop where
  file : v.location.file = ctx.relative
  code : v.code = v.rule.code
  name : v.name = v.rule.name
  isPlaced : v.location.IsPlaced ctx.source v.sourceLine?

namespace Violation.IsWellFormed

variable {ctx : FileContext} {v : Violation}

theorem withSeverity (h : v.IsWellFormed ctx) (severity : Severity) :
    (v.withSeverity severity).IsWellFormed ctx :=
  ⟨h.file, h.code, h.name, h.isPlaced⟩

theorem withSuggestion (h : v.IsWellFormed ctx) (suggestion : String) :
    (v.withSuggestion suggestion).IsWellFormed ctx :=
  ⟨h.file, h.code, h.name, h.isPlaced⟩

end Violation.IsWellFormed

/-! ## What is built -/

namespace FileContext

variable {ctx : FileContext}

theorem isWellFormed_fileViolation (r : Rule) (message : String) :
    (ctx.fileViolation r message).IsWellFormed ctx :=
  ⟨rfl, rfl, rfl, .file rfl rfl rfl rfl rfl⟩

theorem isWellFormed_violationAt {n : Node} (h : n.LiesIn ctx.source) (r : Rule) (message : String) :
    (ctx.violationAt r n message).IsWellFormed ctx := by
  obtain ⟨hrange, hstop⟩ := h
  obtain ⟨before, line, after, hline, hstarts, hends, hposition⟩ :=
    ctx.source.exists_isLine_of_offset (Nat.le_trans hrange hstop)
  have hrow : (ctx.source.positionOf n).line = before.count '\n' + 1 := by
    rw [Source.positionOf, hposition, Position.line]
  have hcolumn : (ctx.source.positionOf n).reportColumn = n.start - byteLength before + 1 := by
    rw [Source.positionOf, hposition, Position.reportColumn]
  refine ⟨rfl, rfl, rfl, .line hline (congrArg some hrow) hstarts hends hcolumn ?_ ?_⟩
  · change n.start + (n.stop - n.start) ≤ ctx.source.byteCount
    omega
  · change ctx.source.lineText? (ctx.source.positionOf n).line = _
    rw [hrow, Source.lineText?_of_isLine hline]

theorem isWellFormed_violationAtLine {m : Nat} (h : m < ctx.source.segments.length) (r : Rule)
    (message : String) : (ctx.violationAtLine r (m + 1) message).IsWellFormed ctx := by
  obtain ⟨before, line, after, hline, rfl, hoffset⟩ := ctx.source.exists_isLine_of_lt h
  have hcount : byteLength before ≤ ctx.source.byteCount := by
    rw [Source.byteCount, hline.text, Source.byteLength_append, Source.byteLength_append]
    omega
  have hlocation : (ctx.violationAtLine r (before.count '\n' + 1) message).location =
      ⟨ctx.relative, some (before.count '\n' + 1), 1, byteLength before, 0⟩ := by
    rw [← hoffset]
    rfl
  refine ⟨rfl, rfl, rfl, ?_⟩
  rw [hlocation]
  refine .line hline rfl (Nat.le_refl _) (Nat.le_add_right _ _) ?_ hcount ?_
  · rw [Nat.sub_self]
  · exact Source.lineText?_of_isLine hline

theorem Builds.isWellFormed {rules : List Rule} {v : Violation}
    (h : ctx.Builds rules (·.LiesIn ctx.source) v) : v.IsWellFormed ctx := by
  cases h with
  | atNode message hr hn => exact (isWellFormed_violationAt hn _ message).withSuggestion _
  | ofFile message suggestion hr => exact (isWellFormed_fileViolation _ message).withSuggestion _

end FileContext

/-! ## What is reported -/

theorem Source.Decides.directiveOn? {s : Source} {r : Rule} {line? : Option Nat} {n : Nat}
    {d : AllowDirective} (h : s.Decides r line? n d) : s.directiveOn? n = some d := by
  cases h with
  | file hd => exact hd
  | own _ hd => exact hd
  | before _ _ hd => exact hd

theorem Allowances.isWellFormed_of_mem_unexplained {ctx : FileContext} {vs : List Violation}
    {u : Unexplained} (h : u ∈ (ofSource ctx.source).unexplained vs) :
    (u.violation ctx).IsWellFormed ctx := by
  obtain ⟨v, -, hv⟩ := mem_unexplained.1 h
  obtain ⟨d, hdecision, -, -, hline, -⟩ := unexplained?_eq_some_iff.1 hv
  obtain ⟨m, hm, heq⟩ := Source.lt_length_of_directiveOn? (decides_of_allowing? hdecision).directiveOn?
  have hsegment : m < ctx.source.segments.length := by
    rw [Source.lines, List.length_map] at hm
    exact Nat.lt_of_lt_of_le hm (Source.length_linesOf_le _)
  rw [Unexplained.violation, ← hline, heq]
  exact (FileContext.isWellFormed_violationAtLine hsegment _ _).withSeverity _

namespace Analyzer

theorem isWellFormed_of_mem_settle {config : Config} {ctx : FileContext} {vs : List Violation}
    (hvs : ∀ v ∈ vs, v.IsWellFormed ctx) {v : Violation} (h : v ∈ settle config ctx vs) :
    v.IsWellFormed ctx ∧ config.isEnabled v.rule = true := by
  obtain ⟨henabled, ⟨w, hw, rfl⟩ | ⟨vs', u, hu, rfl⟩⟩ := mem_settle h
  · exact ⟨(hvs w hw).withSeverity _, henabled⟩
  · exact ⟨Allowances.isWellFormed_of_mem_unexplained hu, henabled⟩

/-- The built-in checkers report their own rules only. Whatever they report on a file whose tree lies in its
text, and whatever else is reported on it, is well formed and about a rule that is on. -/
theorem isWellFormed_of_mem_violations (o : AnalyzerOptions) :
    (∀ c ∈ Checker.builtin o.config, c.ReportsOwn) ∧
      ∀ (here path : Path) (a : Analyzer) (text : String) (root : Node) (analysis : FileAnalysis),
        ofOptions here (Checker.builtin o.config) o = .ok a →
        (∀ f ∈ (Focus.root root).subtree, f.node.LiesIn ⟨text⟩) →
        a.analyzeSource path text root = .ok analysis →
        ∀ v ∈ analysis.violations,
          v.IsWellFormed (.ofFile a.root path text) ∧ a.config.isEnabled v.rule = true := by
  refine ⟨fun c hc => (Checker.isSelfContained_of_mem_builtin hc).reportsOwn, ?_⟩
  intro here path a text root analysis ha htree hanalysis
  obtain ⟨hcheckers, -⟩ := ofOptions_eq_ok ha
  have hholds : ∀ c ∈ a.checkers, ∃ held, c.Holds held := by
    intro c hc
    rw [hcheckers] at hc
    exact Checker.exists_holds_of_mem_builtin (List.mem_of_mem_filter hc)
  have hfound : ∀ v ∈ (Walk.run a.checkers a.maxDepth (.ofFile a.root path text) root).violations,
      v.IsWellFormed (.ofFile a.root path text) := by
    intro v hv
    obtain ⟨c, -, hbuilds⟩ := Walk.builds_of_mem_violations _ _ _ _ hholds
      (P := fun n => n.LiesIn ⟨text⟩) htree hv
    exact hbuilds.isWellFormed
  simp only [analyzeSource] at hanalysis
  split at hanalysis
  · cases hanalysis
  · cases hanalysis
    exact fun v hv => isWellFormed_of_mem_settle hfound hv

/-- A module that only catches an error without binding it: that is reported at the clause, and that there
is no factory for the file as a whole. -/
theorem isWellFormed_of_unboundCatch :
    let settings : AnalyzerSettings := { AnalyzerSettings.default with excluded := [] }
    let config : Config := ⟨.recommended, settings, [("GL003", ⟨some false, none, []⟩)]⟩
    let analyzer : Analyzer :=
      ⟨(Path.mk "/").join ⟨"."⟩, [(Path.mk "/").join ⟨"."⟩],
        (Checker.builtin config).filter (isActive config), [], [], 4096, config⟩
    let block (start : Nat) : Node :=
      ⟨"statement_block", true, false, false, false, "body", start, start + 2, []⟩
    let clause : Node := ⟨"catch_clause", true, false, false, false, "handler", 7, 15, [block 13]⟩
    let statement : Node := ⟨"try_statement", true, false, false, false, "", 0, 15, [block 4, clause]⟩
    let root : Node := ⟨"program", true, false, false, false, "", 0, 17, [statement]⟩
    ∃ analysis, analyzer.analyzeSource ⟨"/a.js"⟩ "try {} catch {}\r\n" root = .ok analysis ∧
      analysis.violations.map (fun v => (v.code, v.location.line?, v.sourceLine?)) =
        [("GL006", some 1, some "try {} catch {}"), ("GL001", none, none)] ∧
      ∀ v ∈ analysis.violations, v.IsWellFormed (.ofFile analyzer.root ⟨"/a.js"⟩ "try {} catch {}\r\n") ∧
        config.isEnabled v.rule = true := by
  intro settings config analyzer block clause statement root
  have hfound : (analyzer.analyzeSource ⟨"/a.js"⟩ "try {} catch {}\r\n" root).map (fun analysis =>
      analysis.violations.map fun v => (v.code, v.location.line?, v.sourceLine?)) =
        .ok [("GL006", some 1, some "try {} catch {}"), ("GL001", none, none)] := by
    cbv
  have hanalyzer : ofOptions ⟨"/"⟩ (Checker.builtin config) ⟨none, [], [], [], none, config⟩ =
    .ok analyzer := rfl
  have htree : ∀ f ∈ (Focus.root root).subtree, f.node.LiesIn ⟨"try {} catch {}\r\n"⟩ := by
    have hbytes : Source.byteCount ⟨"try {} catch {}\r\n"⟩ = 17 := by decide
    have hall : ∀ n ∈ (Focus.root root).subtree.map (·.node), n.start ≤ n.stop ∧ n.stop ≤ 17 := by decide
    intro f hf
    rw [Node.LiesIn, hbytes]
    exact hall f.node (List.mem_map_of_mem hf)
  obtain ⟨analysis, hanalysis, hviolations⟩ := Except.map_eq_ok.1 hfound
  exact ⟨analysis, hanalysis, hviolations,
    (isWellFormed_of_mem_violations ⟨none, [], [], [], none, config⟩).2 _ _ _ _ _ _ hanalyzer htree hanalysis⟩

end Analyzer
end Guardrails
