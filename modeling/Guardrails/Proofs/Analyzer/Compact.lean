import Guardrails.Proofs.Analyzer.Batch
import Guardrails.Proofs.Rules.Messages
import Guardrails.Proofs.Tree.Defects
import Guardrails.Report.Text

/-!
# Findings and lines

The compact text of a report has a line for each violation and each file that was not analyzed, as long as none of
them quotes a text that goes over several lines.
-/

namespace Guardrails

/-! ## Paths -/

namespace Path

theorem isOneLine_of_mem_pieces {p : Path} {piece : Piece} (h : IsOneLine p.spelling) (hpiece : piece ∈ p.pieces) :
    IsOneLine piece.text := by
  have htext : piece.text ∈ Text.split '/' p.spelling := by
    unfold pieces at hpiece
    split at hpiece
    · exact absurd hpiece List.not_mem_nil
    · rename_i first rest hsplit
      rw [hsplit]
      rcases List.mem_cons.1 hpiece with rfl | hpiece
      · exact List.mem_cons_self
      · obtain ⟨t, ht, rfl⟩ := List.mem_map.1 hpiece
        exact List.mem_cons_of_mem first ht
  exact h.of_mem_split htext

theorem isOneLine_spell {ps : List Piece} (h : ∀ piece ∈ ps, IsOneLine piece.text) : IsOneLine (spell ps) := by
  unfold spell
  split
  · decide
  · refine isOneLine_intercalate (by decide) fun t ht => ?_
    obtain ⟨piece, hpiece, rfl⟩ := List.mem_map.1 ht
    exact h piece hpiece

theorem isOneLine_relativeTo (dir : Path) {p : Path} (h : IsOneLine p.spelling) :
    IsOneLine (dir.relativeTo p).spelling := by
  cases hbelow : below? dir p with
  | none =>
    rw [relativeTo, hbelow]
    exact h
  | some q =>
    rw [relativeTo, hbelow, Option.getD_some]
    obtain ⟨left, hleft, rfl⟩ := Option.map_eq_some_iff.1 hbelow
    obtain ⟨taken, hpieces, -⟩ := dropComponents_eq_some hleft
    refine isOneLine_spell fun piece hpiece => isOneLine_of_mem_pieces h ?_
    have hmem := (isPrefix_trimPieces _).subset hpiece
    rw [hpieces]
    split_ifs at hmem
    · exact List.mem_append_right taken hmem
    · exact List.mem_append_right taken ((List.dropWhile_suffix _).subset hmem)

end Path

/-! ## Parse failures -/

theorem ParseFailure.isOneLine_display (f : ParseFailure) :
    IsOneLine f.display ↔ IsOneLine f.file.spelling ∧ IsOneLine f.message := by
  simp +decide only [display, isOneLine_append, isOneLine_toString_string, and_true]

theorem ParseFailure.isOneLine_of_ofTree? {file : Path} {source : Source} {root : Node} {failure : ParseFailure}
    (hfile : IsOneLine file.spelling) (hkinds : root.Throughout fun n => IsOneLine n.kind)
    (h : ofTree? file source root = some failure) : IsOneLine failure.display := by
  unfold ofTree? at h
  split_ifs at h
  cases h
  cases hdefect : root.firstDefect? with
  | none =>
    have hmessage : IsOneLine "syntax error" := by decide
    exact (isOneLine_display _).2 ⟨hfile, hmessage⟩
  | some n =>
    have hkind : IsOneLine n.kind := hkinds n (Node.mem_of_firstDefect? hdefect)
    refine (isOneLine_display _).2 ⟨hfile, ?_⟩
    have hwhat : IsOneLine (if n.isMissing then "missing `" ++ n.kind ++ "`" else "unexpected syntax") := by
      split_ifs
      · exact .between (by decide) hkind (by decide)
      · decide
    simp +decide only [isOneLine_append, isOneLine_toString, isOneLine_toString_string, hwhat, and_true]

/-! ## Reports -/

/-- Whether everything that the compact text of a report shows is on one line. -/
structure Report.IsOneLine (r : Report) : Prop where
  violations : AreOneLine r.violations
  failures : ∀ x ∈ r.failures, Guardrails.IsOneLine x.display

theorem Report.IsOneLine.compactLines {r : Report} (h : r.IsOneLine) :
    ∀ line ∈ r.compactLines, Guardrails.IsOneLine line := by
  intro line hline
  rcases List.mem_append.1 hline with hline | hline
  · obtain ⟨v, hv, rfl⟩ := List.mem_map.1 hline
    exact h.violations v hv
  · obtain ⟨x, hx, rfl⟩ := List.mem_map.1 hline
    exact h.failures x hx

/-- The compact text has a line for each violation and each failure if all of them are shown on one line, and more
lines if some are not. -/
theorem Report.lineCount_compact {r : Report} :
    (Source.mk r.compact).lineCount = r.violations.length + r.failures.length ↔
      ∀ line ∈ r.compactLines, Guardrails.IsOneLine line := by
  have hlength : r.compactLines.length = r.violations.length + r.failures.length := by
    rw [Report.compactLines, List.length_append, List.length_map, List.length_map]
  rw [← hlength]
  exact lineCount_unlines_eq_length

theorem Report.isOneLine_of_failure {failure : ParseFailure} (h : Guardrails.IsOneLine failure.display) :
    (Analyzer.reportOf (.error failure)).IsOneLine := by
  refine ⟨.nil, fun x hx => ?_⟩
  rw [List.mem_singleton.1 hx]
  exact h

/-- Whether the path of a file is on one line, and the reason why it cannot be read, and whether its tree is as the
grammar has it. -/
structure FileTree.ReadsLines (t : FileTree) (p : Path) : Prop where
  path : IsOneLine p.spelling
  unreadable : ∀ e, t.fileAt p = .error e → IsOneLine e.message
  kinds : ∀ f root, t.fileAt p = .ok f → f.tree? = some root →
    ∀ g ∈ (Focus.root root).subtree, IsOneLine g.node.kind
  lexical : ∀ f text root, t.fileAt p = .ok f → f.text? = some text → f.tree? = some root → root.hasError = false →
    ∀ g ∈ (Focus.root root).subtree, g.node.IsLexical ⟨text⟩

namespace Analyzer

variable {a : Analyzer} {t : FileTree}

theorem areOneLine_settle {config : Config} {ctx : FileContext} {vs : List Violation}
    (hfile : IsOneLine ctx.relative.spelling) (hvs : AreOneLine vs) : AreOneLine (settle config ctx vs) := by
  intro v hv
  obtain ⟨-, ⟨w, hw, rfl⟩ | ⟨vs', u, -, rfl⟩⟩ := mem_settle hv
  · exact (Violation.isOneLine_display _).2 ((Violation.isOneLine_display w).1 (hvs w hw))
  · have hmessage : IsOneLine u.message := .between (by decide) u.rule.isOneLine_name (by decide)
    exact (Violation.isOneLine_display _).2 ⟨hfile, u.rule.isOneLine_code, hmessage⟩

/-- Whether the longer texts of a file that messages quote are on one line. -/
def QuotesLines (a : Analyzer) (t : FileTree) (p : Path) : Prop :=
  ∀ f text root, t.fileAt p = .ok f → f.text? = some text → f.tree? = some root → root.hasError = false →
    ∀ g ∈ (Focus.root root).subtree, (FileContext.ofFile a.root p text).QuotesOnLine a.config g.node

section

variable (hcheckers : ∀ c ∈ a.checkers, c ∈ Checker.builtin a.config) (hconfig : a.config.HasOneLineOptions)
include hcheckers hconfig

theorem isOneLine_reportOf_analyzeSource {p : Path} {text : String} {root : Node} (hpath : IsOneLine p.spelling)
    (hkinds : root.Throughout fun n => IsOneLine n.kind)
    (htree : root.hasError = false →
      ∀ g ∈ (Focus.root root).subtree, (FileContext.ofFile a.root p text).FitsLine a.config g.node) :
    (reportOf (a.analyzeSource p text root)).IsOneLine := by
  have hfile : IsOneLine (FileContext.ofFile a.root p text).relative.spelling := Path.isOneLine_relativeTo a.root hpath
  unfold analyzeSource
  simp only
  split
  · rename_i failure hfailure
    exact Report.isOneLine_of_failure (ParseFailure.isOneLine_of_ofTree? hfile hkinds hfailure)
  · rename_i hparsed
    have hclean : root.hasError = false := by
      rw [Bool.eq_false_iff]
      intro herror
      rw [ParseFailure.ofTree?, if_pos herror] at hparsed
      cases hparsed
    have hshows : ∀ c ∈ a.checkers, c.ShowsOneLine (FileContext.ofFile a.root p text) a.config :=
      fun c hc => Checker.showsOneLine_of_mem_builtin hconfig hfile (hcheckers c hc)
    have hplaces : ∀ f ∈ (Focus.root root).subtree,
        f.node.Throughout ((FileContext.ofFile a.root p text).FitsLine a.config) :=
      fun f hf => Focus.throughout_of_mem_subtree (htree hclean) hf
    have hfound : AreOneLine (Walk.run a.checkers a.maxDepth (FileContext.ofFile a.root p text) root).violations := by
      intro v hv
      exact Walk.told_of_mem_violations a.checkers a.maxDepth (FileContext.ofFile a.root p text) root hshows hplaces hv
    exact ⟨areOneLine_settle hfile hfound, fun _ hx => absurd hx List.not_mem_nil⟩

theorem isOneLine_reportOf {p : Path} (hlines : t.ReadsLines p) (hquotes : a.QuotesLines t p) :
    (reportOf (a.analyzeFile t p)).IsOneLine := by
  have hfile : IsOneLine (a.root.relativeTo p).spelling := Path.isOneLine_relativeTo a.root hlines.path
  have hunread : ∀ e : FileTree.Unreadable, IsOneLine e.message →
      (reportOf (.error (unreadableFile (a.root.relativeTo p) e))).IsOneLine := fun e he =>
    Report.isOneLine_of_failure ((ParseFailure.isOneLine_display _).2 ⟨hfile, isOneLine_append.2 ⟨by decide, he⟩⟩)
  unfold analyzeFile
  cases hread : t.fileAt p with
  | error e => exact hunread e (hlines.unreadable e hread)
  | ok f =>
    cases htext : f.text? with
    | none =>
      simp only [htext]
      exact hunread .noText (by decide)
    | some text =>
      cases hroot : f.tree? with
      | none =>
        have hmessage : IsOneLine "parser produced no tree" := by decide
        simp only [htext, hroot]
        exact Report.isOneLine_of_failure ((ParseFailure.isOneLine_display _).2 ⟨hfile, hmessage⟩)
      | some root =>
        have hkinds : (Focus.root root).node.Throughout fun n => IsOneLine n.kind :=
          Focus.throughout_of_mem_subtree (hlines.kinds f root hread hroot) (Focus.self_mem_subtree _)
        simp only [htext, hroot]
        refine isOneLine_reportOf_analyzeSource hcheckers hconfig hlines.path hkinds fun hclean g hg => ?_
        exact ⟨hlines.lexical f text root hread htext hroot hclean g hg,
          hquotes f text root hread htext hroot hclean g hg⟩

/-- The compact text has a line for each violation and each file that was not analyzed, if the options, the paths and
what is said about unreadable files are on one line each, and so are the longer texts that messages quote. -/
theorem split_compact_of_analyze {d : Discovery} {report : Report} (hdiscover : a.discover t = .ok d)
    (hunreadable : ∀ x ∈ d.unreadable, IsOneLine x.display) (hlines : ∀ p ∈ d.files, t.ReadsLines p)
    (hquotes : ∀ p ∈ d.files, a.QuotesLines t p) (h : a.analyze t = .ok report) :
    Text.split '\n' report.compact = report.violations.map (·.display) ++ report.failures.map (·.display) ++ [""] ∧
      (Source.mk report.compact).lineCount = report.violations.length + report.failures.length := by
  have hfiles : ∀ p ∈ d.files, (reportOf (a.analyzeFile t p)).IsOneLine :=
    fun p hp => isOneLine_reportOf hcheckers hconfig (hlines p hp) (hquotes p hp)
  have hreport : report.IsOneLine := by
    obtain ⟨d', hdiscover', rfl⟩ := analyze_eq_ok.1 h
    obtain rfl := Except.ok.inj (hdiscover.symm.trans hdiscover')
    rw [reportOn_eq]
    constructor
    · intro v hv
      obtain ⟨p, hp, hv⟩ := List.mem_flatMap.1 (List.mem_mergeSort.1 hv)
      exact (hfiles p hp).violations v hv
    · intro x hx
      rcases List.mem_append.1 (List.mem_mergeSort.1 hx) with hx | hx
      · exact hunreadable x hx
      · obtain ⟨p, hp, hx⟩ := List.mem_flatMap.1 hx
        exact (hfiles p hp).failures x hx
  exact ⟨split_unlines hreport.compactLines, Report.lineCount_compact.2 hreport.compactLines⟩

end

/-! ## A project with one file -/

/-- The tree of `console.log('x');` with so many blanks in front of the dot. -/
def loggingAcross (blanks : Nat) : Node :=
  .plain "program" "" 0 (17 + blanks) [.plain "expression_statement" "" 0 (17 + blanks)
    [.plain "call_expression" "" 0 (16 + blanks)
      [.plain "member_expression" "function" 0 (11 + blanks)
        [.plain "identifier" "object" 0 7 [], .plain "property_identifier" "property" (8 + blanks) (11 + blanks) []],
       .plain "arguments" "arguments" (11 + blanks) (16 + blanks) [.plain "string" "" (12 + blanks) (15 + blanks) []]]]]

def projectOf (text : String) (root : Node) : FileTree :=
  .directory [("repo", .directory [("a.js", .file ⟨text.toUTF8, some root⟩)])]

def ofOneFile : Analyzer :=
  ⟨⟨"/repo"⟩, [⟨"/repo/a.js"⟩], Checker.builtin .default, [], [], 4096, .default⟩

section

variable (text : String) (root : Node)

theorem discover_projectOf : ofOneFile.discover (projectOf text root) = .ok ⟨[⟨"/repo/a.js"⟩], []⟩ := by
  have hfound : ofOneFile.targets.mapM (ofOneFile.discoverAt ofOneFile.search (projectOf text root)) =
      .ok [⟨[⟨"/repo/a.js"⟩], []⟩] := rfl
  rw [discover, discoverBy, hfound]
  simp [Path.sortUnique, Path.dedupe]

theorem fileAt_projectOf : (projectOf text root).fileAt ⟨"/repo/a.js"⟩ = .ok ⟨text.toUTF8, some root⟩ := rfl

theorem text?_toUTF8 (root? : Option Node) : (File.mk text.toUTF8 root?).text? = some text := by
  simpa [File.text?, String.fromUTF8?] using ⟨text.isValidUTF8, rfl⟩

theorem analyzeFile_projectOf : ofOneFile.analyzeFile (projectOf text root) ⟨"/repo/a.js"⟩ =
    ofOneFile.analyzeSource ⟨"/repo/a.js"⟩ text root := by
  simp only [analyzeFile, fileAt_projectOf, text?_toUTF8]

theorem analyze_projectOf : ofOneFile.analyze (projectOf text root) =
    .ok (ofOneFile.reportOn (projectOf text root) [] [⟨"/repo/a.js"⟩]) :=
  analyze_eq_ok.2 ⟨_, discover_projectOf text root, rfl⟩

end

theorem readsLines_projectOf {text : String} {root : Node}
    (hkinds : ∀ g ∈ (Focus.root root).subtree, IsOneLine g.node.kind)
    (hlexical : ∀ g ∈ (Focus.root root).subtree, g.node.IsLexical ⟨text⟩) :
    (projectOf text root).ReadsLines ⟨"/repo/a.js"⟩ where
  path := by decide
  unreadable e he := by
    rw [fileAt_projectOf] at he
    cases he
  kinds f root' hf hroot := by
    rw [fileAt_projectOf] at hf
    cases hf
    cases hroot
    exact hkinds
  lexical f text' root' hf htext hroot _ := by
    rw [fileAt_projectOf] at hf
    cases hf
    rw [text?_toUTF8] at htext
    cases htext
    cases hroot
    exact hlexical

theorem quotesLines_projectOf {text : String} {root : Node}
    (h : ∀ g ∈ (Focus.root root).subtree,
      (FileContext.ofFile ⟨"/repo"⟩ ⟨"/repo/a.js"⟩ text).QuotesOnLine .default g.node) :
    ofOneFile.QuotesLines (projectOf text root) ⟨"/repo/a.js"⟩ := by
  intro f text' root' hf htext hroot _
  rw [fileAt_projectOf] at hf
  cases hf
  rw [text?_toUTF8] at htext
  cases htext
  cases hroot
  exact h

theorem hasOneLineOptions_default : Config.default.HasOneLineOptions :=
  fun _ _ _ hv => nomatch hv

/-- Of a file with three findings there are three lines. -/
theorem split_compact_logging : ∃ report,
    ofOneFile.analyze (projectOf "console.log('x');" (loggingAcross 0)) = .ok report ∧
      Text.split '\n' report.compact =
        report.violations.map (·.display) ++ report.failures.map (·.display) ++ [""] ∧
      report.violations.length = 3 ∧ report.failures.length = 0 ∧ (Source.mk report.compact).lineCount = 3 := by
  let report := ofOneFile.reportOn (projectOf "console.log('x');" (loggingAcross 0)) [] [⟨"/repo/a.js"⟩]
  have hfound : let found := reportOf (ofOneFile.analyzeSource ⟨"/repo/a.js"⟩ "console.log('x');" (loggingAcross 0))
      found.violations.length = 3 ∧ found.failures.length = 0 := by
    decide +kernel
  have hviolations : report.violations.length = 3 := by
    simp only [report]
    rw [reportOn_eq, List.flatMap_singleton, analyzeFile_projectOf]
    exact (List.length_mergeSort _).trans hfound.1
  have hfailures : report.failures.length = 0 := by
    simp only [report]
    rw [reportOn_eq, List.flatMap_singleton, List.flatMap_singleton, analyzeFile_projectOf]
    exact (List.length_mergeSort _).trans hfound.2
  have hlines := split_compact_of_analyze (fun _ hc => hc) hasOneLineOptions_default
    (discover_projectOf "console.log('x');" (loggingAcross 0)) (fun _ hx => absurd hx List.not_mem_nil)
    (fun p hp => List.mem_singleton.1 hp ▸ readsLines_projectOf (by decide) (by decide +kernel))
    (fun p hp => List.mem_singleton.1 hp ▸ quotesLines_projectOf (by decide +kernel))
    (analyze_projectOf "console.log('x');" (loggingAcross 0))
  exact ⟨report, analyze_projectOf _ _, hlines.1, hviolations, hfailures, by rw [hlines.2, hviolations, hfailures]⟩

/-- Where an access to a console goes over two lines, so does what is shown of it. -/
theorem not_lineCount_compact : ¬ ∀ (a : Analyzer) (t : FileTree) (d : Discovery) (report : Report),
    (∀ c ∈ a.checkers, c ∈ Checker.builtin a.config) → a.config.HasOneLineOptions → a.discover t = .ok d →
      (∀ x ∈ d.unreadable, IsOneLine x.display) → (∀ p ∈ d.files, t.ReadsLines p) → a.analyze t = .ok report →
      (Source.mk report.compact).lineCount = report.violations.length + report.failures.length := by
  intro h
  have hlines := h _ _ _ _ (fun _ hc => hc) hasOneLineOptions_default
    (discover_projectOf "console\n  .log('x');" (loggingAcross 3)) (fun _ hx => absurd hx List.not_mem_nil)
    (fun p hp => List.mem_singleton.1 hp ▸ readsLines_projectOf (by decide) (by decide +kernel))
    (analyze_projectOf "console\n  .log('x');" (loggingAcross 3))
  let found := reportOf (ofOneFile.analyzeSource ⟨"/repo/a.js"⟩ "console\n  .log('x');" (loggingAcross 3))
  have hmem : "a.js:1:1: error [GL005] `console\n  .log` writes to the console directly" ∈
      found.violations.map (·.display) := by
    decide +kernel
  obtain ⟨v, hv, hdisplay⟩ := List.mem_map.1 hmem
  have hshown : IsOneLine v.display := by
    refine Report.lineCount_compact.1 hlines v.display (List.mem_append_left _ (List.mem_map_of_mem ?_))
    rw [reportOn_eq, List.flatMap_singleton, analyzeFile_projectOf]
    exact List.mem_mergeSort.2 hv
  rw [hdisplay] at hshown
  exact absurd hshown (by decide)

end Analyzer
end Guardrails
