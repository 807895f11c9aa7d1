import Mathlib
import Guardrails.Proofs.Analyzer.Discovered
import Guardrails.Proofs.Analyzer.Selection

/-!
# Batches

The report on all files is made up of what each of them comes to by itself. Everything a file comes to carries
the path of the file as seen from the root, and there the files differ, so that the report can be taken apart
again. For the same reason it does not matter in which order the files are gone through.
-/

namespace Guardrails

/-! ## Merging -/

namespace Report

/-- Whether everything in a report is about one file. -/
structure IsAbout (r : Report) (file : Path) : Prop where
  violations : ∀ v ∈ r.violations, v.location.file = file
  failures : ∀ x ∈ r.failures, x.file = file
  faults : ∀ x ∈ r.faults, x.file = file

theorem foldl_merge (r : Report) (rs : List Report) :
    rs.foldl merge r = ⟨r.violations ++ rs.flatMap (·.violations), r.failures ++ rs.flatMap (·.failures),
      r.faults ++ rs.flatMap (·.faults), rs.foldl (fun n s => n + s.filesChecked) r.filesChecked⟩ := by
  induction rs generalizing r with
  | nil => simp
  | cons s rs ih => simp [ih, merge]

end Report

section

variable {β : Type} {cmp : β → β → Ordering} [Std.TransCmp cmp] {file : β → Path} {relative : Path → Path}
  {files : List Path} {entriesOf : Path → List β}
  (hdistinct : files.Pairwise fun p q => (relative p == relative q) = false)
  (hentries : ∀ p ∈ files, ∀ b ∈ entriesOf p, file b = relative p)
include hdistinct hentries

theorem filter_mergeSort_flatMap (others : List β) {p : Path} (hp : p ∈ files) :
    ((others ++ files.flatMap entriesOf).mergeSort fun a b => (cmp a b).isLE).filter
        (file · == relative p) =
      (others.filter (file · == relative p) ++ entriesOf p).mergeSort fun a b => (cmp a b).isLE := by
  rw [(isRanking_of_transCmp cmp).filter_mergeSort, List.filter_append,
    filter_flatMap_key hentries, filter_key_eq_singleton hdistinct hp, List.flatMap_singleton]

theorem mergeSort_flatMap_of_perm (hfile : ∀ a b, cmp a b = .eq → (file a == file b) = true)
    (others : List β) {order : List Path} (horder : order.Perm files) :
    ((others ++ order.flatMap entriesOf).mergeSort fun a b => (cmp a b).isLE) =
      (others ++ files.flatMap entriesOf).mergeSort fun a b => (cmp a b).isLE := by
  refine mergeSort_eq_of_files hfile fun path => ?_
  rw [List.filter_append, List.filter_append, filter_flatMap_key hentries,
    filter_flatMap_key fun p hp => hentries p (horder.subset hp), filter_key_eq_of_perm hdistinct horder]

end

namespace Analyzer

variable {a : Analyzer} {t : FileTree}

/-! ## One file -/

theorem file_of_mem_settle {config : Config} {ctx : FileContext} {vs : List Violation}
    (hvs : ∀ v ∈ vs, v.location.file = ctx.relative) {v : Violation} (h : v ∈ settle config ctx vs) :
    v.location.file = ctx.relative := by
  obtain ⟨-, ⟨w, hw, rfl⟩ | ⟨vs', u, -, rfl⟩⟩ := mem_settle h
  · exact hvs w hw
  · rfl

theorem file_of_ofTree? {file : Path} {source : Source} {root : Node} {failure : ParseFailure}
    (h : ParseFailure.ofTree? file source root = some failure) : failure.file = file := by
  unfold ParseFailure.ofTree? at h
  split_ifs at h
  cases h
  cases root.firstDefect? <;> rfl

theorem isAbout_reportOf_error {failure : ParseFailure} {file : Path} (h : failure.file = file) :
    (reportOf (.error failure)).IsAbout file where
  violations _ hv := absurd hv List.not_mem_nil
  failures x hx := by rw [List.mem_singleton.1 hx, h]
  faults _ hx := absurd hx List.not_mem_nil

theorem isAbout_reportOf_analyzeSource (hcheckers : ∀ c ∈ a.checkers, c.ReportsInFile) (p : Path)
    (text : String) (root : Node) : (reportOf (a.analyzeSource p text root)).IsAbout (a.root.relativeTo p) := by
  unfold analyzeSource
  simp only
  split
  · rename_i hfailure
    exact isAbout_reportOf_error (file_of_ofTree? hfailure)
  · exact {
      violations := fun v hv => file_of_mem_settle (fun w hw =>
        Walk.file_of_mem_violations _ _ _ _ hcheckers hw) hv
      failures := fun x hx => absurd hx List.not_mem_nil
      faults := fun x hx => Walk.file_of_mem_faults _ _ _ _ hx }

theorem isAbout_reportOf (hcheckers : ∀ c ∈ a.checkers, c.ReportsInFile) (p : Path) :
    (reportOf (a.analyzeFile t p)).IsAbout (a.root.relativeTo p) := by
  unfold analyzeFile
  simp only
  split
  · exact isAbout_reportOf_error rfl
  · split
    · exact isAbout_reportOf_error rfl
    · exact isAbout_reportOf_error rfl
    · exact isAbout_reportOf_analyzeSource hcheckers p _ _

/-! ## All files -/

/-- The report that is made when the files are gone through in this order. -/
def reportOn (a : Analyzer) (t : FileTree) (unreadable : List ParseFailure) (order : List Path) : Report :=
  ((order.map fun p => reportOf (a.analyzeFile t p)).foldl Report.merge ⟨[], unreadable, [], 0⟩).sort

/-- The analyzer with another number of threads asked for. -/
def withThreads (a : Analyzer) (threads? : Option Nat) : Analyzer :=
  { a with config := { a.config with analyzer := { a.config.analyzer with parallelism? := threads? } } }

/-- Whether a report is the sum of what the discovered files come to by themselves, and of what could not be
read on the way to them. -/
structure IsSum (a : Analyzer) (t : FileTree) (d : Discovery) (report : Report) : Prop where
  distinct : d.files.Pairwise fun p q => (a.root.relativeTo p == a.root.relativeTo q) = false
  ofAnalysis : ∀ p ∈ d.files, ∀ analysis, a.analyzeFile t p = .ok analysis →
    report.violations.filter (·.location.file == a.root.relativeTo p) =
        Report.sortViolations analysis.violations ∧
      report.faults.filter (·.file == a.root.relativeTo p) = Report.sortFaults analysis.faults ∧
      report.failures.filter (·.file == a.root.relativeTo p) =
        Report.sortFailures (d.unreadable.filter (·.file == a.root.relativeTo p))
  ofFailure : ∀ p ∈ d.files, ∀ failure, a.analyzeFile t p = .error failure →
    report.violations.filter (·.location.file == a.root.relativeTo p) = [] ∧
      report.faults.filter (·.file == a.root.relativeTo p) = [] ∧
      failure.file = a.root.relativeTo p ∧
      report.failures.filter (·.file == a.root.relativeTo p) =
        Report.sortFailures (d.unreadable.filter (·.file == a.root.relativeTo p) ++ [failure])
  violations : ∀ v, v ∈ report.violations ↔
    ∃ p ∈ d.files, ∃ analysis, a.analyzeFile t p = .ok analysis ∧ v ∈ analysis.violations
  faults : ∀ x, x ∈ report.faults ↔
    ∃ p ∈ d.files, ∃ analysis, a.analyzeFile t p = .ok analysis ∧ x ∈ analysis.faults
  failures : ∀ x, x ∈ report.failures ↔
    x ∈ d.unreadable ∨ ∃ p ∈ d.files, a.analyzeFile t p = .error x
  filesChecked : report.filesChecked + d.files.countP (fun p => !(a.analyzeFile t p).isOk) = d.files.length
  anyOrder : ∀ order, order.Perm d.files → a.reportOn t d.unreadable order = report

theorem filesChecked_reportOf (outcome : Except ParseFailure FileAnalysis) :
    (reportOf outcome).filesChecked = if outcome.isOk then 1 else 0 := by
  cases outcome <;> rfl

theorem foldl_filesChecked (order : List Path) (n : Nat) :
    (order.map fun p => reportOf (a.analyzeFile t p)).foldl (fun n s => n + s.filesChecked) n =
      n + order.countP fun p => (a.analyzeFile t p).isOk := by
  induction order generalizing n with
  | nil => rfl
  | cons p order ih =>
    rw [List.map_cons, List.foldl_cons, ih, List.countP_cons, filesChecked_reportOf]
    omega

theorem reportOn_eq (unreadable : List ParseFailure) (order : List Path) :
    a.reportOn t unreadable order =
      ⟨Report.sortViolations (order.flatMap fun p => (reportOf (a.analyzeFile t p)).violations),
        Report.sortFailures (unreadable ++ order.flatMap fun p => (reportOf (a.analyzeFile t p)).failures),
        Report.sortFaults (order.flatMap fun p => (reportOf (a.analyzeFile t p)).faults),
        order.countP fun p => (a.analyzeFile t p).isOk⟩ := by
  rw [reportOn, Report.foldl_merge, Report.sort]
  simp only [List.nil_append, List.flatMap_map, foldl_filesChecked, Nat.zero_add]

theorem mem_violations_reportOf {outcome : Except ParseFailure FileAnalysis} {v : Violation} :
    v ∈ (reportOf outcome).violations ↔ ∃ analysis, outcome = .ok analysis ∧ v ∈ analysis.violations := by
  cases outcome <;> simp [reportOf]

theorem mem_faults_reportOf {outcome : Except ParseFailure FileAnalysis} {x : Fault} :
    x ∈ (reportOf outcome).faults ↔ ∃ analysis, outcome = .ok analysis ∧ x ∈ analysis.faults := by
  cases outcome <;> simp [reportOf]

theorem mem_failures_reportOf {outcome : Except ParseFailure FileAnalysis} {x : ParseFailure} :
    x ∈ (reportOf outcome).failures ↔ outcome = .error x := by
  cases outcome <;> simp [reportOf, eq_comm]

section

variable {files : List Path} (hcheckers : ∀ c ∈ a.checkers, c.ReportsInFile)
  (hdistinct : files.Pairwise fun p q => (a.root.relativeTo p == a.root.relativeTo q) = false)
include hcheckers hdistinct

theorem filter_violations_reportOn (unreadable : List ParseFailure) {p : Path} (hp : p ∈ files) :
    (a.reportOn t unreadable files).violations.filter (·.location.file == a.root.relativeTo p) =
      Report.sortViolations (reportOf (a.analyzeFile t p)).violations := by
  rw [reportOn_eq]
  exact filter_mergeSort_flatMap hdistinct (fun q _ => (isAbout_reportOf hcheckers q).violations) [] hp

theorem filter_faults_reportOn (unreadable : List ParseFailure) {p : Path} (hp : p ∈ files) :
    (a.reportOn t unreadable files).faults.filter (·.file == a.root.relativeTo p) =
      Report.sortFaults (reportOf (a.analyzeFile t p)).faults := by
  rw [reportOn_eq]
  exact filter_mergeSort_flatMap hdistinct (fun q _ => (isAbout_reportOf hcheckers q).faults) [] hp

theorem filter_failures_reportOn (unreadable : List ParseFailure) {p : Path} (hp : p ∈ files) :
    (a.reportOn t unreadable files).failures.filter (·.file == a.root.relativeTo p) =
      Report.sortFailures (unreadable.filter (·.file == a.root.relativeTo p) ++
        (reportOf (a.analyzeFile t p)).failures) := by
  rw [reportOn_eq]
  exact filter_mergeSort_flatMap hdistinct (fun q _ => (isAbout_reportOf hcheckers q).failures) _ hp

/-- The files may be gone through in any order. -/
theorem reportOn_of_perm (unreadable : List ParseFailure) {order : List Path} (horder : order.Perm files) :
    a.reportOn t unreadable order = a.reportOn t unreadable files := by
  rw [reportOn_eq, reportOn_eq, Report.mk.injEq]
  refine ⟨?_, ?_, ?_, ?_⟩
  · exact mergeSort_flatMap_of_perm hdistinct (fun q _ => (isAbout_reportOf hcheckers q).violations)
      (fun _ _ => Violation.file_beq_of_order) [] horder
  · exact mergeSort_flatMap_of_perm hdistinct (fun q _ => (isAbout_reportOf hcheckers q).failures)
      (fun _ _ => ParseFailure.file_beq_of_order) _ horder
  · exact mergeSort_flatMap_of_perm hdistinct (fun q _ => (isAbout_reportOf hcheckers q).faults)
      (fun _ _ => Fault.file_beq_of_order) [] horder
  · exact horder.countP_eq _

end

theorem isSum_reportOn {d : Discovery} (hcheckers : ∀ c ∈ a.checkers, c.ReportsInFile)
    (hdistinct : d.files.Pairwise fun p q => (a.root.relativeTo p == a.root.relativeTo q) = false) :
    a.IsSum t d (a.reportOn t d.unreadable d.files) where
  distinct := hdistinct
  ofAnalysis := by
    intro p hp analysis hanalysis
    rw [filter_violations_reportOn hcheckers hdistinct _ hp, filter_faults_reportOn hcheckers hdistinct _ hp,
      filter_failures_reportOn hcheckers hdistinct _ hp, hanalysis, reportOf, List.append_nil]
    exact ⟨rfl, rfl, rfl⟩
  ofFailure := by
    intro p hp failure hfailure
    rw [filter_violations_reportOn hcheckers hdistinct _ hp, filter_faults_reportOn hcheckers hdistinct _ hp,
      filter_failures_reportOn hcheckers hdistinct _ hp, hfailure]
    refine ⟨List.mergeSort_nil, List.mergeSort_nil, ?_, rfl⟩
    exact (isAbout_reportOf hcheckers p).failures failure (mem_failures_reportOf.2 hfailure)
  violations := by
    intro v
    rw [reportOn_eq, Report.sortViolations, List.mem_mergeSort, List.mem_flatMap]
    simp only [mem_violations_reportOf]
  faults := by
    intro x
    rw [reportOn_eq, Report.sortFaults, List.mem_mergeSort, List.mem_flatMap]
    simp only [mem_faults_reportOf]
  failures := by
    intro x
    rw [reportOn_eq, Report.sortFailures, List.mem_mergeSort, List.mem_append, List.mem_flatMap]
    simp only [mem_failures_reportOf]
  filesChecked := by
    rw [reportOn_eq, List.length_eq_countP_add_countP fun p => (a.analyzeFile t p).isOk]
    simp only [Bool.not_eq_true, Bool.decide_eq_false]
  anyOrder _ horder := reportOn_of_perm hcheckers hdistinct _ horder

theorem analyze_eq_ok {report : Report} :
    a.analyze t = .ok report ↔ ∃ d, a.discover t = .ok d ∧ a.reportOn t d.unreadable d.files = report := by
  rw [analyze, Except.bind_eq_ok]
  exact exists_congr fun d => and_congr_right fun _ => ⟨Except.ok.inj, congrArg _⟩

/-- The built-in checkers report on the file at hand only. With checkers that do so, and started in a directory
with an absolute path, the report on all files is the sum of what they come to by themselves, whatever number
of threads is asked for. -/
theorem isSum_of_analyze :
    (∀ config, ∀ c ∈ Checker.builtin config, c.ReportsInFile) ∧
      ∀ (here : Path) (checkers : List Checker) (o : AnalyzerOptions) (a : Analyzer) (t : FileTree)
        (report : Report),
        here.isAbsolute = true → (∀ c ∈ checkers, c.ReportsInFile) → ofOptions here checkers o = .ok a →
        a.analyze t = .ok report →
        ∃ d, a.discover t = .ok d ∧ a.IsSum t d report ∧
          ∀ threads?, (a.withThreads threads?).analyze t = .ok report := by
  constructor
  · intro config c hc
    obtain ⟨held, hheld⟩ := Checker.exists_holds_of_mem_builtin hc
    exact hheld.reportsInFile
  · intro here checkers o a t report hhere hcheckers ha hreport
    obtain ⟨d, hd, rfl⟩ := analyze_eq_ok.1 hreport
    obtain ⟨hroot, htargets⟩ := isAbsolute_of_ofOptions hhere ha
    have hactive : ∀ c ∈ a.checkers, c.ReportsInFile := by
      intro c hc
      rw [(ofOptions_eq_ok ha).1] at hc
      exact hcheckers c (List.mem_of_mem_filter hc)
    -- What is analyzed knows nothing of threads, and `anyOrder` says that their timing makes no difference.
    exact ⟨d, hd, isSum_reportOn hactive (pairwise_relativeTo_of_discover hroot htargets hd), fun _ => hreport⟩

/-- Two files, of which one is no text: the other one is checked, and breaks a rule. -/
theorem isSum_of_unreadableFile :
    let config : Config := ⟨.recommended, { AnalyzerSettings.default with excluded := [] }, []⟩
    let analyzer : Analyzer :=
      ⟨(Path.mk "/").join ⟨"."⟩, [⟨"/a.js"⟩, ⟨"/b.js"⟩, ⟨"/b.js"⟩],
        (Checker.builtin config).filter (isActive config), [], [], 4096, config⟩
    let root : Node := ⟨"program", true, false, false, false, "", 0, 0, []⟩
    let tree : FileTree := .directory
      [("a.js", .file ⟨⟨#[]⟩, some root⟩), ("b.js", .file ⟨⟨#[255]⟩, none⟩)]
    ∃ report, analyzer.analyze tree = .ok report ∧ report.violations.map (·.code) = ["GL001"] ∧
      report.failures = [unreadableFile ⟨"b.js"⟩ .noText] ∧ report.filesChecked = 1 ∧
      ∃ d, analyzer.discover tree = .ok d ∧ analyzer.IsSum tree d report ∧
        ∀ threads?, (analyzer.withThreads threads?).analyze tree = .ok report := by
  intro config analyzer root tree
  have hanalyzer : ofOptions ⟨"/"⟩ (Checker.builtin config)
    ⟨none, [⟨"a.js"⟩, ⟨"b.js"⟩, ⟨"/b.js"⟩], [], [], none, config⟩ = .ok analyzer := rfl
  have hdiscovered : analyzer.discover tree = .ok ⟨[⟨"/a.js"⟩, ⟨"/b.js"⟩], []⟩ := by
    have hfound : analyzer.targets.mapM (analyzer.discoverAt analyzer.search tree) =
        .ok [⟨[⟨"/a.js"⟩], []⟩, ⟨[⟨"/b.js"⟩], []⟩, ⟨[⟨"/b.js"⟩], []⟩] := by cbv
    have hsorted : [(⟨"/a.js"⟩ : Path), ⟨"/b.js"⟩, ⟨"/b.js"⟩].Pairwise
        fun p q => (compare p q).isLE = true := by decide +kernel
    have honce : Path.sortUnique [⟨"/a.js"⟩, ⟨"/b.js"⟩, ⟨"/b.js"⟩] = [⟨"/a.js"⟩, ⟨"/b.js"⟩] := by
      rw [Path.sortUnique, List.mergeSort_of_pairwise hsorted, Path.dedupe, if_neg (by decide +kernel),
        Path.dedupe, if_pos (by decide +kernel), Path.dedupe]
    refine Except.bind_eq_ok.2 ⟨_, hfound, ?_⟩
    exact congrArg (fun files => Except.ok (Discovery.mk files [])) honce
  obtain ⟨v, hcode, hchecked⟩ : ∃ v, v.code = "GL001" ∧
      reportOf (analyzer.analyzeFile tree ⟨"/a.js"⟩) = ⟨[v], [], [], 1⟩ := by
    refine ⟨_, ?_, by cbv⟩
    rfl
  have hunreadable : reportOf (analyzer.analyzeFile tree ⟨"/b.js"⟩) =
      ⟨[], [unreadableFile ⟨"b.js"⟩ .noText], [], 0⟩ := by
    cbv
  have hreport : analyzer.analyze tree = .ok ⟨[v], [unreadableFile ⟨"b.js"⟩ .noText], [], 1⟩ := by
    refine analyze_eq_ok.2 ⟨_, hdiscovered, ?_⟩
    rw [reportOn]
    simp [hchecked, hunreadable, Report.merge, Report.sort, Report.sortViolations, Report.sortFailures,
      Report.sortFaults]
  refine ⟨_, hreport, by rw [List.map_singleton, hcode], rfl, rfl, ?_⟩
  exact isSum_of_analyze.2 ⟨"/"⟩ _ _ _ _ _ rfl (isSum_of_analyze.1 config) hanalyzer hreport

end Analyzer
end Guardrails
