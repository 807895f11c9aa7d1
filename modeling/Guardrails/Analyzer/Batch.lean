import Guardrails.Analyzer
import Guardrails.Ignore.Walk
import Guardrails.Report

/-!
# Analyzing all files

The files that are to be analyzed are the targets that are files, and the JavaScript files below those that are
directories, as far as the patterns of the analyzer let them through. The report on all files is put together from what
each of them comes to.
-/

namespace Guardrails

/-! ## Discovering files -/

namespace Path

/-- The paths in ascending order, each once. Of equal ones the first spelling stays. -/
def dedupe : List Path → List Path
  | [] => []
  | [p] => [p]
  | p :: q :: rest => if p == q then dedupe (p :: rest) else p :: dedupe (q :: rest)

def sortUnique (ps : List Path) : List Path :=
  dedupe (ps.mergeSort fun p q => (compare p q).isLE)

end Path

/-- What files are searched for by: what a walk comes upon below a directory, and which paths a pattern matches. -/
structure Search where
  walk : Path → FileTree.Place → List Ignore.Found
  isMatch : Glob → Path → Bool

namespace Analyzer

/-- A path matches a pattern as it is seen from the root, or as it is. -/
def matchesAny (a : Analyzer) (s : Search) (patterns : List Glob) (p : Path) : Bool :=
  patterns.any fun g => s.isMatch g (a.root.relativeTo p) || s.isMatch g p

def isExcluded (a : Analyzer) (s : Search) (p : Path) : Bool :=
  a.matchesAny s a.excluded p

/-- Without patterns for what is included, everything is. -/
def isIncluded (a : Analyzer) (s : Search) (p : Path) : Bool :=
  a.included.isEmpty || a.matchesAny s a.included p

/-- Whether a file below a target is to be analyzed. -/
def accepts (a : Analyzer) (s : Search) (p : Path) : Bool :=
  p.isScript && !a.isExcluded s p && a.isIncluded s p

/-- The files that a walk came upon, as far as they are accepted. -/
def acceptedFile? (a : Analyzer) (s : Search) : Ignore.Found → Option Path
  | .file p => if a.accepts s p then some p else none
  | _ => none

def unreadableAt (a : Analyzer) (p : Path) (reason : String) : ParseFailure :=
  ⟨a.root.relativeTo p, "could not be read: " ++ reason, none, none⟩

/-- The failure for what a walk could not read. Several remarks together are about the target. -/
def unreadable? (a : Analyzer) (target : Path) : Ignore.Found → Option ParseFailure
  | .file _ => none
  | .unreadable dir reason =>
    some (a.unreadableAt dir s!"{dir.spelling}: IO error for operation on {dir.spelling}: {reason}")
  | .remarks r [] => some (a.unreadableAt (r.file?.getD target) r.message)
  | .remarks r rs => some (a.unreadableAt target ("\n".intercalate ((r :: rs).map (·.message))))

structure Discovery where
  files : List Path
  unreadable : List ParseFailure

/-- What is found at one target, which has to be a file or a directory. -/
def discoverAt (a : Analyzer) (s : Search) (t : FileTree) (target : Path) : Except AnalyzerError Discovery :=
  match t.placeOf target with
  | .error _ => .error (.missingPath target)
  | .ok place =>
    if place.tree.isFile then .ok ⟨if a.isExcluded s target then [] else [target], []⟩
    else if place.tree.isDirectory then
      let found := s.walk target place
      .ok ⟨found.filterMap (a.acceptedFile? s), found.filterMap (a.unreadable? target)⟩
    else .error (.missingPath target)

/-- What is found at all targets, where the first one that is missing stops the search. -/
def discoverBy (a : Analyzer) (s : Search) (t : FileTree) : Except AnalyzerError Discovery := do
  let found ← a.targets.mapM (a.discoverAt s t)
  return ⟨Path.sortUnique (found.flatMap (·.files)), found.flatMap (·.unreadable)⟩

/-- Walks heed ignore files, those of git if they are respected. -/
def search (a : Analyzer) : Search :=
  ⟨Ignore.walk a.config.analyzer.respectGitignore, Glob.isMatch⟩

def discover (a : Analyzer) (t : FileTree) : Except AnalyzerError Discovery :=
  a.discoverBy a.search t

/-! ## Whole runs -/

def unreadableFile (file : Path) (e : FileTree.Unreadable) : ParseFailure :=
  ⟨file, "could not be read: " ++ e.message, none, none⟩

/-- What a file comes to. It has to be a text, and to have been parsed. -/
def analyzeFile (a : Analyzer) (t : FileTree) (path : Path) : Except ParseFailure FileAnalysis :=
  let relative := a.root.relativeTo path
  match t.fileAt path with
  | .error e => .error (unreadableFile relative e)
  | .ok f =>
    match f.text?, f.tree? with
    | none, _ => .error (unreadableFile relative .noText)
    | some _, none => .error (.withoutTree relative)
    | some text, some root => a.analyzeSource path text root

def reportOf : Except ParseFailure FileAnalysis → Report
  | .ok analysis => ⟨analysis.violations, [], analysis.faults, 1⟩
  | .error failure => ⟨[], [failure], [], 0⟩

/-- The report on all files, in its order. -/
def analyze (a : Analyzer) (t : FileTree) : Except AnalyzerError Report := do
  let d ← a.discover t
  let reports := d.files.map fun p => reportOf (a.analyzeFile t p)
  return (reports.foldl Report.merge ⟨[], d.unreadable, [], 0⟩).sort

end Analyzer
end Guardrails
