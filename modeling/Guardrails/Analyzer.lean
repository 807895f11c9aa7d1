import Guardrails.Allow.Allowances
import Guardrails.Checker.Walk
import Guardrails.Config
import Guardrails.Glob
import Guardrails.Syntax.Cursor

/-!
# Analyzers

An analyzer knows what is to be analyzed and by which checkers. For one file it runs the checkers over the
syntax tree and then sets the severities, applies the allow directives, and drops the rules that are off.
-/

namespace Guardrails

/-! ## Building -/

/-- Why an analysis as a whole cannot be made. -/
inductive AnalyzerError
  | badPattern (e : Glob.PatternError)
  | missingPath (path : Path)

namespace AnalyzerError

def message : AnalyzerError → String
  | badPattern e => "Invalid glob pattern: " ++ e.message
  | missingPath path => "Path not found: " ++ path.spelling

/-- The errors behind the error, the nearest first. -/
def causes : AnalyzerError → List String
  | badPattern e => [e.message]
  | missingPath _ => []

end AnalyzerError

structure AnalyzerOptions where
  /-- What reported paths are relative to; by default the root of the configuration. -/
  root? : Option Path
  /-- The files and directories to analyze; by default the root. -/
  targets : List Path
  excluded : List String
  included : List String
  maxDepth? : Option Nat
  config : Config

structure Analyzer where
  root : Path
  targets : List Path
  checkers : List Checker
  excluded : List Glob
  included : List Glob
  maxDepth : Nat
  config : Config

namespace Analyzer

def readPatterns (patterns : List String) : Except AnalyzerError (List Glob) :=
  patterns.mapM fun pattern => (Glob.ofString pattern).mapError .badPattern

/-- Whether a checker has a rule that is on. -/
def isActive (config : Config) (c : Checker) : Bool :=
  c.rules.any config.isEnabled

/-- The analyzer for these options, started in the directory `here`. -/
def ofOptions (here : Path) (checkers : List Checker) (o : AnalyzerOptions) :
    Except AnalyzerError Analyzer :=
  let settings := o.config.analyzer
  let root := here.join (o.root?.getD settings.root)
  match readPatterns (o.excluded ++ settings.excluded),
    readPatterns (o.included ++ settings.included) with
  | .error e, _ => .error e
  | .ok _, .error e => .error e
  | .ok excluded, .ok included =>
    .ok {
      root
      targets := if o.targets.isEmpty then [root] else o.targets.map here.join
      checkers := checkers.filter (isActive o.config)
      excluded
      included
      maxDepth := o.maxDepth?.getD settings.maxDepth
      config := o.config }

/-! ## One file -/

/-- What is reported, out of what the checkers found. -/
def settle (config : Config) (ctx : FileContext) (vs : List Violation) : List Violation :=
  let vs := vs.map fun v => v.withSeverity (config.severity v.rule)
  ((Allowances.ofSource ctx.source).apply ctx vs).filter fun v => config.isEnabled v.rule

/-- What is reported on a file with this text and syntax tree. -/
def analyzeSource (a : Analyzer) (path : Path) (text : String) (root : Node) :
    Except ParseFailure FileAnalysis :=
  let ctx := FileContext.ofFile a.root path text
  match ParseFailure.ofTree? ctx.relative ctx.source root with
  | some failure => .error failure
  | none =>
    let analysis := FileAnalysis.ofWalk a.checkers a.maxDepth ctx root
    .ok { analysis with violations := settle a.config ctx analysis.violations }

end Analyzer
end Guardrails
