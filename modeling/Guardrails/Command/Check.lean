import Guardrails.Analyzer.Batch
import Guardrails.Command
import Guardrails.Config.Reading
import Guardrails.Report.Encoding
import Guardrails.Report.Text
import Guardrails.Rule.Tag
import Guardrails.Rules.Builtin

/-!
# Checking files

The command that analyzes files and shows the report on them. It fails if the report does.

Its configuration is the first of these that is there: the file that the command names, a file in the root of the
analysis, the file of the user. With none of them the default holds.
-/

namespace Guardrails

/-! ## Where configurations come from -/

/-- The names of configuration files in the root of an analysis, the one that counts first in front. -/
def projectConfigNames : List String := ["guardlint.toml", ".guardlint.toml"]

def userConfigName : String := "config.toml"

namespace Surroundings

/-- The directory for the configuration of the user: the one named for that, or else one at home. -/
def userConfigDir? (s : Surroundings) : Option Path :=
  s.configDir? <|> s.home?.map (·.join ⟨".guardlint"⟩)

/-- The configuration files that may be there, in the order in which they count. -/
def configCandidates (s : Surroundings) (root : Path) : List Path :=
  projectConfigNames.map (fun name => root.join ⟨name⟩) ++
    s.userConfigDir?.toList.map (·.join ⟨userConfigName⟩)

/-- The configuration file for an analysis. One that the command names need not be there. -/
def configFile? (s : Surroundings) (root : Path) (named? : Option Path) : Option Path :=
  named? <|> (s.configCandidates root).find? s.existsAt

def readConfig (s : Surroundings) (file : Path) : Except ConfigError Config :=
  match s.textAt file with
  | .ok text => Config.ofText text
  | .error e => .error (.unreadable file e.message)

end Surroundings

def ConfigError.causes : ConfigError → List String
  | unreadable _ reason => [reason]
  | _ => []

def ConfigError.trouble (file : Path) (e : ConfigError) : Trouble :=
  ⟨s!"Failed to load config: {file.spelling}", e.message :: e.causes⟩

def Surroundings.config (s : Surroundings) (root : Path) (named? : Option Path) :
    Except Trouble Config :=
  match s.configFile? root named? with
  | some file => (s.readConfig file).mapError (·.trouble file)
  | none => .ok .default

/-! ## Showing reports -/

def Report.richLines (r : Report) : List String :=
  r.violations.map (·.format) ++ r.failures.map (·.display) ++ [r.summary]

/-- A report in one of the formats, without colors. -/
def Report.render (r : Report) : Format → String
  | .text => r.text false
  | .json => r.json
  | .compact => r.compact
  | .rich => Report.unlines r.richLines

/-- What is shown ends with a single line end. -/
def Report.output (r : Report) (format : Format) : String :=
  Text.trimEnd (r.render format) ++ "\n"

/-! ## Checking -/

def ruleOfTag (tag : String) : Except Trouble Rule :=
  match Rule.ofTag? tag with
  | some rule => .ok rule
  | none => .error ⟨s!"Unknown rule: {tag} (see `guardlint list-rules`)", []⟩

/-- A single directory is the root. All else is analyzed as seen from the current directory. -/
def Surroundings.rootAndTargets (s : Surroundings) (paths : List Path) : Path × List Path :=
  match paths with
  | [] => (⟨"."⟩, [])
  | [p] => if s.isDirectoryAt p then (p, []) else (⟨"."⟩, [p])
  | ps => (⟨"."⟩, ps)

def AnalyzerError.trouble (e : AnalyzerError) : Trouble :=
  match e with
  | .badPattern _ => ⟨"Failed to build analyzer", e.message :: e.causes⟩
  | .missingPath _ => ⟨"Analysis failed", e.message :: e.causes⟩

def Surroundings.reportWith (s : Surroundings) (options : CheckOptions) (root : Path)
    (targets : List Path) (config : Config) : Except AnalyzerError Report :=
  match Analyzer.ofOptions s.here (Checker.builtin config)
    ⟨some root, targets, options.excluded, [], none, config⟩ with
  | .ok analyzer => analyzer.analyze s.tree
  | .error e => .error e

/-- The report that a check makes. The tag is looked at before the configuration. -/
def Surroundings.check (s : Surroundings) (configFile? : Option Path) (options : CheckOptions) :
    Except Trouble Report := do
  let rule? ← options.tag?.mapM ruleOfTag
  let (root, targets) := s.rootAndTargets options.paths
  let config ← s.config root configFile?
  let report ← (s.reportWith options root targets config).mapError (·.trouble)
  match rule? with
  | some rule => return report.onlyRule rule
  | none => return report

end Guardrails
