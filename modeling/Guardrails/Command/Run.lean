import Guardrails.Command
import Guardrails.Command.Arguments
import Guardrails.Command.Check
import Guardrails.Config

/-!
# Running commands

The list of the rules, the configuration to start from, and what the words of a command line come to.
-/

namespace Guardrails

/-! ## The list of rules -/

namespace RuleList

def pad (width : Nat) (text : String) : String :=
  text ++ String.ofList (List.replicate (width - text.length) ' ')

/-- A line of the list. The last column is as wide as it is. -/
def row (number code name severity description : String) : String :=
  " ".intercalate [pad 4 number, pad 7 code, pad 27 name, pad 8 severity, description]

def ruleRow (r : Rule) : String :=
  row (toString r.number) r.code r.name r.entry.severity.name r.entry.description

def minimalCodes : List String :=
  (Rule.all.filter Preset.minimal.includes).map (·.code)

def lines : List String :=
  ["Available rules:", "", row "#" "Code" "Name" "Severity" "Description",
    String.ofList (List.replicate 96 '-')] ++
  Rule.all.map ruleRow ++
  ["", "Presets:",
    "  recommended  - every rule at its catalog severity (default)",
    "  strict       - every rule, reported as an error",
    "  minimal      - " ++ ", ".intercalate minimalCodes,
    "",
    "Use --rule to report a single rule, e.g.:",
    "  guardlint check --rule sanitize-html",
    "  guardlint check --rule GL007"]

def text : String :=
  String.join (lines.map (· ++ "\n"))

end RuleList

/-! ## The configuration to start from -/

namespace Starter

def fileName : String := "guardlint.toml"

def file : Path := (⟨"."⟩ : Path).join ⟨fileName⟩

def lines : List String := [
  "# guardlint configuration",
  "",
  "# recommended | strict | minimal",
  "preset = \"recommended\"",
  "",
  "[analyzer]",
  "# Root directory to analyze (default: current directory)",
  "# root = \"./static/js\"",
  "",
  "# Glob patterns to exclude from analysis",
  "exclude = [",
  "    \"**/node_modules/**\",",
  "    \"**/dist/**\",",
  "    \"**/vendor/**\",",
  "    \"**/*.min.js\",",
  "]",
  "",
  "# Respect .gitignore files",
  "respect_gitignore = true",
  "",
  "# Worker threads (default: one per core)",
  "# parallelism = 4",
  "",
  "# Rule configurations",
  "# Each rule can be enabled/disabled and have its severity overridden.",
  "# Rules are keyed by name or code.",
  "",
  "[rules.sanitize-html]",
  "enabled = true",
  "sanitizers = [\"sanitize\", \"DOMPurify.sanitize\"]",
  "",
  "[rules.no-global-access]",
  "globals = [\"window\", \"document\", \"localStorage\", \"sessionStorage\", \"navigator\"]",
  "",
  "[rules.notifier-metadata]",
  "# severity = \"error\"",
  "threshold = 5",
  "",
  "# [rules.module-size]",
  "# max_lines = 1000"]

def text : String :=
  String.join (lines.map (· ++ "\n"))

def message : String :=
  s!"Created {fileName}\n\nNext steps:\n  1. Edit {fileName} to configure rules\n" ++
    "  2. Run: guardlint check\n"

/-- A file that is there is written over only by force, and a directory never. -/
def create (s : Surroundings) (force : Bool) : Except Trouble Outcome :=
  if s.existsAt file && !force then
    .error ⟨s!"Configuration file already exists at {file.spelling}. Use --force to overwrite.", []⟩
  else if s.isDirectoryAt file then
    .error ⟨s!"Failed to write {file.spelling}", [FileTree.Unreadable.isDirectory.message]⟩
  else .ok ⟨0, message, "", [(file, text)]⟩

end Starter

/-! ## Commands -/

def usage : Outcome :=
  ⟨2, "", "error: the arguments make no sense\n\nUsage: guardlint [OPTIONS] <COMMAND>\n", []⟩

def versionText : String := "guardlint 0.3.0\n"

def Outcome.ofExcept : Except Trouble Outcome → Outcome
  | .ok outcome => outcome
  | .error trouble => trouble.outcome

namespace Surroundings

def run (s : Surroundings) (i : Invocation) : Outcome :=
  match i.command with
  | .check options =>
    .ofExcept <| (s.check i.configFile? options).map fun report =>
      .shown (report.output options.format) report.isFailure
  | .listRules => .shown RuleList.text false
  | .init force => .ofExcept (Starter.create s force)
  | .version => .shown versionText false

def runWords (s : Surroundings) (words : List String) : Outcome :=
  match Arguments.read? words with
  | some i => s.run i
  | none => usage

end Surroundings

end Guardrails
