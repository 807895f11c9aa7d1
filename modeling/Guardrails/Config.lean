import Guardrails.Path
import Guardrails.Rule
import Guardrails.Text.LetterCase
import Guardrails.Toml.Value

/-!
# Configurations

Which rules are on, how severe they are, what options their checkers get, and which files are looked at.
A preset decides what the sections for single rules leave open.
-/

namespace Guardrails

/-! ## Presets -/

inductive Preset
  /-- Every rule at the severity of the catalog. -/
  | recommended
  /-- Every rule as an error. -/
  | strict
  /-- Only the rules about correctness and security. -/
  | minimal
  deriving DecidableEq, Repr

namespace Preset

def name : Preset → String
  | recommended => "recommended"
  | strict => "strict"
  | minimal => "minimal"

def ofName? : String → Option Preset
  | "recommended" => some recommended
  | "strict" => some strict
  | "minimal" => some minimal
  | _ => none

@[simp] theorem ofName?_name (p : Preset) : ofName? p.name = some p := by cases p <;> rfl

def minimalRules : List Rule :=
  [.factoryExport, .noTopLevelSideEffects, .errorCapture, .sanitizeHtml, .apiClient]

def includes : Preset → Rule → Bool
  | minimal, rule => minimalRules.contains rule
  | _, _ => true

def severity : Preset → Rule → Severity
  | strict, _ => .error
  | _, rule => rule.entry.severity

end Preset

/-! ## Sections -/

/-- What a configuration says about one rule. -/
structure RuleSection where
  enabled? : Option Bool
  severity? : Option Severity
  options : Toml.Table

namespace RuleSection

def empty : RuleSection := ⟨none, none, []⟩

def option? (s : RuleSection) (key : String) : Option Toml.Value :=
  s.options.lookup key

/-- A truth value, or `default` when the option is no such thing. -/
def flag (s : RuleSection) (key : String) (default : Bool) : Bool :=
  ((s.option? key).bind (·.boolean?)).getD default

/-- A natural number, or `default` when the option is no such thing. -/
def count (s : RuleSection) (key : String) (default : Nat) : Nat :=
  match (s.option? key).bind (·.integer?) with
  | some (.ofNat n) => n
  | _ => default

/-- The texts in an array, whatever else it holds, or `default` when the option is no array. -/
def names (s : RuleSection) (key : String) (default : List String) : List String :=
  match (s.option? key).bind (·.array?) with
  | some items => items.filterMap (·.string?)
  | none => default

end RuleSection

/-- Which files are analyzed, and how. -/
structure AnalyzerSettings where
  root : Path
  /-- Files that match one of these patterns are left out. -/
  excluded : List String
  /-- When there are any, only files that match one of these patterns are analyzed. -/
  included : List String
  respectGitignore : Bool
  /-- The number of threads asked for, which results do not depend on. -/
  parallelism? : Option Nat
  /-- How deep syntax trees are walked. -/
  maxDepth : Nat

namespace AnalyzerSettings

def defaultExcluded : List String :=
  ["**/node_modules/**", "**/dist/**", "**/vendor/**", "**/*.min.js"]

def default : AnalyzerSettings :=
  ⟨⟨"."⟩, defaultExcluded, [], true, none, 4096⟩

end AnalyzerSettings

/-! ## Configurations -/

structure Config where
  preset : Preset
  analyzer : AnalyzerSettings
  /-- The sections by the keys they were written under, in the order of the document. -/
  sections : List (String × RuleSection)

namespace Config

def default : Config := ⟨.recommended, .default, []⟩

/-- The rule that a section's key names: by its name, or by its code in any letter case. -/
def ruleOfKey? (key : String) : Option Rule :=
  Rule.all.find? fun r => r.name == key || Text.sameUpToAsciiCase r.code key

/-- The section of a rule: the one under its name, or else the one under its code. -/
def section? (c : Config) (r : Rule) : Option RuleSection :=
  c.sections.lookup r.name <|> c.sections.lookup r.code

def isEnabled (c : Config) (r : Rule) : Bool :=
  ((c.section? r).bind (·.enabled?)).getD (c.preset.includes r)

def severity (c : Config) (r : Rule) : Severity :=
  ((c.section? r).bind (·.severity?)).getD (c.preset.severity r)

/-- The section whose options the rule's checker gets. -/
def options (c : Config) (r : Rule) : RuleSection :=
  (c.section? r).getD .empty

def enabledRules (c : Config) : List Rule :=
  Rule.all.filter c.isEnabled

/-- The first key, in the order of keys, that names no rule. -/
def unknownKey? (c : Config) : Option String :=
  ((c.sections.map (·.1)).mergeSort (fun a b => a ≤ b)).find? fun key =>
    (ruleOfKey? key).isNone

end Config
end Guardrails
