import Guardrails.Config
import Guardrails.Toml.Document

/-!
# Reading configurations

A configuration is written in TOML. Keys without a meaning are passed over, but one value of the wrong type
or one section for no rule spoils it all.
-/

namespace Guardrails

inductive ConfigError
  | unreadable (file : Path) (reason : String)
  /-- The text is no TOML, or a value has the wrong type. -/
  | malformed
  | unknownRule (key : String)
  deriving Repr

namespace ConfigError

def message : ConfigError → String
  | unreadable file reason => s!"Failed to read config file {file.spelling}: {reason}"
  | malformed => "Failed to parse config"
  | unknownRule key => s!"Unknown rule in config: {key}"

end ConfigError

/-! ## Values of the types asked for -/

namespace Toml

namespace Value

/-- The key under which a date or a time is found where a table is asked for. -/
def momentKey : String := "$__toml_private_datetime"

/-- The entries of a table. A date or a time counts as a table with one entry. -/
def entries? : Value → Option Table
  | table entries => some entries
  | datetime m => some [(momentKey, .string m.text)]
  | _ => none

def count? : Value → Option Nat
  | integer (.ofNat n) => some n
  | _ => none

def strings? (v : Value) : Option (List String) :=
  v.array?.bind (·.mapM (·.string?))

def isVoid : Value → Bool
  | array items => items.isEmpty
  | table entries => entries.isEmpty
  | _ => false

/-- One of several names: a text, or the only key of a table, with nothing in it. -/
def choice? : Value → Option String
  | string name => some name
  | table [(name, v)] => if v.isVoid then some name else none
  | _ => none

/-! ### Values of any type -/

/-- The date or the time that is the only entry of a table. -/
def moment? : Table → Option Moment
  | [(_, string text)] => Moment.ofText? text
  | _ => none

mutual

/-- The value with the dates and times in it that are written as tables. A table that starts with their key has
to be one. -/
def withMoments? : Value → Option Value
  | array items => (allWithMoments? items).map array
  | table entries =>
    if (entries.head?.map (·.1)) = some momentKey then (moment? entries).map datetime
    else (entriesWithMoments? entries).map table
  | v => some v

def allWithMoments? : List Value → Option (List Value)
  | [] => some []
  | v :: vs => do return (← withMoments? v) :: (← allWithMoments? vs)

def entriesWithMoments? : List (String × Value) → Option (List (String × Value))
  | [] => some []
  | (key, v) :: rest => do return (key, ← withMoments? v) :: (← entriesWithMoments? rest)

end

end Value

/-- What stands under a key, or `default` where nothing does. A value of another type is refused. -/
def Table.read? {α : Type} (entries : Table) (key : String) (of? : Value → Option α) (default : α) :
    Option α :=
  match entries.lookup key with
  | some v => of? v
  | none => some default

end Toml

/-! ## Configurations -/

open Toml

def Preset.ofValue? (v : Value) : Option Preset :=
  v.choice?.bind ofName?

def Severity.ofValue? (v : Value) : Option Severity :=
  v.choice?.bind ofName?

namespace AnalyzerSettings

/-- The keys of the settings. An array gives their values in this order. -/
def keys : List String :=
  ["root", "exclude", "include", "respect_gitignore", "parallelism", "max_depth"]

def ofEntries? (entries : Table) : Option AnalyzerSettings := do
  let root ← entries.read? "root" (·.string?.map Path.mk) default.root
  let excluded ← entries.read? "exclude" (·.strings?) default.excluded
  let included ← entries.read? "include" (·.strings?) default.included
  let respectGitignore ← entries.read? "respect_gitignore" (·.boolean?) default.respectGitignore
  let parallelism? ← entries.read? "parallelism" (·.count?.map some) default.parallelism?
  let maxDepth ← entries.read? "max_depth" (·.count?) default.maxDepth
  return ⟨root, excluded, included, respectGitignore, parallelism?, maxDepth⟩

def ofValue? : Value → Option AnalyzerSettings
  | .array items => ofEntries? (keys.zip items)
  | v => v.entries?.bind ofEntries?

end AnalyzerSettings

namespace RuleSection

/-- The keys that are no options. -/
def reservedKeys : List String := ["enabled", "severity"]

def ofEntries? (entries : Table) : Option RuleSection := do
  let enabled? ← entries.read? "enabled" (·.boolean?.map some) none
  let severity? ← entries.read? "severity" (Severity.ofValue? · |>.map some) none
  let options ← Value.entriesWithMoments? (entries.filter fun entry => !reservedKeys.contains entry.1)
  return ⟨enabled?, severity?, options⟩

end RuleSection

namespace Config

def sectionsOfEntries? (entries : Table) : Option (List (String × RuleSection)) :=
  entries.mapM fun (key, v) => do
    return (key, ← v.entries?.bind RuleSection.ofEntries?)

def ofEntries? (entries : Table) : Option Config := do
  let preset ← entries.read? "preset" Preset.ofValue? .recommended
  let analyzer ← entries.read? "analyzer" AnalyzerSettings.ofValue? .default
  let sections ← entries.read? "rules" (·.entries?.bind sectionsOfEntries?) []
  return ⟨preset, analyzer, sections⟩

/-- The configuration, if all its sections are for rules. -/
def validated (c : Config) : Except ConfigError Config :=
  match c.unknownKey? with
  | some key => .error (.unknownRule key)
  | none => .ok c

def ofText (text : String) : Except ConfigError Config :=
  match (Document.read? text).bind ofEntries? with
  | some c => c.validated
  | none => .error .malformed

end Config
end Guardrails
