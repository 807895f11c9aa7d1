import Guardrails.Path
import Guardrails.Rule
import Guardrails.Text.Search

/-!
# Violations

What is reported about a file: violations of rules, faults of checkers, and files that could not be
parsed, with the one-line text of each.
-/

namespace Guardrails

/-! ## Locations -/

/-- A place in a file, or the file as a whole when there is no line. -/
structure Location where
  file : Path
  line? : Option Nat
  column : Nat
  offset : Nat
  length : Nat
  deriving Repr

namespace Location

def ofFile (file : Path) : Location := ⟨file, none, 0, 0, 0⟩

def display (l : Location) : String :=
  match l.line? with
  | some line => s!"{l.file.spelling}:{line}:{l.column}"
  | none => l.file.spelling

end Location

/-! ## Violations -/

/-- A finding that a rule is broken. The code and the name are those the report carries. -/
structure Violation where
  rule : Rule
  code : String
  name : String
  severity : Severity
  location : Location
  message : String
  suggestion? : Option String
  sourceLine? : Option String
  deriving Repr

namespace Violation

/-- A violation with the catalog's code, name and severity. -/
def ofRule (rule : Rule) (location : Location) (message : String) : Violation :=
  ⟨rule, rule.code, rule.name, rule.entry.severity, location, message, none, none⟩

def withSuggestion (v : Violation) (suggestion : String) : Violation :=
  { v with suggestion? := some suggestion }

/-- The violation with the catalog's hint as its suggestion. -/
def withHint (v : Violation) : Violation :=
  v.withSuggestion v.rule.entry.hint

def withSeverity (v : Violation) (severity : Severity) : Violation :=
  { v with severity }

def display (v : Violation) : String :=
  s!"{v.location.display}: {v.severity.name} [{v.code}] {v.message}"

/-- The violation in several lines, with the source line and the help where it has them. -/
def format (v : Violation) : String :=
  s!"{v.code} {v.name} at {v.location.display}\n" ++
    s!"  {v.severity.name}: {v.message}\n" ++
    (match v.sourceLine? with
      | some line => "  | " ++ Text.trim line ++ "\n"
      | none => "") ++
    (match v.suggestion? with
      | some help => s!"  = help: {help}\n"
      | none => "")

end Violation

/-! ## Faults and parse failures -/

/-- A checker that failed on a file. It is told apart from what the checkers find. -/
structure Fault where
  file : Path
  checker : String
  nodeKind? : Option String
  line? : Option Nat
  message : String
  deriving Repr

def Fault.display (f : Fault) : String :=
  f.file.spelling ++ (match f.line? with | some line => s!":{line}" | none => "") ++
    ": checker `" ++ f.checker ++ "` failed" ++
    (match f.nodeKind? with | some kind => " on " ++ kind | none => "") ++ ": " ++ f.message

/-- A file that was not analyzed. -/
structure ParseFailure where
  file : Path
  message : String
  line? : Option Nat
  column? : Option Nat
  deriving Repr

def ParseFailure.display (f : ParseFailure) : String :=
  s!"{f.file.spelling}: could not be analyzed: {f.message}"

end Guardrails
