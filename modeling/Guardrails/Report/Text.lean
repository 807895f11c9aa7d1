import Guardrails.Report

/-!
# Reports as text

The full text shows the violations by file and rule and ends with the summary. The compact one has a line
for each violation and each file that was not analyzed.
-/

namespace Guardrails

/-- The name of the severity, in its color if colors are shown. -/
def Severity.paint (color : Bool) (s : Severity) : String :=
  if color then s!"\x1b[{code}m{s.name}\x1b[0m" else s.name
where
  code := match s with
    | error => 31
    | warning => 33
    | info => 34

def Location.position (l : Location) : String :=
  match l.line? with
  | some line => s!"{line}:{l.column}"
  | none => "file"

namespace Report

/-! ## The full text -/

/-- The line that a violation is shown by. The ones below it are indented deeper. -/
def headline (color : Bool) (v : Violation) : String :=
  s!"    {v.location.position} {v.severity.paint color}: {v.message}"

def violationLines (color : Bool) (v : Violation) : List String :=
  headline color v :: v.sourceLine?.toList.map ("      | " ++ Text.trim ·) ++
    v.suggestion?.toList.map ("      = help: " ++ ·)

def ruleLines (color : Bool) (rule : Rule) (vs : List Violation) : List String :=
  s!"  {rule.code} {rule.name} ({vs.length})" :: vs.flatMap (violationLines color)

/-- The lines for a file, with an empty one at the end. -/
def fileLines (color : Bool) (file : Path) (groups : RuleGroups) : List String :=
  file.spelling :: groups.flatMap (fun (rule, vs) => ruleLines color rule vs) ++ [""]

def textLines (r : Report) (color : Bool) : List String :=
  (groupByFile r.violations).flatMap (fun (file, groups) => fileLines color file groups) ++
    r.failures.map (fun f => s!"{Severity.paint color .error}: {f.display}") ++
    r.faults.map (fun f => s!"{Severity.paint color .warning}: checker fault: {f.display}") ++
    [r.summary]

def unlines (lines : List String) : String :=
  String.join (lines.map (· ++ "\n"))

def text (r : Report) (color : Bool) : String :=
  unlines (r.textLines color)

/-! ## The compact text -/

def compactLines (r : Report) : List String :=
  r.violations.map (·.display) ++ r.failures.map (·.display)

def compact (r : Report) : String :=
  unlines r.compactLines

end Report
end Guardrails
