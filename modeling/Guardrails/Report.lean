import Guardrails.Violation

/-!
# Reports

What an analysis of several files found, taken together. Reports are put into one order, so that they come out the same
however the files were gone through, and what is alike in that order stays as it was. Violations of one file, and among
them those of one rule, are shown together: groups come in the order of their keys, and a group shows the key of its
first member.
-/

namespace Guardrails

structure Report where
  violations : List Violation
  /-- The files that were not analyzed. -/
  failures : List ParseFailure
  /-- The checkers that failed, which is no finding about a file. -/
  faults : List Fault
  filesChecked : Nat
  deriving Repr

namespace Report

def empty : Report := ⟨[], [], [], 0⟩

def merge (a b : Report) : Report :=
  ⟨a.violations ++ b.violations, a.failures ++ b.failures, a.faults ++ b.faults,
    a.filesChecked + b.filesChecked⟩

def onlyRule (r : Report) (rule : Rule) : Report :=
  { r with violations := r.violations.filter (·.rule == rule) }

/-- Whether there is anything to mend: a violation, or a file that was not analyzed. -/
def isFailure (r : Report) : Bool :=
  !r.violations.isEmpty || !r.failures.isEmpty

def count (r : Report) (severity : Severity) : Nat :=
  r.violations.countP (·.severity == severity)

/-- The report in one line. Failures and faults are only spoken of where there are some. -/
def summary (r : Report) : String :=
  s!"Found {r.violations.length} violation(s) ({r.count .error} error(s), " ++
    s!"{r.count .warning} warning(s), {r.count .info} info(s)) in {r.filesChecked} file(s)" ++
    (if r.failures.isEmpty then "" else s!", {r.failures.length} file(s) could not be parsed") ++
    (if r.faults.isEmpty then "" else s!", {r.faults.length} checker fault(s)")

end Report

/-! ## The order -/

/-- By file, rule, line, column and message. What concerns a whole file comes before its lines. -/
def Violation.order (a b : Violation) : Ordering :=
  (compare a.location.file b.location.file).then <|
  (compare a.rule.number b.rule.number).then <|
  (compare a.location.line? b.location.line?).then <|
  (compare a.location.column b.location.column).then <|
  compare a.message b.message

def ParseFailure.order (a b : ParseFailure) : Ordering :=
  (compare a.file b.file).then (compare a.line? b.line?)

def Fault.order (a b : Fault) : Ordering :=
  (compare a.file b.file).then <|
  (compare a.line? b.line?).then <|
  (compare a.checker b.checker).then <|
  compare a.message b.message

namespace Report

def sortViolations (vs : List Violation) : List Violation :=
  vs.mergeSort fun a b => (a.order b).isLE

def sortFailures (fs : List ParseFailure) : List ParseFailure :=
  fs.mergeSort fun a b => (a.order b).isLE

def sortFaults (fs : List Fault) : List Fault :=
  fs.mergeSort fun a b => (a.order b).isLE

def sort (r : Report) : Report :=
  { r with
    violations := sortViolations r.violations
    failures := sortFailures r.failures
    faults := sortFaults r.faults }

end Report

/-! ## Groups -/

/-- Members under keys, where the keys ascend. -/
abbrev Groups (κ α : Type) := List (κ × List α)

namespace Groups

variable {κ α : Type} [Ord κ]

/-- Adds a member at the end of the group with its key. -/
def insert (key : κ) (a : α) : Groups κ α → Groups κ α
  | [] => [(key, [a])]
  | (k, as) :: rest =>
    match compare key k with
    | .lt => (key, [a]) :: (k, as) :: rest
    | .eq => (k, as ++ [a]) :: rest
    | .gt => (k, as) :: insert key a rest

def ofList (key : α → κ) (as : List α) : Groups κ α :=
  as.foldl (fun groups a => groups.insert (key a) a) []

def members (groups : Groups κ α) : List α :=
  groups.flatMap (·.2)

end Groups

instance : Ord Rule where
  compare a b := compare a.number b.number

abbrev RuleGroups := Groups Rule Violation

def groupByRule (vs : List Violation) : RuleGroups :=
  Groups.ofList (·.rule) vs

/-- The violations of each file by rule. -/
def groupByFile (vs : List Violation) : List (Path × RuleGroups) :=
  (Groups.ofList (·.location.file) vs).map fun (file, vs) => (file, groupByRule vs)

end Guardrails
