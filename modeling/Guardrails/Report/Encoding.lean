import Guardrails.Json.Reader
import Guardrails.Json.Value
import Guardrails.Report

/-!
# Reports in JSON

`Report.toJson` is the form in which reports are exchanged, and `Report.ofJson?` reads it back. In reading,
keys without a meaning are passed over.
-/

namespace Guardrails

open Json (field? optional? record? ofOption)

def Path.toJson (p : Path) : Json :=
  .string p.spelling

def Path.ofJson? (j : Json) : Option Path :=
  j.string?.map Path.mk

def Severity.ofJson? (j : Json) : Option Severity :=
  j.choice?.bind Severity.ofName?

def Rule.ofJson? (j : Json) : Option Rule :=
  j.natural?.bind Rule.ofNumber?

/-! ## Locations -/

namespace Location

def fields : List String := ["file", "line", "column", "offset", "length"]

def toJson (l : Location) : Json := .object [
  ("file", l.file.toJson),
  ("line", ofOption .natural l.line?),
  ("column", .natural l.column),
  ("offset", .natural l.offset),
  ("length", .natural l.length)]

def ofJson? (j : Json) : Option Location := do
  let entries ← j.record? fields 0
  return ⟨← field? entries "file" Path.ofJson?, ← optional? entries "line" (·.natural?),
    ← field? entries "column" (·.natural?), ← field? entries "offset" (·.natural?),
    ← field? entries "length" (·.natural?)⟩

end Location

/-! ## Violations -/

/-- A suggestion is a record of its own. -/
def suggestionToJson (message : String) : Json :=
  .object [("message", .string message)]

def suggestionOfJson? (j : Json) : Option String := do
  field? (← j.record? ["message"] 0) "message" (·.string?)

namespace Violation

def fields : List String :=
  ["rule_id", "code", "rule", "severity", "location", "message", "suggestion", "source_line"]

/-- The source line is left out where there is none. -/
def toJson (v : Violation) : Json := .object <| [
  ("rule_id", .natural v.rule.number),
  ("code", .string v.code),
  ("rule", .string v.name),
  ("severity", .string v.severity.name),
  ("location", v.location.toJson),
  ("message", .string v.message),
  ("suggestion", ofOption suggestionToJson v.suggestion?)] ++
  v.sourceLine?.toList.map fun line => ("source_line", .string line)

def ofJson? (j : Json) : Option Violation := do
  let entries ← j.record? fields 1
  return ⟨← field? entries "rule_id" Rule.ofJson?, ← field? entries "code" (·.string?),
    ← field? entries "rule" (·.string?), ← field? entries "severity" Severity.ofJson?,
    ← field? entries "location" Location.ofJson?, ← field? entries "message" (·.string?),
    ← optional? entries "suggestion" suggestionOfJson?,
    ← optional? entries "source_line" (·.string?)⟩

end Violation

/-! ## Failures and faults -/

namespace ParseFailure

def fields : List String := ["file", "message", "line", "column"]

def toJson (f : ParseFailure) : Json := .object [
  ("file", f.file.toJson),
  ("message", .string f.message),
  ("line", ofOption .natural f.line?),
  ("column", ofOption .natural f.column?)]

def ofJson? (j : Json) : Option ParseFailure := do
  let entries ← j.record? fields 0
  return ⟨← field? entries "file" Path.ofJson?, ← field? entries "message" (·.string?),
    ← optional? entries "line" (·.natural?), ← optional? entries "column" (·.natural?)⟩

end ParseFailure

namespace Fault

def fields : List String := ["file", "checker", "node_kind", "line", "message"]

def toJson (f : Fault) : Json := .object [
  ("file", f.file.toJson),
  ("checker", .string f.checker),
  ("node_kind", ofOption .string f.nodeKind?),
  ("line", ofOption .natural f.line?),
  ("message", .string f.message)]

def ofJson? (j : Json) : Option Fault := do
  let entries ← j.record? fields 0
  return ⟨← field? entries "file" Path.ofJson?, ← field? entries "checker" (·.string?),
    ← optional? entries "node_kind" (·.string?), ← optional? entries "line" (·.natural?),
    ← field? entries "message" (·.string?)⟩

end Fault

/-! ## Reports -/

namespace Report

def fields : List String := ["violations", "parse_failures", "faults", "files_checked"]

def toJson (r : Report) : Json := .object [
  ("violations", .array (r.violations.map (·.toJson))),
  ("parse_failures", .array (r.failures.map (·.toJson))),
  ("faults", .array (r.faults.map (·.toJson))),
  ("files_checked", .natural r.filesChecked)]

def ofJson? (j : Json) : Option Report := do
  let entries ← j.record? fields 0
  return ⟨← field? entries "violations" (·.list? Violation.ofJson?),
    ← field? entries "parse_failures" (·.list? ParseFailure.ofJson?),
    ← field? entries "faults" (·.list? Fault.ofJson?),
    ← field? entries "files_checked" (·.natural?)⟩

def json (r : Report) : String :=
  r.toJson.pretty 0

def ofText? (text : String) : Option Report :=
  (Json.ofText? text).bind ofJson?

end Report
end Guardrails
