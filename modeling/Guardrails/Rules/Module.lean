import Guardrails.Checker
import Guardrails.Config

/-!
# Whole modules

Importing a module executes nothing, and a module is not too long.
-/

namespace Guardrails

/-! ## Top-level side effects -/

namespace TopLevelEffects

/-- The kinds of the statements that only declare. -/
def declarations : List String :=
  ["import_statement", "lexical_declaration", "variable_declaration", "function_declaration",
   "generator_function_declaration", "class_declaration", "empty_statement", "hashbang_line"]

/-- The kinds of the expressions that execute code. -/
def executing : List String :=
  ["call_expression", "new_expression", "await_expression", "assignment_expression",
   "augmented_assignment_expression", "update_expression"]

/-- Whether a statement is a directive such as a request for strict mode. -/
def isDirective (statement : Node) : Bool :=
  statement.kind == "expression_statement" && statement.inside?.any (·.kind == "string")

def statementMessage : String → String
  | "expression_statement" => "top-level expression runs on import"
  | "if_statement" | "switch_statement" => "top-level conditional runs on import"
  | "for_statement" | "for_in_statement" | "while_statement" | "do_statement" =>
    "top-level loop runs on import"
  | "try_statement" => "top-level try block runs on import"
  | "throw_statement" => "top-level throw runs on import"
  | _ => "top-level statement runs on import"

/-- What a statement of a module executes on import, if anything. -/
def effect? (statement : Node) : Option String :=
  if declarations.contains statement.kind || isDirective statement then none
  else if statement.kind == "export_statement" then
    if (statement.child? "value").any fun v => executing.contains v.kind then
      some "default export evaluates an expression with effects"
    else none
  else some (statementMessage statement.kind)

def findings (ctx : FileContext) (f : Focus) : Except Failure (List Violation) :=
  .ok <| f.node.namedChildren.filterMap fun statement =>
    (effect? statement).map fun message =>
      (ctx.violationAt .noTopLevelSideEffects statement message).withHint

def checker : Checker :=
  .ofFindings "no-top-level-side-effects" [.noTopLevelSideEffects] ["program"] .skipChildren findings

end TopLevelEffects

/-! ## Module size -/

/-- How many lines a module may have. -/
structure ModuleSize where
  maxLines : Nat

namespace ModuleSize

def ofConfig (c : Config) : ModuleSize :=
  ⟨(c.options .moduleSize).count "max_lines" 1000⟩

def findings (x : ModuleSize) (ctx : FileContext) (_ : Focus) : Except Failure (List Violation) :=
  let lines := ctx.source.lineCount
  .ok <| if x.maxLines < lines then
      [(ctx.fileViolation .moduleSize s!"module has {lines} lines (limit {x.maxLines})").withHint]
    else []

def checker (x : ModuleSize) : Checker :=
  .ofFindings "module-size" [.moduleSize] ["program"] .skipChildren x.findings

end ModuleSize
end Guardrails
