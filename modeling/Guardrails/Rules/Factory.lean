import Guardrails.Checker
import Guardrails.Config
import Guardrails.Syntax.Function

/-!
# Factory exports

A module exports a function, named by a fixed beginning, that takes dependencies and builds an instance.
One complete factory is enough; a module without any is reported once, at the factory that comes first.
-/

namespace Guardrails

/-- What counts as a factory. -/
structure FactoryExport where
  /-- What the names of factories begin with. -/
  nameStart : String
  skipTests : Bool

namespace FactoryExport

def ofConfig (c : Config) : FactoryExport :=
  let opts := c.options .factoryExport
  ⟨((opts.option? "prefix").bind (·.string?)).getD "create", opts.flag "skip_tests" true⟩

/-! ## Candidates -/

/-- A function of the module whose name is that of a factory. -/
structure Candidate where
  name : String
  /-- Whether one of its declarations stands under an export. -/
  isExported : Bool
  hasParameter : Bool
  constructs : Bool
  nameNode : Node

/-- What was found in a module so far. -/
structure Found where
  /-- One for each name, in document order. -/
  candidates : List Candidate
  /-- The names in export clauses. -/
  listed : List String

def constructs (function : Node) : Bool :=
  function.descendants.any (·.kind == "new_expression")

/-- Takes a function of the module into account. Only the first of a name becomes a candidate. -/
def Found.record (found : Found) (name : String) (nameNode function : Node) (isExported : Bool) :
    Found :=
  if found.candidates.any (·.name == name) then
    { found with
      candidates := found.candidates.map fun c =>
        if c.name == name && isExported then { c with isExported := true } else c }
  else
    { found with
      candidates := found.candidates ++
        [⟨name, isExported, !function.parameters.isEmpty, constructs function, nameNode⟩] }

def Found.exported (found : Found) : List Candidate :=
  found.candidates.filter fun c => c.isExported || found.listed.contains c.name

/-! ## Places in a module -/

/-- The node that holds a declaration, which for a variable is what holds its statement. -/
def holder? (f : Focus) : Option Focus :=
  match f.parent? with
  | some parent =>
    if parent.node.kind == "lexical_declaration" || parent.node.kind == "variable_declaration" then
      parent.parent?
    else some parent
  | none => none

/-- Whether a declaration is exported, for the declarations that stand directly in the module. -/
def moduleLevel? (f : Focus) : Option Bool :=
  match holder? f with
  | some holder =>
    match holder.node.kind with
    | "program" => some false
    | "export_statement" => some true
    | _ => none
  | none => none

/-- The nodes of the names that an export statement lists. -/
def listedNames (statement : Node) : List Node :=
  match statement.namedChildren.find? (·.kind == "export_clause") with
  | some clause => clause.namedChildren.filterMap (·.child? "name")
  | none => []

/-! ## The checker -/

def recordNode (x : FactoryExport) (ctx : FileContext) (found : Found) (nameNode function : Node)
    (isExported : Bool) : Except Failure Found := do
  let name ← ctx.text nameNode
  return if Text.startsWith name x.nameStart then found.record name nameNode function isExported
    else found

def visitNode (x : FactoryExport) (ctx : FileContext) (found : Found) (f : Focus) :
    Except Failure Found :=
  let n := f.node
  match n.kind with
  | "export_statement" => do
    let names ← (listedNames n).mapM ctx.text
    return { found with listed := found.listed ++ names }
  | "function_declaration" =>
    match moduleLevel? f, n.child? "name" with
    | some isExported, some name => recordNode x ctx found name n isExported
    | some _, none => throw (ctx.shapeFailure n "function declaration without a name")
    | none, _ => return found
  | "variable_declarator" =>
    match moduleLevel? f, n.child? "name", n.child? "value" with
    | some isExported, some name, some value =>
      if name.kind == "identifier" && value.isFunction then
        recordNode x ctx found name value isExported
      else return found
    | _, _, _ => return found
  | _ => return found

/-- What is wrong with the first of the exported candidates. -/
def incompleteMessage (c : Candidate) : String :=
  if c.hasParameter then "factory `" ++ c.name ++ "` never constructs an instance with `new`"
  else "factory `" ++ c.name ++ "` takes no dependencies parameter"

def verdict (x : FactoryExport) (ctx : FileContext) (found : Found) : List Violation :=
  let exported := found.exported
  if exported.any fun c => c.hasParameter && c.constructs then []
  else match exported with
    | [] =>
      [(ctx.fileViolation .factoryExport
        ("module does not export a `" ++ x.nameStart ++ "*` factory")).withHint]
    | c :: _ => [(ctx.violationAt .factoryExport c.nameNode (incompleteMessage c)).withHint]

def isExempt (x : FactoryExport) (ctx : FileContext) : Bool :=
  x.skipTests && ctx.isTest

def checker (x : FactoryExport) : Checker where
  name := "factory-export"
  rules := [.factoryExport]
  kinds := ["export_statement", "function_declaration", "variable_declarator"]
  State := Found
  start _ := .ok ⟨[], []⟩
  visit ctx found f :=
    if x.isExempt ctx then pure (found, .skipChildren)
    else do
      let found ← Reply.ofExcept (x.visitNode ctx found f)
      return (found, .enter)
  finish ctx found _ := Reply.report (if x.isExempt ctx then [] else x.verdict ctx found)

end FactoryExport
end Guardrails
