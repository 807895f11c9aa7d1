import Guardrails.Checker
import Guardrails.Config
import Guardrails.Syntax.Function

/-!
# Browser globals

Singletons, consoles and dialogs of the browser are to be injected. A name that a parameter of a function
around it binds is injected, and is left alone. A dialog called through a singleton is reported as a
dialog, at the call, and not as an access to the singleton.
-/

namespace Guardrails

inductive GlobalUse
  /-- An object of the browser, reported where it is accessed. -/
  | singleton
  /-- An object that writes to the console, reported where it is accessed. -/
  | console
  /-- A function that blocks the page, reported where it is called. -/
  | dialog
  deriving DecidableEq, Repr

def GlobalUse.rule : GlobalUse → Rule
  | singleton => .noGlobalAccess
  | console | dialog => .notifyViaDi

/-- The globals that must not be used directly. -/
structure ForbiddenGlobals where
  table : List (String × GlobalUse)
  /-- Whether tests may write to the console and open dialogs. -/
  allowInTests : Bool

namespace ForbiddenGlobals

def defaultSingletons : List String :=
  ["window", "document", "localStorage", "sessionStorage", "navigator"]

def ofNames (singletons consoles dialogs : List String) : List (String × GlobalUse) :=
  singletons.map (·, .singleton) ++ consoles.map (·, .console) ++ dialogs.map (·, .dialog)

def ofConfig (c : Config) : ForbiddenGlobals :=
  let notify := c.options .notifyViaDi
  ⟨ofNames ((c.options .noGlobalAccess).names "globals" defaultSingletons)
      (notify.names "consoles" ["console"]) (notify.names "dialogs" ["alert", "confirm", "prompt"]),
    notify.flag "allow_in_tests" true⟩

/-- How a name must not be used, if it is a forbidden global. -/
def use? (x : ForbiddenGlobals) (name : String) : Option GlobalUse :=
  x.table.lookup name

/-- Whether the file is a test that may use the global. -/
def isExempt (x : ForbiddenGlobals) (ctx : FileContext) (use : GlobalUse) : Bool :=
  x.allowInTests && ctx.isTest && use.rule == .notifyViaDi

/-! ## Member accesses -/

/-- Whether a member access is what a call calls. -/
def isCalled (f : Focus) : Bool :=
  match f.parent? with
  | some parent =>
    parent.node.kind == "call_expression" && (parent.child? "function").any (·.isAt f)
  | none => false

/-- Whether a member access is called and its property is a dialog. -/
def isDialogCallee (x : ForbiddenGlobals) (ctx : FileContext) (f : Focus) : Bool :=
  isCalled f && (f.node.child? "property").any fun p => x.use? (ctx.textOf p) == some .dialog

def memberMessage? (x : ForbiddenGlobals) (ctx : FileContext) (f : Focus) (name : String) :
    GlobalUse → Except Failure (Option String)
  | .console => do
    let text ← ctx.text f.node
    return some ("`" ++ text ++ "` writes to the console directly")
  | .singleton =>
    return if x.isDialogCallee ctx f then none
      else some ("direct access to browser global `" ++ name ++ "`")
  | .dialog => return none

def memberFindings (x : ForbiddenGlobals) (ctx : FileContext) (f : Focus) :
    Except Failure (List Violation) :=
  match f.node.child? "object" with
  | some object =>
    if object.kind == "identifier" then do
      let name ← ctx.text object
      match x.use? name with
      | some use =>
        if x.isExempt ctx use || f.isParameterInScope ctx.source name then return []
        else
          let message? ← x.memberMessage? ctx f name use
          return message?.toList.map fun message =>
            (ctx.violationAt use.rule f.node message).withHint
      | none => return []
    else return []
  | none => return []

/-! ## Calls -/

/-- The name that a call may be opening a dialog by: called bare, or as a member of a singleton. -/
def dialogName? (x : ForbiddenGlobals) (ctx : FileContext) (function : Node) : Option String :=
  match function.accessTail ctx.source with
  | [name] => if function.kind == "identifier" then some name else none
  | [receiver, name] => if x.use? receiver == some .singleton then some name else none
  | _ => none

def callFindings (x : ForbiddenGlobals) (ctx : FileContext) (f : Focus) : List Violation :=
  match (f.node.child? "function").bind (x.dialogName? ctx) with
  | some name =>
    if x.use? name != some .dialog || x.isExempt ctx .dialog ||
        f.isParameterInScope ctx.source name then []
    else
      [(ctx.violationAt .notifyViaDi f.node
        ("blocking `" ++ name ++ "()` dialog instead of the injected notifier")).withHint]
  | none => []

/-! ## The checker -/

def findings (x : ForbiddenGlobals) (ctx : FileContext) (f : Focus) :
    Except Failure (List Violation) :=
  match f.node.kind with
  | "member_expression" => x.memberFindings ctx f
  | "call_expression" => .ok (x.callFindings ctx f)
  | _ => .ok []

def checker (x : ForbiddenGlobals) : Checker :=
  .ofFindings "forbidden-globals" [.noGlobalAccess, .notifyViaDi]
    ["member_expression", "call_expression"] .enter x.findings

end ForbiddenGlobals
end Guardrails
