import Guardrails.Checker
import Guardrails.Config
import Guardrails.Syntax.Function

/-!
# Caught errors

A catch clause binds the error, and throws it again or passes it to a call together with an object that
says where it came from.
-/

namespace Guardrails

/-- The keys that say where an error came from. -/
structure ErrorCapture where
  contextKeys : List String

namespace ErrorCapture

def ofConfig (c : Config) : ErrorCapture :=
  ⟨(c.options .errorCapture).names "context_keys" ["context", "module", "source", "method"]⟩

def isReference (ctx : FileContext) (error : String) (n : Node) : Bool :=
  n.kind == "identifier" && ctx.textOf n == error

/-- Whether a throw statement in the body mentions the error. -/
def rethrows (ctx : FileContext) (error : String) (body : Node) : Bool :=
  body.descendants.any fun n =>
    n.kind == "throw_statement" && n.descendants.any (isReference ctx error)

/-- Whether a call gets the error in its arguments, and an object with a context key as one of them. -/
def captures (x : ErrorCapture) (ctx : FileContext) (error : String) (call : Node) : Bool :=
  let arguments := call.callArguments
  arguments.any (fun a => (a :: a.descendants).any (isReference ctx error)) &&
    arguments.any fun a => (a.objectKeys ctx.source).any (x.contextKeys.contains ·)

def isCaptured (x : ErrorCapture) (ctx : FileContext) (error : String) (body : Node) : Bool :=
  rethrows ctx error body ||
    body.descendants.any fun n => n.kind == "call_expression" && x.captures ctx error n

def report (ctx : FileContext) (n : Node) (message : String) : List Violation :=
  [(ctx.violationAt .errorCapture n message).withHint]

def findings (x : ErrorCapture) (ctx : FileContext) (f : Focus) :
    Except Failure (List Violation) :=
  let clause := f.node
  match clause.child? "body", clause.child? "parameter" with
  | none, _ => throw (ctx.shapeFailure clause "catch clause without a body")
  | some _, none => return report ctx clause "catch block does not bind the error"
  | some body, some parameter =>
    if parameter.kind == "identifier" then do
      let error ← ctx.text parameter
      return if x.isCaptured ctx error body then []
        else report ctx clause
          ("caught `" ++ error ++ "` is neither rethrown nor captured with context")
    else
      return report ctx parameter
        "destructured catch binding cannot be captured; bind the error itself"

def checker (x : ErrorCapture) : Checker :=
  .ofFindings "error-capture" [.errorCapture] ["catch_clause"] .enter x.findings

end ErrorCapture
end Guardrails
