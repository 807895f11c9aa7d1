import Guardrails.Checker
import Guardrails.Config
import Guardrails.Syntax.Access

/-!
# Injected services

Navigation and network access go through services that the module is given, and it does not look its
services up at run time either.
-/

namespace Guardrails

/-! ## Navigation -/

/-- The targets and the callees that navigate. -/
structure NavigationService where
  assigned : List String
  calls : List String

namespace NavigationService

def ofConfig (c : Config) : NavigationService :=
  let opts := c.options .navigationService
  ⟨opts.names "assigned" ["location", "location.href"],
    opts.names "calls"
      ["location.assign", "location.replace", "history.pushState", "history.replaceState"]⟩

/-- The first of the patterns that an access ends with. -/
def hit? (ctx : FileContext) (patterns : List String) (target : Node) : Option String :=
  let tail := target.accessTail ctx.source
  patterns.find? (endsWithPath tail)

def message? (x : NavigationService) (ctx : FileContext) (n : Node) : Option String :=
  if n.kind == "assignment_expression" then
    ((n.child? "left").bind (hit? ctx x.assigned)).map ("direct assignment to `" ++ · ++ "`")
  else ((n.child? "function").bind (hit? ctx x.calls)).map ("direct call to `" ++ · ++ "`")

def findings (x : NavigationService) (ctx : FileContext) (f : Focus) :
    Except Failure (List Violation) :=
  .ok <| (x.message? ctx f.node).toList.map fun message =>
    (ctx.violationAt .navigationService f.node message).withHint

def checker (x : NavigationService) : Checker :=
  .ofFindings "navigation-service" [.navigationService] ["assignment_expression", "call_expression"]
    .enter x.findings

end NavigationService

/-! ## Network access -/

/-- What reaches the network. -/
structure ApiClient where
  functions : List String
  /-- Names under which everything reaches the network. -/
  libraries : List String
  constructors : List String

namespace ApiClient

def ofConfig (c : Config) : ApiClient :=
  let opts := c.options .apiClient
  ⟨opts.names "functions" ["fetch"], opts.names "libraries" ["axios"],
    opts.names "constructors" ["XMLHttpRequest"]⟩

/-- The objects whose members are the globals. -/
def globalReceivers : List String := ["window", "globalThis", "self"]

/-- The global that a path stands for. -/
def globalName? : List String → Option String
  | [name] => some name
  | [receiver, name] => if globalReceivers.contains receiver then some name else none
  | _ => none

/-- What a callee reaches the network by. Of a library only plain accesses count, so that a chain of
calls on its result is reported once. -/
def directCall? (x : ApiClient) (ctx : FileContext) (function : Node) : Option String :=
  match (globalName? (function.accessTail ctx.source)).filter (x.functions.contains ·) with
  | some name => some (name ++ "()")
  | none => do
    let path ← function.accessPath? ctx.source
    let root ← path.head?
    if x.libraries.contains root then some (root ++ " request") else none

def directConstruction? (x : ApiClient) (ctx : FileContext) (constructor : Node) : Option String :=
  ((globalName? (constructor.accessTail ctx.source)).filter (x.constructors.contains ·)).map
    ("new " ++ · ++ "()")

def access? (x : ApiClient) (ctx : FileContext) (n : Node) : Option String :=
  if n.kind == "call_expression" then (n.child? "function").bind (x.directCall? ctx)
  else (n.child? "constructor").bind (x.directConstruction? ctx)

def findings (x : ApiClient) (ctx : FileContext) (f : Focus) : Except Failure (List Violation) :=
  .ok <| (x.access? ctx f.node).toList.map fun access =>
    (ctx.violationAt .apiClient f.node ("direct network access via " ++ access)).withHint

def checker (x : ApiClient) : Checker :=
  .ofFindings "api-client" [.apiClient] ["call_expression", "new_expression"] .enter x.findings

end ApiClient

/-! ## Service lookups -/

/-- The dotted paths that look services up. -/
structure NoServiceLocator where
  locators : List String

namespace NoServiceLocator

def ofConfig (c : Config) : NoServiceLocator :=
  ⟨(c.options .noServiceLocator).names "locators" ["DependencySystem.modules.get"]⟩

def isLookup (x : NoServiceLocator) (ctx : FileContext) (call : Node) : Bool :=
  (call.child? "function").any fun function =>
    x.locators.any (endsWithPath (function.accessTail ctx.source))

/-- The service that is looked up, where its name is written out. -/
def target? (ctx : FileContext) (call : Node) : Option String :=
  call.callArguments.head?.bind (Node.stringValue? ctx.source)

def message (ctx : FileContext) (call : Node) : String :=
  "service-locator lookup" ++ match target? ctx call with
    | some name => " for `" ++ name ++ "`"
    | none => ""

def findings (x : NoServiceLocator) (ctx : FileContext) (f : Focus) :
    Except Failure (List Violation) :=
  .ok <| if x.isLookup ctx f.node then
      [(ctx.violationAt .noServiceLocator f.node (message ctx f.node)).withHint]
    else []

def checker (x : NoServiceLocator) : Checker :=
  .ofFindings "no-service-locator" [.noServiceLocator] ["call_expression"] .enter x.findings

end NoServiceLocator
end Guardrails
