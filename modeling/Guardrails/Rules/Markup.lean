import Guardrails.Checker
import Guardrails.Config
import Guardrails.Syntax.Access

/-!
# Markup

What is written into the document as markup is the result of a sanitizer, or nothing at all.
-/

namespace Guardrails

/-- Where markup is written, and what makes it safe. -/
structure SanitizeHtml where
  sanitizers : List String
  /-- Properties that hold markup. -/
  sinks : List String
  /-- Methods whose second argument is markup. -/
  sinkMethods : List String

namespace SanitizeHtml

def ofConfig (c : Config) : SanitizeHtml :=
  let opts := c.options .sanitizeHtml
  ⟨opts.names "sanitizers" ["sanitize", "DOMPurify.sanitize"],
    opts.names "sinks" ["innerHTML", "outerHTML"],
    opts.names "sink_methods" ["insertAdjacentHTML"]⟩

/-! ## Safe values -/

/-- The first named node in parentheses, which may be a comment. -/
def firstNamed? (n : Node) : Option Node :=
  n.children.find? (·.isNamed)

def unwrap (n : Node) : Node :=
  if n.kind == "parenthesized_expression" then
    match _ : firstNamed? n with
    | some inside => unwrap inside
    | none => n
  else n
termination_by n.size
decreasing_by
  rename_i h
  exact Node.size_lt_of_mem (List.mem_of_find?_eq_some h)

def isSanitizer (x : SanitizeHtml) (ctx : FileContext) (function : Node) : Bool :=
  (function.lastSegment? ctx.source).any (Text.startsWith · "sanitize") ||
    function.calleeMatches ctx.source x.sanitizers

def isSafe (x : SanitizeHtml) (ctx : FileContext) (value : Node) : Bool :=
  value.isEmptyLiteral ctx.source || ((unwrap value).callee?).any (x.isSanitizer ctx)

/-! ## Writes -/

/-- The property of markup that an assignment writes to. -/
def sinkProperty? (x : SanitizeHtml) (ctx : FileContext) (target : Node) : Option String :=
  (target.propertyName? ctx.source).filter (x.sinks.contains ·)

def report (ctx : FileContext) (n : Node) (message : String) : List Violation :=
  [(ctx.violationAt .sanitizeHtml n message).withHint]

def writeFindings (x : SanitizeHtml) (ctx : FileContext) (n : Node) : List Violation :=
  match n.child? "left", n.child? "right" with
  | some left, some right =>
    match x.sinkProperty? ctx left with
    | some property =>
      if x.isSafe ctx right then []
      else report ctx n ("unsanitized write to `" ++ property ++ "`")
    | none => []
  | _, _ => []

/-- Of the assignments that combine values, only the one that appends is a write. -/
def assignmentFindings (x : SanitizeHtml) (ctx : FileContext) (n : Node) :
    Except Failure (List Violation) :=
  if n.kind == "augmented_assignment_expression" then
    match n.child? "operator" with
    | some operator => do
      let text ← ctx.text operator
      return if text == "+=" then x.writeFindings ctx n else []
    | none => throw (ctx.shapeFailure n "augmented assignment without operator")
  else return x.writeFindings ctx n

def callFindings (x : SanitizeHtml) (ctx : FileContext) (n : Node) : List Violation :=
  match (n.calledMethod? ctx.source).filter (x.sinkMethods.contains ·), n.callArguments[1]? with
  | some method, some html =>
    if x.isSafe ctx html then []
    else report ctx n ("unsanitized markup passed to `" ++ method ++ "`")
  | _, _ => []

def findings (x : SanitizeHtml) (ctx : FileContext) (f : Focus) :
    Except Failure (List Violation) :=
  if f.node.kind == "call_expression" then return x.callFindings ctx f.node
  else x.assignmentFindings ctx f.node

def checker (x : SanitizeHtml) : Checker :=
  .ofFindings "sanitize-html" [.sanitizeHtml]
    ["assignment_expression", "augmented_assignment_expression", "call_expression"] .enter x.findings

end SanitizeHtml
end Guardrails
