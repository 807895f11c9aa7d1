import Guardrails.Checker
import Guardrails.Config
import Guardrails.Syntax.Function

/-!
# Startup

Startup functions wait until the application is ready, and analytics start only after consent.
-/

namespace Guardrails

/-! ## The readiness gate -/

/-- The functions that start things, and the ones that wait. -/
structure ReadinessGate where
  startupNames : List String
  readinessApis : List String

namespace ReadinessGate

def ofConfig (c : Config) : ReadinessGate :=
  let opts := c.options .readinessGate
  ⟨opts.names "startup_names" ["init", "initialize", "bootstrap", "start"],
    opts.names "readiness_apis" ["waitFor", "waitForDepsAndDom", "whenReady"]⟩

/-- Whether a function has anything to run. -/
def hasWork (function : Node) : Bool :=
  (function.child? "body").any fun body =>
    !(body.kind == "statement_block" && body.isEmptyBlock)

def message (x : ReadinessGate) (name : String) : String :=
  "`" ++ name ++ "` runs without waiting for readiness (" ++ ", ".intercalate x.readinessApis ++ ")"

def findings (x : ReadinessGate) (ctx : FileContext) (f : Focus) :
    Except Failure (List Violation) :=
  .ok <| match (f.functionName? ctx.source).filter (x.startupNames.contains ·) with
    | some name =>
      if hasWork f.node && !f.node.callsAny ctx.source x.readinessApis then
        [(ctx.violationAt .readinessGate f.node (x.message name)).withHint]
      else []
    | none => []

def checker (x : ReadinessGate) : Checker :=
  .ofFindings "readiness-gate" [.readinessGate] Node.functionKinds .enter x.findings

end ReadinessGate

/-! ## Consent to analytics -/

/-- The calls that start analytics, and the words by which a condition asks for consent. -/
structure AnalyticsConsent where
  initializers : List String
  markers : List String

namespace AnalyticsConsent

def ofConfig (c : Config) : AnalyticsConsent :=
  let opts := c.options .analyticsConsent
  ⟨opts.names "initializers"
      ["gtag", "initAnalytics", "analytics.init", "analytics.load", "posthog.init", "mixpanel.init"],
    (opts.names "consent_markers" ["consent"]).map Text.lowercase⟩

def isConsentCheck (x : AnalyticsConsent) (ctx : FileContext) (condition : Node) : Bool :=
  x.markers.any (condition.mentions ctx.source)

def isExit (n : Node) : Bool :=
  n.kind == "return_statement" || n.kind == "throw_statement"

/-- Whether a statement leaves early, depending on consent. -/
def isEarlyExit (x : AnalyticsConsent) (ctx : FileContext) (statement : Node) : Bool :=
  statement.kind == "if_statement" &&
    match statement.child? "condition", statement.child? "consequence" with
    | some condition, some consequence =>
      x.isConsentCheck ctx condition && (consequence :: consequence.descendants).any isExit
    | _, _ => false

/-- Whether `around` guards `child`, the node right below it on the way to a call. -/
def guards (x : AnalyticsConsent) (ctx : FileContext) (child around : Focus) : Bool :=
  match around.node.kind with
  | "if_statement" | "ternary_expression" =>
    (around.child? "condition").any fun c => !c.isAt child && x.isConsentCheck ctx c.node
  | "binary_expression" =>
    (around.node.child? "operator").any (ctx.textOf · == "&&") &&
      (around.child? "right").any (·.isAt child) &&
      (around.node.child? "left").any (x.isConsentCheck ctx)
  | "statement_block" | "program" =>
    (around.namedChildren.takeWhile (!·.isAt child)).any fun s => x.isEarlyExit ctx s.node
  | _ => false

def isGated (x : AnalyticsConsent) (ctx : FileContext) (f : Focus) : Bool :=
  ((f :: f.ancestors).zip f.ancestors).any fun (child, around) => x.guards ctx child around

def initializer? (x : AnalyticsConsent) (ctx : FileContext) (call : Node) : Option String :=
  (call.child? "function").bind fun function =>
    x.initializers.find? (endsWithPath (function.accessTail ctx.source))

def findings (x : AnalyticsConsent) (ctx : FileContext) (f : Focus) :
    Except Failure (List Violation) :=
  .ok <| match x.initializer? ctx f.node with
    | some name =>
      if x.isGated ctx f then []
      else
        [(ctx.violationAt .analyticsConsent f.node
          ("analytics initialization `" ++ name ++ "` is not gated on consent")).withHint]
    | none => []

def checker (x : AnalyticsConsent) : Checker :=
  .ofFindings "analytics-consent" [.analyticsConsent] ["call_expression"] .enter x.findings

end AnalyticsConsent
end Guardrails
