/-!
# Rules

The severities, and the seventeen guardrails. A rule is a closed choice, so looking up what the catalog says
about it cannot fail.
-/

namespace Guardrails

/-! ## Severities -/

/-- How much a violation matters. -/
inductive Severity
  | info
  | warning
  | error
  deriving DecidableEq, Repr

namespace Severity

def name : Severity → String
  | info => "info"
  | warning => "warning"
  | error => "error"

def ofName? : String → Option Severity
  | "info" => some info
  | "warning" => some warning
  | "error" => some error
  | _ => none

@[simp] theorem ofName?_name (s : Severity) : ofName? s.name = some s := by cases s <;> rfl

end Severity

/-! ## The guardrails -/

/-- A guardrail that a module can break. -/
inductive Rule
  /-- Module exports a create* factory taking its dependencies. -/
  | factoryExport
  /-- Browser globals are injected, never reached directly. -/
  | noGlobalAccess
  /-- Importing a module executes nothing. -/
  | noTopLevelSideEffects
  /-- Tracked listeners are released by a cleanup function. -/
  | listenerCleanup
  /-- User-facing notification goes through the injected notifier. -/
  | notifyViaDi
  /-- Caught errors are captured with structured context. -/
  | errorCapture
  /-- Markup writes are sanitized. -/
  | sanitizeHtml
  /-- Startup logic waits for the readiness gate. -/
  | readinessGate
  /-- Shared application state is mutated through its API only. -/
  | noSharedStateMutation
  /-- Custom events are dispatched on a dedicated bus. -/
  | eventBus
  /-- Navigation goes through the navigation service. -/
  | navigationService
  /-- Network calls go through the injected API client. -/
  | apiClient
  /-- Analytics start only after consent. -/
  | analyticsConsent
  /-- Notifier calls carry grouping and context metadata. -/
  | notifierMetadata
  /-- DOM listeners are registered through the tracked helper. -/
  | trackedListeners
  /-- Modules never look dependencies up from the container. -/
  | noServiceLocator
  /-- Modules stay under the size limit. -/
  | moduleSize
  deriving DecidableEq, Repr

namespace Rule

/-! ## Numbers -/

/-- Every rule, in the order of the numbers. -/
def all : List Rule :=
  [.factoryExport, .noGlobalAccess, .noTopLevelSideEffects, .listenerCleanup, .notifyViaDi,
   .errorCapture, .sanitizeHtml, .readinessGate, .noSharedStateMutation, .eventBus,
   .navigationService, .apiClient, .analyticsConsent, .notifierMetadata, .trackedListeners,
   .noServiceLocator, .moduleSize]

/-- The stable number of a rule, from 1. -/
def number : Rule → Nat
  | .factoryExport => 1
  | .noGlobalAccess => 2
  | .noTopLevelSideEffects => 3
  | .listenerCleanup => 4
  | .notifyViaDi => 5
  | .errorCapture => 6
  | .sanitizeHtml => 7
  | .readinessGate => 8
  | .noSharedStateMutation => 9
  | .eventBus => 10
  | .navigationService => 11
  | .apiClient => 12
  | .analyticsConsent => 13
  | .notifierMetadata => 14
  | .trackedListeners => 15
  | .noServiceLocator => 16
  | .moduleSize => 17

def ofNumber? (n : Nat) : Option Rule :=
  all.find? (·.number == n)

@[simp] theorem ofNumber?_number (r : Rule) : ofNumber? r.number = some r := by cases r <;> rfl

theorem number_injective {r s : Rule} (h : r.number = s.number) : r = s := by
  have := congrArg ofNumber? h
  simpa using this

/-- Why a number names no rule. -/
structure UnknownNumber where
  number : Nat

def UnknownNumber.message (e : UnknownNumber) : String :=
  s!"unknown rule id {e.number}"

def ofNumber (n : Nat) : Except UnknownNumber Rule :=
  match ofNumber? n with
  | some r => .ok r
  | none => .error ⟨n⟩

/-! ## The catalog -/

structure Entry where
  code : String
  name : String
  title : String
  description : String
  /-- An example of code that follows the rule, shown as help. -/
  hint : String
  severity : Severity

def entry : Rule → Entry
  | .factoryExport =>
    { code := "GL001"
      name := "factory-export"
      title := "Factory function export"
      description :=
        "Each module exports a create* factory that takes a dependency bag and builds an instance"
      hint := "export function createThing(deps) \x7b return new Thing(deps); \x7d"
      severity := .error }
  | .noGlobalAccess =>
    { code := "GL002"
      name := "no-global-access"
      title := "Inject browser globals"
      description :=
        "Browser globals are received through the factory's dependencies, never read directly"
      hint := "const \x7b domAPI \x7d = deps; domAPI.getElementById('root');"
      severity := .error }
  | .noTopLevelSideEffects =>
    { code := "GL003"
      name := "no-top-level-side-effects"
      title := "Pure imports"
      description :=
        "Importing a module declares things; it does not execute logic"
      hint := "Move the statement into the factory or an init() method"
      severity := .error }
  | .listenerCleanup =>
    { code := "GL004"
      name := "listener-cleanup"
      title := "Centralized listener cleanup"
      description :=
        "Modules that track listeners expose a cleanup function that releases them"
      hint := "function cleanup() \x7b eventHandlers.cleanupListeners(\x7b context: MODULE \x7d); \x7d"
      severity := .error }
  | .notifyViaDi =>
    { code := "GL005"
      name := "notify-via-di"
      title := "Notifications via the injected notifier"
      description :=
        "console and alert are replaced by the notifier passed in deps"
      hint := "notify.info('Saved', \x7b group: true, context: 'settings' \x7d);"
      severity := .error }
  | .errorCapture =>
    { code := "GL006"
      name := "error-capture"
      title := "Context-rich error capture"
      description :=
        "catch blocks report the caught error together with structured context"
      hint := "catch (err) \x7b errorReporter.capture(err, \x7b module: MODULE, method: 'load' \x7d); \x7d"
      severity := .error }
  | .sanitizeHtml =>
    { code := "GL007"
      name := "sanitize-html"
      title := "Sanitize markup writes"
      description :=
        "Markup written into the DOM is the result of a sanitizer call"
      hint := "el.innerHTML = sanitizer.sanitize(html);"
      severity := .error }
  | .readinessGate =>
    { code := "GL008"
      name := "readiness-gate"
      title := "Readiness gate before startup"
      description :=
        "Startup functions wait for dependencies and DOM before running"
      hint := "async function init() \x7b await DependencySystem.waitFor(['app']); ... \x7d"
      severity := .error }
  | .noSharedStateMutation =>
    { code := "GL009"
      name := "no-shared-state-mutation"
      title := "Single source of truth"
      description :=
        "Shared application state is changed only through its setter API"
      hint := "app.setState(\x7b currentProject: project \x7d);"
      severity := .error }
  | .eventBus =>
    { code := "GL010"
      name := "event-bus"
      title := "Dedicated event bus"
      description :=
        "Custom events go through a dedicated EventTarget bus, not document or window"
      hint := "const bus = new EventTarget(); bus.dispatchEvent(new CustomEvent('saved'));"
      severity := .error }
  | .navigationService =>
    { code := "GL011"
      name := "navigation-service"
      title := "Navigation service"
      description :=
        "Route changes go through the injected navigation service"
      hint := "navigationService.navigateTo('/projects');"
      severity := .error }
  | .apiClient =>
    { code := "GL012"
      name := "api-client"
      title := "Centralized API client"
      description :=
        "Network requests go through the injected API client"
      hint := "const data = await apiClient.get('/api/projects');"
      severity := .error }
  | .analyticsConsent =>
    { code := "GL013"
      name := "analytics-consent"
      title := "Consent-gated analytics"
      description :=
        "Analytics initialization only runs after the user has consented"
      hint := "if (consentManager.hasConsent('analytics')) \x7b analytics.init(); \x7d"
      severity := .error }
  | .notifierMetadata =>
    { code := "GL014"
      name := "notifier-metadata"
      title := "Notifier metadata"
      description :=
        "Notifier calls carry group and context metadata; heavy users create a scoped notifier"
      hint := "const log = notify.withContext(\x7b module: MODULE, context: 'upload' \x7d);"
      severity := .warning }
  | .trackedListeners =>
    { code := "GL015"
      name := "tracked-listeners"
      title := "Tracked event listeners"
      description :=
        "DOM listeners are registered through the tracking helper so they can be released"
      hint := "eventHandlers.trackListener(button, 'click', onClick, \x7b context: MODULE \x7d);"
      severity := .error }
  | .noServiceLocator =>
    { code := "GL016"
      name := "no-service-locator"
      title := "No service locator lookups"
      description :=
        "Modules receive collaborators through the factory instead of querying the container"
      hint := "export function createThing(\x7b apiClient \x7d) \x7b ... \x7d"
      severity := .error }
  | .moduleSize =>
    { code := "GL017"
      name := "module-size"
      title := "Module size limit"
      description :=
        "Modules stay small enough to keep one responsibility"
      hint := "Split the module into focused factories"
      severity := .warning }

def code (r : Rule) : String := r.entry.code

def name (r : Rule) : String := r.entry.name

end Rule

end Guardrails
