import Guardrails.Rules.Errors
import Guardrails.Rules.Events
import Guardrails.Rules.Factory
import Guardrails.Rules.Globals
import Guardrails.Rules.Listeners
import Guardrails.Rules.Markup
import Guardrails.Rules.Module
import Guardrails.Rules.Notifier
import Guardrails.Rules.Services
import Guardrails.Rules.Startup
import Guardrails.Rules.State

/-!
# The built-in checkers
-/

namespace Guardrails.Checker

/-- Every built-in checker, with the options of the configuration, in the order of the rules. -/
def builtin (c : Config) : List Checker :=
  [(FactoryExport.ofConfig c).checker,
   (ForbiddenGlobals.ofConfig c).checker,
   TopLevelEffects.checker,
   (ListenerCleanup.ofConfig c).checker,
   (ErrorCapture.ofConfig c).checker,
   (SanitizeHtml.ofConfig c).checker,
   (ReadinessGate.ofConfig c).checker,
   (NoSharedStateMutation.ofConfig c).checker,
   (EventBus.ofConfig c).checker,
   (NavigationService.ofConfig c).checker,
   (ApiClient.ofConfig c).checker,
   (AnalyticsConsent.ofConfig c).checker,
   (NotifierMetadata.ofConfig c).checker,
   (TrackedListeners.ofConfig c).checker,
   (NoServiceLocator.ofConfig c).checker,
   (ModuleSize.ofConfig c).checker]

/-- The checkers, without options, that cover a rule of the preset. -/
def ofPreset (p : Preset) : List Checker :=
  (builtin .default).filter fun c => c.rules.any p.includes

end Guardrails.Checker
