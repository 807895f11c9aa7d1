import Guardrails.Checker
import Guardrails.Config
import Guardrails.Syntax.Function

/-!
# Listeners

Listeners are registered through a tracking helper, and a module that registers any releases them in a
cleanup function.
-/

namespace Guardrails

/-! ## Listener cleanup -/

/-- How listeners are registered and released. -/
structure ListenerCleanup where
  registerMethods : List String
  releaseMethods : List String
  cleanupNames : List String
  /-- Whether the name of a cleanup function need only begin with one of the names. -/
  matchStart : Bool

namespace ListenerCleanup

def ofConfig (c : Config) : ListenerCleanup :=
  let opts := c.options .listenerCleanup
  ⟨opts.names "register_methods" ["trackListener"],
    opts.names "release_methods" ["cleanupListeners"],
    opts.names "cleanup_names" ["cleanup", "destroy", "teardown", "dispose"],
    opts.flag "match_prefix" false⟩

/-- What was seen of a module so far. -/
structure Seen where
  registrations : Nat
  /-- Whether a cleanup function releases listeners. -/
  isReleased : Bool

def isCleanupName (x : ListenerCleanup) (name : String) : Bool :=
  x.cleanupNames.any fun c => name == c || (x.matchStart && Text.startsWith name c)

/-- Whether one of the functions around a place is a cleanup function. -/
def isInCleanup (x : ListenerCleanup) (ctx : FileContext) (f : Focus) : Bool :=
  (f.ancestors.filter (·.node.isFunction)).any fun g =>
    (g.functionName? ctx.source).any x.isCleanupName

def see (x : ListenerCleanup) (ctx : FileContext) (seen : Seen) (f : Focus) : Seen :=
  match f.node.calledMethod? ctx.source with
  | some method =>
    if x.registerMethods.contains method then
      { seen with registrations := seen.registrations + 1 }
    else if !seen.isReleased && x.releaseMethods.contains method then
      { seen with isReleased := x.isInCleanup ctx f }
    else seen
  | none => seen

def message (x : ListenerCleanup) (registrations : Nat) : String :=
  s!"{registrations} tracked listener registration(s) but no " ++ "/".intercalate x.cleanupNames ++
    " function calling " ++ "/".intercalate x.releaseMethods

def verdict (x : ListenerCleanup) (ctx : FileContext) (seen : Seen) : List Violation :=
  if 0 < seen.registrations && !seen.isReleased then
    [(ctx.fileViolation .listenerCleanup (x.message seen.registrations)).withHint]
  else []

def checker (x : ListenerCleanup) : Checker where
  name := "listener-cleanup"
  rules := [.listenerCleanup]
  kinds := ["call_expression"]
  State := Seen
  start _ := .ok ⟨0, false⟩
  visit ctx seen f := pure (x.see ctx seen f, .enter)
  finish ctx seen _ := Reply.report (x.verdict ctx seen)

end ListenerCleanup

/-! ## Tracked listeners -/

/-- The methods that register listeners without tracking them. -/
structure TrackedListeners where
  methods : List String

namespace TrackedListeners

def ofConfig (c : Config) : TrackedListeners :=
  ⟨(c.options .trackedListeners).names "methods" ["addEventListener"]⟩

def findings (x : TrackedListeners) (ctx : FileContext) (f : Focus) :
    Except Failure (List Violation) :=
  let method? := (f.node.calledMethod? ctx.source).filter (x.methods.contains ·)
  .ok <| method?.toList.map fun method =>
    (ctx.violationAt .trackedListeners f.node ("untracked `" ++ method ++ "` call")).withHint

def checker (x : TrackedListeners) : Checker :=
  .ofFindings "tracked-listeners" [.trackedListeners] ["call_expression"] .enter x.findings

end TrackedListeners
end Guardrails
