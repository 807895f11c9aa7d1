import Guardrails.Checker
import Guardrails.Config
import Guardrails.Syntax.Access

/-!
# Notifier metadata

Calls of the notifier carry the metadata that group and locate a notification. A module that makes many
such calls makes them through a notifier that knows its context.
-/

namespace Guardrails

/-- What a notifier call is, and what it must carry. -/
structure NotifierMetadata where
  notifiers : List String
  levels : List String
  requiredKeys : List String
  /-- From how many calls on a module should have a notifier of its own. -/
  threshold : Nat

namespace NotifierMetadata

def ofConfig (c : Config) : NotifierMetadata :=
  let opts := c.options .notifierMetadata
  ⟨opts.names "notifiers" ["notify", "notifier"],
    opts.names "levels" ["info", "warn", "warning", "error", "success", "debug"],
    opts.names "required_keys" ["group", "context"],
    opts.count "threshold" 5⟩

/-- What was seen of a module so far. -/
structure Seen where
  rawCalls : Nat
  /-- Whether a notifier with a context is made. -/
  isScoped : Bool

/-! ## One call -/

/-- Whether the path of a callee is that of a notifier at some level. -/
def isRaw (x : NotifierMetadata) (tail : List String) : Bool :=
  match tail.reverse with
  | level :: receiver :: _ => x.notifiers.contains receiver && x.levels.contains level
  | _ => false

/-- The required keys that the options lack, unless the options cannot be looked into. -/
def missingKeys? (x : NotifierMetadata) (s : Source) : Option Node → Option (List String)
  | none => some x.requiredKeys
  | some options =>
    if options.kind == "object" then
      some (x.requiredKeys.filter fun key => !(options.objectKeys s).contains key)
    else none

/-- What is wrong with a notifier call on the path `tail`. -/
def message? (x : NotifierMetadata) (s : Source) (tail : List String) (options? : Option Node) :
    Option String :=
  match x.missingKeys? s options? with
  | none | some [] => none
  | some missing =>
    some <| "`" ++ ".".intercalate tail ++ "` " ++
      if options?.isNone then "call without an options object"
      else "options lack " ++ ", ".intercalate missing

/-- What a call adds to what was seen, and what is wrong with it. -/
def see (x : NotifierMetadata) (ctx : FileContext) (seen : Seen) (call : Node) :
    Seen × List Violation :=
  match call.child? "function" with
  | some function =>
    let tail := function.accessTail ctx.source
    if tail.getLast? = some "withContext" then ({ seen with isScoped := true }, [])
    else if x.isRaw tail then
      ({ seen with rawCalls := seen.rawCalls + 1 },
        (x.message? ctx.source tail call.callArguments[1]?).toList.map fun message =>
          (ctx.violationAt .notifierMetadata call message).withHint)
    else (seen, [])
  | none => (seen, [])

/-! ## The module -/

def scopedExample : String :=
  "const log = notify.withContext(\x7b group: 'module', context: 'feature' \x7d);"

def verdict (x : NotifierMetadata) (ctx : FileContext) (seen : Seen) : List Violation :=
  if x.threshold ≤ seen.rawCalls && !seen.isScoped then
    [(ctx.fileViolation .notifierMetadata
      s!"{seen.rawCalls} raw notifier calls and no scoped notifier").withSuggestion scopedExample]
  else []

def checker (x : NotifierMetadata) : Checker where
  name := "notifier-metadata"
  rules := [.notifierMetadata]
  kinds := ["call_expression"]
  State := Seen
  start _ := .ok ⟨0, false⟩
  visit ctx seen f := do
    let (seen, found) := x.see ctx seen f.node
    Reply.report found
    return (seen, .enter)
  finish ctx seen _ := Reply.report (x.verdict ctx seen)

end NotifierMetadata
end Guardrails
