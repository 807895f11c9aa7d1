import Guardrails.Rule
import Guardrails.Text.LetterCase
import Guardrails.Text.Search

/-!
# Tags

A tag is how people write a rule: its number, code, name or title, an alias, or a phrase with a telling
keyword. `Rule.ofTag?` reads one, and `Rule.ofMessage?` reads the one at the end of a message.
-/

namespace Guardrails.Rule

/-! ## Words for rules -/

/-- Other names for rules, in lowercase. -/
def aliases : List (String × Rule) :=
  [("factory", .factoryExport), ("factory function", .factoryExport),
   ("factory export", .factoryExport), ("di", .noGlobalAccess),
   ("dependency injection", .noGlobalAccess), ("strict dependency injection", .noGlobalAccess),
   ("pure imports", .noTopLevelSideEffects), ("pure import", .noTopLevelSideEffects),
   ("side effects", .noTopLevelSideEffects), ("cleanup", .listenerCleanup),
   ("event cleanup", .listenerCleanup), ("console", .notifyViaDi), ("notify", .notifyViaDi),
   ("notification", .notifyViaDi), ("error handling", .errorCapture), ("errors", .errorCapture),
   ("sanitize", .sanitizeHtml), ("sanitization", .sanitizeHtml), ("innerhtml", .sanitizeHtml),
   ("readiness", .readinessGate), ("app readiness", .readinessGate),
   ("state", .noSharedStateMutation), ("app state", .noSharedStateMutation),
   ("single source of truth", .noSharedStateMutation), ("event bus", .eventBus),
   ("module event bus", .eventBus), ("navigation", .navigationService), ("api", .apiClient),
   ("api client", .apiClient), ("analytics", .analyticsConsent), ("consent", .analyticsConsent),
   ("notifier", .notifierMetadata), ("metadata", .notifierMetadata),
   ("listeners", .trackedListeners), ("event listeners", .trackedListeners),
   ("service locator", .noServiceLocator), ("size", .moduleSize), ("module size", .moduleSize)]

/-- Words that give a rule away. The first one found decides, so `notifier` stands before `notif`. -/
def keywords : List (String × Rule) :=
  [("factory", .factoryExport), ("side effect", .noTopLevelSideEffects),
   ("pure", .noTopLevelSideEffects), ("cleanup", .listenerCleanup), ("sanitiz", .sanitizeHtml),
   ("innerhtml", .sanitizeHtml), ("readiness", .readinessGate), ("ready", .readinessGate),
   ("state", .noSharedStateMutation), ("bus", .eventBus), ("custom event", .eventBus),
   ("navigat", .navigationService), ("consent", .analyticsConsent),
   ("analytics", .analyticsConsent), ("metadata", .notifierMetadata),
   ("notifier", .notifierMetadata), ("console", .notifyViaDi), ("notif", .notifyViaDi),
   ("alert", .notifyViaDi), ("listener", .trackedListeners), ("locator", .noServiceLocator),
   ("api", .apiClient), ("fetch", .apiClient), ("error", .errorCapture), ("catch", .errorCapture),
   ("size", .moduleSize), ("lines", .moduleSize), ("global", .noGlobalAccess),
   ("inject", .noGlobalAccess)]

/-! ## Reading a tag -/

/-- The decimal number from 0 to 255 that the text is, with or without a plus sign. -/
def tagNumber? (tag : String) : Option Nat :=
  let digits := match tag.toList with
    | '+' :: rest => rest
    | chars => chars
  if digits.isEmpty || !digits.all Char.isDigit then none
  else
    let n := digits.foldl (fun n c => 10 * n + (c.toNat - '0'.toNat)) 0
    if n < 256 then some n else none

/-- The form in which tags are looked up: no blanks around, no `Rule` in front, lowercase. -/
def normalizeTag (tag : String) : String :=
  let chars := Text.trimChars tag.toList
  let chars := Text.dropEach "rule".toList (Text.dropEach "Rule".toList chars)
  Text.lowercase (String.ofList (Text.trimChars chars))

def isNamed (tag : String) (r : Rule) : Bool :=
  Text.sameUpToAsciiCase r.entry.code tag || r.entry.name == tag ||
    Text.sameUpToAsciiCase r.entry.title tag

/-- The rule that a normalized tag names, where a name wins over an alias and that over a keyword. -/
def ofWords? (tag : String) : Option Rule :=
  all.find? (isNamed tag) <|>
    (aliases.find? (·.1 == tag)).map (·.2) <|>
    (keywords.find? fun keyword => Text.contains tag keyword.1).map (·.2)

/-- The rule that a tag stands for. A tag that is a number is never read as words. -/
def ofTag? (tag : String) : Option Rule :=
  let tag := normalizeTag tag
  if tag.isEmpty then none
  else match tagNumber? tag with
    | some n => ofNumber? n
    | none => ofWords? tag

/-- The rule of the tag in the last parentheses of a message. -/
def ofMessage? (message : String) : Option Rule := do
  let (inside, _) ← Text.cutLast? ')' message.toList
  let (_, tag) ← Text.cutLast? '(' inside
  ofTag? (String.ofList tag)

end Guardrails.Rule
