import Guardrails.Rule.Tag

/-!
# Allow directives

A comment `// guardlint: allow(tags) reason="text"` allows rules to be broken on its own line and the next,
and `allow-file(tags)` does so for the whole file. `AllowDirective.ofLine?` reads one off a line.
-/

namespace Guardrails

inductive AllowScope
  | line
  | file
  deriving DecidableEq, Repr

/-- A directive that allows some rules to be broken. -/
structure AllowDirective where
  scope : AllowScope
  rules : List Rule
  /-- Whether every rule is allowed. -/
  all : Bool
  reason? : Option String
  /-- The line it stands on, from 1. -/
  line : Nat
  deriving DecidableEq, Repr

namespace AllowDirective

def covers (d : AllowDirective) (r : Rule) : Bool :=
  d.all || d.rules.contains r

/-! ## Reading -/

/-- What follows the directive's keyword in a comment that starts here. -/
def bodyHere? (text : List Char) : Option (List Char) := do
  let comment ← Text.afterStart? "//".toList text
  let inside := Text.trimLeft (comment.dropWhile (· == '/'))
  let body ← Text.afterStart? "guardlint:".toList inside
  return Text.trimLeft body

/-- What follows the keyword of the first comment on the line that has it. -/
def body? : List Char → Option (List Char)
  | [] => none
  | c :: rest => bodyHere? (c :: rest) <|> body? rest

/-- The scope, and what follows the opening parenthesis. -/
def scope? (body : List Char) : Option (AllowScope × List Char) :=
  ((Text.afterStart? "allow-file(".toList body).map (AllowScope.file, ·)) <|>
    ((Text.afterStart? "allow(".toList body).map (AllowScope.line, ·))

/-- The tags between the commas, without blanks around them. -/
def tagsOf (list : List Char) : List String :=
  ((Text.splitChars ',' list).map fun tag => String.ofList (Text.trimChars tag)).filter
    (!·.isEmpty)

def isAll (tag : String) : Bool :=
  Text.sameUpToAsciiCase tag "all"

/-- The rules of the tags that stand for one, each once. -/
def rulesOf (tags : List String) : List Rule :=
  ((tags.filter (!isAll ·)).filterMap Rule.ofTag?).eraseDups

/-- The text in quotes behind `reason=`, unless it is blank. -/
def reasonOf? (tail : List Char) : Option String := do
  let quoted ← Text.afterStart? "reason=".toList (Text.trimChars tail)
  let inside ← Text.afterStart? ['"'] (Text.trimChars quoted)
  let (reason, _) ← Text.cutFirst? '"' inside
  let reason := Text.trimChars reason
  if reason.isEmpty then none else some (String.ofList reason)

/-- The directive on a line, if there is one that allows anything. -/
def ofLine? (text : String) (line : Nat) : Option AllowDirective := do
  let body ← body? text.toList
  let (scope, rest) ← scope? body
  let (list, tail) ← Text.cutFirst? ')' rest
  let tags := tagsOf list
  let rules := rulesOf tags
  let all := tags.any isAll
  if rules.isEmpty && !all then none else some ⟨scope, rules, all, reasonOf? tail, line⟩

end AllowDirective
end Guardrails
