import Guardrails.Allow.Directive
import Guardrails.FileContext

/-!
# Allowances

The directives of a file, which of them decides about a violation, and what is left of the violations once
they are applied. A directive without a reason that hides an error is reported itself.
-/

namespace Guardrails

/-- The directives of one file, at most one on a line, from the top down. -/
structure Allowances where
  directives : List AllowDirective

namespace Allowances

def ofSource (s : Source) : Allowances :=
  ⟨s.lines.zipIdx.filterMap fun (text, index) => AllowDirective.ofLine? text (index + 1)⟩

def isEmpty (a : Allowances) : Bool :=
  a.directives.isEmpty

/-! ## Deciding -/

def ofFile? (a : Allowances) (r : Rule) : Option AllowDirective :=
  a.directives.find? fun d => d.scope == .file && d.covers r

def onLine? (a : Allowances) (r : Rule) (line : Nat) : Option AllowDirective :=
  a.directives.find? fun d => d.scope == .line && d.line == line && d.covers r

/-- The directive that allows a rule to be broken on a line, or in the file where there is no line. One
for the file comes first, then the one on the line, then the one on the line before. -/
def allowing? (a : Allowances) (r : Rule) (line? : Option Nat) : Option AllowDirective :=
  a.ofFile? r <|> line?.bind fun line => a.onLine? r line <|> a.onLine? r (line - 1)

/-! ## Applying -/

/-- A directive, by its line, that hides an error of a rule without giving a reason. -/
structure Unexplained where
  line : Nat
  rule : Rule
  deriving DecidableEq, Repr

namespace Unexplained

def isBefore (u v : Unexplained) : Bool :=
  u.line < v.line || (u.line == v.line && u.rule.number < v.rule.number)

/-- Adds an entry at its place in ascending order, unless it is there. -/
def insert (u : Unexplained) : List Unexplained → List Unexplained
  | [] => [u]
  | v :: vs => if u.isBefore v then u :: v :: vs else if u = v then v :: vs else v :: insert u vs

def message (u : Unexplained) : String :=
  "allow directive for `" ++ u.rule.name ++ "` has no reason; add reason=\"...\""

def violation (ctx : FileContext) (u : Unexplained) : Violation :=
  (ctx.violationAtLine u.rule u.line u.message).withSeverity .warning

end Unexplained

def decisionOn? (a : Allowances) (v : Violation) : Option AllowDirective :=
  a.allowing? v.rule v.location.line?

/-- What is to be reported about the directive that hides a violation. -/
def unexplained? (a : Allowances) (v : Violation) : Option Unexplained :=
  match a.decisionOn? v with
  | some d => if v.severity == .error && d.reason?.isNone then some ⟨d.line, v.rule⟩ else none
  | none => none

/-- The violations that no directive allows, and behind them the directives that lack a reason. -/
def apply (a : Allowances) (ctx : FileContext) (vs : List Violation) : List Violation :=
  let kept := vs.filter fun v => (a.decisionOn? v).isNone
  let unexplained := (vs.filterMap a.unexplained?).foldl (fun us u => u.insert us) []
  kept ++ unexplained.map (Unexplained.violation ctx)

end Allowances
end Guardrails
