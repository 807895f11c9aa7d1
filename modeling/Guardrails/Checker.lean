import Guardrails.FileContext
import Guardrails.Syntax.Focus

/-!
# Checkers

A checker is fixed knowledge about a rule together with a state machine: it starts on a file, handles the
nodes it asked for one by one, and finishes when there are no more. Each of these may report violations,
and each may fail.
-/

namespace Guardrails

/-! ## Replies -/

inductive Failure
  /-- The text of a node could not be decoded. -/
  | unreadable (kind : String) (line : Nat) (message : String)
  /-- The tree is not shaped as the checker relies on. -/
  | shape (kind : String) (line : Nat) (message : String)
  /-- The checker broke down, with or without a text about it. -/
  | breakdown (text? : Option String)
  deriving DecidableEq, Repr

def Failure.message : Failure → String
  | unreadable kind line message => s!"non UTF-8 text in {kind} at line {line}: {message}"
  | shape kind line message => s!"unexpected {kind} shape at line {line}: {message}"
  | breakdown (some text) => s!"panicked: {text}"
  | breakdown none => "panicked"

/-- What was reported, and then either a value or the reason why there is none. -/
structure Reply (α : Type) where
  reports : List Violation
  result : Except Failure α

namespace Reply

variable {α β : Type}

def bind (x : Reply α) (f : α → Reply β) : Reply β :=
  match x.result with
  | .ok a => ⟨x.reports ++ (f a).reports, (f a).result⟩
  | .error e => ⟨x.reports, .error e⟩

instance : Monad Reply where
  pure a := ⟨[], .ok a⟩
  bind := Reply.bind

def report (vs : List Violation) : Reply Unit := ⟨vs, .ok ()⟩

def fail (e : Failure) : Reply α := ⟨[], .error e⟩

def ofExcept (x : Except Failure α) : Reply α := ⟨[], x⟩

def value? (x : Reply α) : Option α :=
  match x.result with
  | .ok a => some a
  | .error _ => none

def failure? (x : Reply α) : Option Failure :=
  match x.result with
  | .ok _ => none
  | .error e => some e

@[simp] theorem reports_pure (a : α) : (pure a : Reply α).reports = [] := rfl

@[simp] theorem result_pure (a : α) : (pure a : Reply α).result = .ok a := rfl

end Reply

/-- A reply that may depend on how many violations the file has so far. -/
def Reporting (α : Type) : Type := Nat → Reply α

namespace Reporting

variable {α β : Type}

def bind (x : Reporting α) (f : α → Reporting β) : Reporting β := fun found =>
  match (x found).result with
  | .ok a =>
    let next := f a (found + (x found).reports.length)
    ⟨(x found).reports ++ next.reports, next.result⟩
  | .error e => ⟨(x found).reports, .error e⟩

instance : Monad Reporting where
  pure a := fun _ => pure a
  bind := Reporting.bind

instance : MonadLift Reply Reporting where
  monadLift x := fun _ => x

end Reporting

/-! ## Failures at nodes -/

namespace FileContext

/-- The text of a node, or the failure to decode it. -/
def text (ctx : FileContext) (n : Node) : Except Failure String :=
  match ctx.source.textOf? n with
  | .ok text => .ok text
  | .error e => .error (.unreadable n.kind (ctx.source.positionOf n).line e.message)

def shapeFailure (ctx : FileContext) (n : Node) (message : String) : Failure :=
  .shape n.kind (ctx.source.positionOf n).line message

theorem textOf_of_text {ctx : FileContext} {n : Node} {text : String} (h : ctx.text n = .ok text) :
    ctx.source.textOf n = text := by
  cases hread : ctx.source.textOf? n with
  | ok read =>
    simp only [FileContext.text, hread, Except.ok.injEq] at h
    simp only [Source.textOf, hread, h]
  | error e => simp [FileContext.text, hread] at h

theorem text_of_isOk {ctx : FileContext} {n : Node} (h : (ctx.text n).isOk = true) :
    ctx.text n = .ok (ctx.textOf n) := by
  cases htext : ctx.text n with
  | ok text => rw [textOf, textOf_of_text htext]
  | error e =>
    rw [htext] at h
    cases h

end FileContext

/-! ## Checkers -/

/-- Whether a checker goes on into what is below a node. -/
inductive Visit
  | enter
  | skipChildren
  deriving DecidableEq, Repr

/-- A detector of broken rules. Its state is made anew for every file. -/
structure Checker where
  name : String
  /-- The rules it may report. -/
  rules : List Rule
  /-- The kinds of the nodes it is to be handed. -/
  kinds : List String
  State : Type
  start : FileContext → Except Failure State
  visit : FileContext → State → Focus → Reporting (State × Visit)
  finish : FileContext → State → Reporting Unit

namespace Checker

/-- A checker says about itself what the catalog says about its first rule. -/
def description (c : Checker) : String :=
  match c.rules with
  | [] => ""
  | rule :: _ => rule.entry.description

/-- A checker that looks at each node by itself, and goes on below it or not. -/
def ofFindings (name : String) (rules : List Rule) (kinds : List String) (below : Visit)
    (findings : FileContext → Focus → Except Failure (List Violation)) : Checker where
  name
  rules
  kinds
  State := Unit
  start _ := .ok ()
  visit ctx _ f := do
    let found ← Reply.ofExcept (findings ctx f)
    Reply.report found
    return ((), below)
  finish _ _ _ := pure ()

end Checker
end Guardrails
