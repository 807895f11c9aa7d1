import Guardrails.Syntax.Node
import Guardrails.Violation

/-!
# File contexts

What a checker is told about the file at hand, and the violations it can build from that.
-/

namespace Guardrails

/-- A file under analysis. -/
structure FileContext where
  path : Path
  /-- The path that reports show. -/
  relative : Path
  source : Source
  isTest : Bool

namespace FileContext

def ofFile (root path : Path) (text : String) : FileContext :=
  ⟨path, root.relativeTo path, ⟨text⟩, path.isTest⟩

def textOf (ctx : FileContext) (n : Node) : String :=
  ctx.source.textOf n

def withSourceLine (ctx : FileContext) (line : Nat) (v : Violation) : Violation :=
  { v with sourceLine? := ctx.source.lineText? line }

def locationOf (ctx : FileContext) (n : Node) : Location :=
  let position := ctx.source.positionOf n
  ⟨ctx.relative, some position.line, position.reportColumn, n.start, n.stop - n.start⟩

def violationAt (ctx : FileContext) (rule : Rule) (n : Node) (message : String) : Violation :=
  ctx.withSourceLine (ctx.source.positionOf n).line (.ofRule rule (ctx.locationOf n) message)

def violationAtLine (ctx : FileContext) (rule : Rule) (line : Nat) (message : String) : Violation :=
  ctx.withSourceLine line
    (.ofRule rule ⟨ctx.relative, some line, 1, ctx.source.offsetAt line 1, 0⟩ message)

def fileViolation (ctx : FileContext) (rule : Rule) (message : String) : Violation :=
  .ofRule rule (.ofFile ctx.relative) message

end FileContext
end Guardrails
