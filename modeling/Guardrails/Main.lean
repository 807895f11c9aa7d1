import Guardrails.Command.Run
import Guardrails.FileTree.Encoding

/-!
# The program

The files to look at are read from standard input, in JSON, with the syntax trees of those that have been
parsed. They are taken to be in the current directory.
-/

namespace Guardrails

partial def readRest (input : IO.FS.Stream) (before : String) : IO String := do
  let line ← input.getLine
  if line.isEmpty then return before
  readRest input (before ++ line)

def surroundings? (text : String) : IO (Option Surroundings) := do
  let here : Path := ⟨toString (← IO.currentDir)⟩
  let configDir? ← IO.getEnv "GUARDLINT_CONFIG_DIR"
  let home? ← IO.getEnv "HOME"
  let tree? := (Json.ofText? text).bind (FileTree.ofJson? here)
  return tree?.map fun tree => ⟨tree, here, configDir?.map Path.mk, home?.map Path.mk⟩

end Guardrails

open Guardrails

def main (words : List String) : IO UInt32 := do
  let text ← readRest (← IO.getStdin) ""
  match ← surroundings? text with
  | none =>
    IO.eprintln "error: standard input holds no files"
    return 2
  | some s =>
    let outcome := s.runWords words
    IO.print outcome.output
    IO.eprint outcome.errors
    for (path, text) in outcome.written do
      IO.FS.writeFile path.spelling text
    return UInt32.ofNat outcome.exitCode
