import Guardrails.FileTree

/-!
# Commands

What the program is asked to do, what it finds around it, and what comes of it.
-/

namespace Guardrails

/-! ## Commands -/

inductive Format
  | text
  | json
  | compact
  | rich
  deriving DecidableEq, Repr

def Format.ofName? : String → Option Format
  | "text" => some text
  | "json" => some json
  | "compact" => some compact
  | "rich" => some rich
  | _ => none

structure CheckOptions where
  paths : List Path
  format : Format
  /-- The only rule to report on, by any of its names. -/
  tag? : Option String
  /-- Patterns of files to leave out, besides those of the configuration. -/
  excluded : List String
  deriving Repr

inductive Command
  | check (options : CheckOptions)
  | listRules
  /-- Writes a configuration to start from, over one that is there only by force. -/
  | init (force : Bool)
  | version
  deriving Repr

/-- A command with the configuration file it is to use. -/
structure Invocation where
  configFile? : Option Path
  command : Command
  deriving Repr

/-! ## Surroundings and outcomes -/

/-- What a command finds around it. -/
structure Surroundings where
  tree : FileTree
  /-- The directory it is started in. -/
  here : Path
  /-- The directory named for the configuration of the user. -/
  configDir? : Option Path
  home? : Option Path

namespace Surroundings

def existsAt (s : Surroundings) (p : Path) : Bool :=
  s.tree.existsAt (s.here.join p)

def isDirectoryAt (s : Surroundings) (p : Path) : Bool :=
  s.tree.isDirectoryAt (s.here.join p)

def textAt (s : Surroundings) (p : Path) : Except FileTree.Unreadable String :=
  s.tree.textAt (s.here.join p)

end Surroundings

structure Outcome where
  exitCode : Nat
  output : String
  errors : String
  written : List (Path × String)
  deriving Repr

def Outcome.shown (output : String) (isFailure : Bool) : Outcome :=
  ⟨if isFailure then 1 else 0, output, "", []⟩

/-! ## Trouble -/

/-- Why a command could not be carried out, with what is behind that, the nearest cause first. -/
structure Trouble where
  message : String
  causes : List String
  deriving Repr

namespace Trouble

/-- A text behind a mark, where further lines of it are indented. -/
def indent (mark margin text : String) : String :=
  mark ++ ("\n" ++ margin).intercalate (Text.split '\n' text)

/-- A single cause is indented, and several ones are counted from 0. -/
def causeLines : List String → List String
  | [cause] => [indent "    " "    " cause]
  | causes => causes.zipIdx.map fun (cause, n) =>
      indent (String.ofList (List.replicate (5 - (toString n).length) ' ') ++ s!"{n}: ")
        "       " cause

def display (t : Trouble) : String :=
  "Error: " ++ t.message ++ "\n" ++
    if t.causes.isEmpty then ""
    else "\nCaused by:\n" ++ String.join ((causeLines t.causes).map (· ++ "\n"))

def outcome (t : Trouble) : Outcome :=
  ⟨1, "", t.display, []⟩

end Trouble
end Guardrails
