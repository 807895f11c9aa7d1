import Guardrails.Ignore.Rules

/-!
# Walking directories

Everything below a directory but what ignore files leave out, and what is hidden. The ignore files of the
directories above count too, and it is said what is wrong with those.
-/

namespace Guardrails.Ignore

/-! ## The ignore files of a directory -/

/-- Where the ignore files of a directory are. -/
inductive Origin
  | own
  | git
  | excluded
  deriving DecidableEq, Repr

namespace Origin

/-- In the order in which they are read, which is also that of their weight. -/
def all : List Origin := [own, git, excluded]

def names : Origin → List String
  | own => [".ignore"]
  | git => [".gitignore"]
  | excluded => [".git", "info", "exclude"]

/-- Whether the file counts. Those of git do if they are respected. -/
def counts (respectGit : Bool) (o : Origin) : Bool :=
  o = own || respectGit

end Origin

def fileAt (entries : FileTree.Entries) (names : List String) : IgnoreFile :=
  match names.foldlM FileTree.Place.enter ⟨.directory entries, []⟩ with
  | .ok ⟨.file f, _⟩ => .ofContent f.content
  | _ => .empty

def fileOf (respectGit : Bool) (entries : FileTree.Entries) (o : Origin) : IgnoreFile :=
  if o.counts respectGit then fileAt entries o.names else .empty

/-! ## Levels -/

/-- What the ignore files of one directory say. -/
structure Level where
  own : List Line
  git : List Line
  excluded : List Line
  /-- The names that lead from the directory to the one at hand. -/
  trail : List String

namespace Level

def lines (l : Level) : Origin → List Line
  | .own => l.own
  | .git => l.git
  | .excluded => l.excluded

def ofEntries (respectGit : Bool) (entries : FileTree.Entries) (trail : List String) : Level :=
  let linesFrom := fun o => (fileOf respectGit entries o).lines
  ⟨linesFrom .own, linesFrom .git, linesFrom .excluded, trail⟩

def enter (l : Level) (name : String) : Level :=
  { l with trail := l.trail ++ [name] }

/-- The levels of the directories above, the innermost first. -/
def above (respectGit : Bool) (trail : List String) : List (FileTree.Entries × String) → List Level
  | [] => []
  | (entries, name) :: rest =>
    ofEntries respectGit entries (name :: trail) :: above respectGit (name :: trail) rest

end Level

/-- What is decided about an entry by the innermost level that says anything. -/
def decideBy? (o : Origin) (levels : List Level) (name : String) (isDirectory : Bool) : Option Verdict :=
  levels.findSome? fun l => verdict? (l.lines o) (l.trail ++ [name]) isDirectory

def isHidden (name : String) : Bool :=
  Text.startsWith name "."

/-- Whether an entry is left out. What is kept by an ignore file is not left out for being hidden. -/
def isLeftOut (levels : List Level) (name : String) (isDirectory : Bool) : Bool :=
  match Origin.all.findSome? fun o => decideBy? o levels name isDirectory with
  | some verdict => verdict = .leftOut
  | none => isHidden name

/-! ## Remarks -/

/-- What is wrong with the ignore file at a path. -/
structure Remark where
  path : Path
  complaint : Complaint
  deriving Repr

namespace Remark

/-- The file, unless the remark is about its patterns taken together. -/
def file? (r : Remark) : Option Path :=
  r.complaint.line?.map fun _ => r.path

def message (r : Remark) : String :=
  match r.complaint.line? with
  | some line => s!"{r.path.spelling}: line {line}: {r.complaint.cause}"
  | none => r.complaint.cause

end Remark

/-- The path of a directory, given the directories it is in and their names, the innermost first. -/
def pathBelow (above : List (FileTree.Entries × String)) : Path :=
  ⟨"/" ++ "/".intercalate (above.map (·.2)).reverse⟩

def remarksIn (respectGit : Bool) (directory : Path) (entries : FileTree.Entries) : List Remark :=
  Origin.all.flatMap fun o =>
    (fileOf respectGit entries o).complaints.map (⟨directory.join ⟨"/".intercalate o.names⟩, ·⟩)

/-- What is wrong with the ignore files of the directories above, from the outermost on. -/
def remarksAbove (respectGit : Bool) : List (FileTree.Entries × String) → List Remark
  | [] => []
  | (entries, _) :: above =>
    remarksAbove respectGit above ++ remarksIn respectGit (pathBelow above) entries

/-! ## The walk -/

inductive Found
  | file (path : Path)
  | unreadable (directory : Path) (reason : String)
  /-- Something is wrong with the ignore files above. -/
  | remarks (first : Remark) (others : List Remark)
  deriving Repr

mutual

/-- What is below a tree that stands at a path. Links are not followed. -/
def walkTree (respectGit : Bool) (levels : List Level) (path : Path) : FileTree → List Found
  | .file _ | .sealed _ => [.file path]
  | .special _ | .link _ => []
  | .locked reason => [.unreadable path reason]
  | .directory entries =>
    walkEntries respectGit (Level.ofEntries respectGit entries [] :: levels) path entries

def walkEntries (respectGit : Bool) (levels : List Level) (path : Path) :
    FileTree.Entries → List Found
  | [] => []
  | (name, t) :: rest =>
    (if isLeftOut levels name t.isDirectory then []
      else walkTree respectGit (levels.map (·.enter name)) (path.join ⟨name⟩) t) ++
    walkEntries respectGit levels path rest

end

def foundAbove (respectGit : Bool) (place : FileTree.Place) : List Found :=
  match remarksAbove respectGit place.above with
  | [] => []
  | r :: rs => [.remarks r rs]

def walk (respectGit : Bool) (path : Path) (place : FileTree.Place) : List Found :=
  foundAbove respectGit place ++
    walkTree respectGit (Level.above respectGit [] place.above) path place.tree

end Guardrails.Ignore
