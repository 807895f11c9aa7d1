import Guardrails.Path
import Guardrails.Syntax.Node

/-!
# File trees

Files and directories as one value, in which paths are looked up.
-/

namespace Guardrails

/-- A file: what it holds, and the syntax tree of that where it has been parsed. -/
structure File where
  content : ByteArray
  tree? : Option Node

def File.text? (f : File) : Option String :=
  String.fromUTF8? f.content

inductive FileTree
  | file (f : File)
  /-- A file that cannot be read, and why. -/
  | sealed (reason : String)
  | directory (entries : List (String × FileTree))
  /-- A directory that cannot be read, and why. -/
  | locked (reason : String)
  /-- What is neither a file nor a directory, and why it cannot be read. -/
  | special (reason : String)
  /-- A link, with what it leads to in the end. A broken one leads to nothing. -/
  | link (target? : Option FileTree)

namespace FileTree

abbrev Entries := List (String × FileTree)

def isFile : FileTree → Bool
  | file _ | sealed _ => true
  | _ => false

def isDirectory : FileTree → Bool
  | directory _ | locked _ => true
  | _ => false

theorem isDirectory_of_isFile {t : FileTree} (h : t.isFile = true) : t.isDirectory = false := by
  cases t <;> first | rfl | cases h

/-- What is found where a path ends at a tree, which is what a link leads to. -/
def behind? : FileTree → Option FileTree
  | link target? => target?
  | t => some t

/-! ## Looking up paths -/

/-- A tree inside of another one: the directories it is in, the innermost first, each with the name that leads
on from there. -/
structure Place where
  tree : FileTree
  above : List (Entries × String)

/-- Why a path leads to no file, or to none that is a text. -/
inductive Unreadable
  | missing
  /-- A file stands where a directory is asked for. -/
  | notDirectory
  /-- A directory stands where a file is asked for. -/
  | isDirectory
  /-- What stands there, or on the way there, cannot be read. -/
  | locked (reason : String)
  | noText
  deriving DecidableEq, Repr

def Unreadable.message : Unreadable → String
  | missing => "No such file or directory (os error 2)"
  | notDirectory => "Not a directory (os error 20)"
  | isDirectory => "Is a directory (os error 21)"
  | locked reason => reason
  | noText => "stream did not contain valid UTF-8"

namespace Place

def enter (p : Place) (name : String) : Except Unreadable Place :=
  match p.tree with
  | .directory es =>
    match (es.lookup name).bind behind? with
    | some t => .ok ⟨t, (es, name) :: p.above⟩
    | none => .error .missing
  | .locked reason => .error (.locked reason)
  | _ => .error .notDirectory

/-- The directory above. The outermost one is above itself. -/
def leave (p : Place) : Except Unreadable Place :=
  if p.tree.isDirectory then
    match p.above with
    | [] => .ok p
    | (es, _) :: above => .ok ⟨.directory es, above⟩
  else .error .notDirectory

def step (p : Place) : Path.Component → Except Unreadable Place
  | .root | .current => .ok p
  | .parent => p.leave
  | .named name => p.enter name

end Place

/-- Whether a path is spelled as that of a directory. -/
def asksForDirectory (p : Path) : Bool :=
  Text.endsWith p.spelling "/" || Text.endsWith p.spelling "/."

/-- The place of a path, which starts at the outermost directory. -/
def placeOf (t : FileTree) (p : Path) : Except Unreadable Place := do
  let place ← p.components.foldlM Place.step ⟨t, []⟩
  if place.tree.isDirectory || !asksForDirectory p then .ok place else .error .notDirectory

def existsAt (t : FileTree) (p : Path) : Bool :=
  (t.placeOf p).isOk

def isFileAt (t : FileTree) (p : Path) : Bool :=
  match t.placeOf p with
  | .ok place => place.tree.isFile
  | .error _ => false

def isDirectoryAt (t : FileTree) (p : Path) : Bool :=
  match t.placeOf p with
  | .ok place => place.tree.isDirectory
  | .error _ => false

/-! ## Reading -/

def fileAt (t : FileTree) (p : Path) : Except Unreadable File := do
  match (← t.placeOf p).tree with
  | .file f => .ok f
  | .sealed reason | .special reason => .error (.locked reason)
  | _ => .error .isDirectory

def textAt (t : FileTree) (p : Path) : Except Unreadable String := do
  match (← t.fileAt p).text? with
  | some text => .ok text
  | none => .error .noText

/-! ## Building -/

/-- Directories of these names inside of one another, and a tree in the innermost. -/
def nest (names : List String) (t : FileTree) : FileTree :=
  names.foldr (fun name t => directory [(name, t)]) t

mutual

/-- The tree with another one put in below these names, where directories that are missing are made. -/
def put (t : FileTree) (names : List String) (new : FileTree) : FileTree :=
  match t with
  | directory es => directory (putIn es names new)
  | other => other

def putIn (es : Entries) (names : List String) (new : FileTree) : Entries :=
  match es, names with
  | es, [] => es
  | [], name :: names => [(name, nest names new)]
  | (name, t) :: rest, first :: names =>
    if name = first then (name, if names.isEmpty then new else put t names new) :: rest
    else (name, t) :: putIn rest (first :: names) new

end

end FileTree
end Guardrails
