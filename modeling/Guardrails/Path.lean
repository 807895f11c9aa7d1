import Guardrails.Text.Search

/-!
# Paths

A path keeps the spelling it was given in, and is compared by its components: repeated slashes and a
`.` inside do not count. `Path.below?` takes a directory off the front of a path.
-/

namespace Guardrails

/-- A file path, shown as it was spelled. -/
structure Path where
  spelling : String
  deriving Repr, Inhabited

namespace Path

/-! ## Components -/

inductive Component
  | root
  | current
  | parent
  | named (name : String)
  deriving DecidableEq, Repr

namespace Component

def rank : Component → Nat
  | root => 0
  | current => 1
  | parent => 2
  | named _ => 3

def name : Component → String
  | named n => n
  | _ => ""

/-- Root first, then `.`, then `..`, then the names in the order of their code points. -/
instance : Ord Component where
  compare a b := (compare a.rank b.rank).then (compare a.name b.name)

end Component

/-- A piece of a spelling between slashes, with the component it stands for, if it counts. -/
structure Piece where
  text : String
  component? : Option Component
  deriving Repr

/-- What a piece stands for when others stand before it. -/
def Piece.inner (text : String) : Piece :=
  ⟨text, match text with
    | "" | "." => none
    | ".." => some .parent
    | name => some (.named name)⟩

/-- What the first piece of a spelling stands for. -/
def Piece.first (text : String) (alone : Bool) : Piece :=
  ⟨text, match text with
    | "" => if alone then none else some .root
    | "." => some .current
    | ".." => some .parent
    | name => some (.named name)⟩

def pieces (p : Path) : List Piece :=
  match Text.split '/' p.spelling with
  | [] => []
  | first :: rest => Piece.first first rest.isEmpty :: rest.map Piece.inner

def components (p : Path) : List Component :=
  p.pieces.filterMap (·.component?)

def names (p : Path) : List String :=
  p.components.filterMap fun
    | .named name => some name
    | _ => none

/-- Paths are equal when their components are. -/
instance : BEq Path where
  beq a b := a.components == b.components

instance : Ord Path where
  compare a b := compare a.components b.components

theorem beq_iff {a b : Path} : (a == b) = true ↔ a.components = b.components :=
  show (a.components == b.components) = true ↔ _ from beq_iff_eq

/-! ## Building paths -/

def isAbsolute (p : Path) : Bool :=
  Text.startsWith p.spelling "/"

/-- The path `p` as seen from `dir`; an absolute path is kept. -/
def join (dir p : Path) : Path :=
  if p.isAbsolute || dir.spelling.isEmpty then p
  else if Text.endsWith dir.spelling "/" then ⟨dir.spelling ++ p.spelling⟩
  else ⟨dir.spelling ++ "/" ++ p.spelling⟩

/-- The spelling made of the pieces. A lone root is written with its slash. -/
def spell : List Piece → String
  | [⟨"", some .root⟩] => "/"
  | ps => "/".intercalate (ps.map (·.text))

/-- The pieces behind the leading components `dir`. -/
def dropComponents : List Component → List Piece → Option (List Piece)
  | [], ps => some ps
  | _ :: _, [] => none
  | c :: cs, p :: ps =>
    match p.component? with
    | none => dropComponents (c :: cs) ps
    | some found => if found = c then dropComponents cs ps else none

def counts (p : Piece) : Bool :=
  p.component?.isSome

/-- Without the pieces at the end that do not count. -/
def trimPieces (ps : List Piece) : List Piece :=
  (ps.reverse.dropWhile (!counts ·)).reverse

/-- The path below `dir`, when `dir` is at the front of it. -/
def below? (dir p : Path) : Option Path :=
  let cs := dir.components
  (dropComponents cs p.pieces).map fun rest =>
    let rest := if cs.isEmpty then rest else rest.dropWhile (!counts ·)
    ⟨spell (trimPieces rest)⟩

/-- The path relative to `dir`, or unchanged when it is not below it. -/
def relativeTo (dir p : Path) : Path :=
  (below? dir p).getD p

/-! ## File names -/

def fileName? (p : Path) : Option String :=
  match p.components.getLast? with
  | some (.named n) => some n
  | _ => none

/-- What stands behind the last dot of the file name, unless that dot is its first character. -/
def extension? (p : Path) : Option String := do
  let name ← p.fileName?
  let (stem, ext) ← Text.cutLast? '.' name.toList
  if stem.isEmpty then none else some (String.ofList ext)

def scriptExtensions : List String := ["js", "mjs", "cjs", "jsx"]

def isScript (p : Path) : Bool :=
  p.extension?.any (scriptExtensions.contains ·)

def testDirectories : List String := ["__tests__", "tests", "test", "__mocks__"]

/-- Whether a file name has `test` or `spec` before its extension, and something before that. -/
def isTestName (name : String) : Bool :=
  match (Text.split '.' name).reverse with
  | _ :: mark :: _ :: _ => mark == "test" || mark == "spec"
  | _ => false

/-- Whether a path is that of a test: by a directory on the way, or by its name. -/
def isTest (p : Path) : Bool :=
  p.components.any (fun c => testDirectories.any fun dir => c == .named dir) ||
    p.fileName?.any isTestName

end Path
end Guardrails
