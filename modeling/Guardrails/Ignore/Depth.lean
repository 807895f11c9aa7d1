import Guardrails.Ignore.Pattern

/-!
# Depth of patterns

How deep the parts of a pattern are nested. A row of several parts, a choice and each pair of braces count one
each, and so do sets and repetitions. Simple patterns have no parts that could be nested.
-/

namespace Guardrails.Ignore

/-- How many parts stand in a row, and how deep the deepest of them goes. -/
structure Extent where
  parts : Nat
  depth : Nat
  deriving DecidableEq, Repr

namespace Extent

def none : Extent := ⟨0, 0⟩

def append (e f : Extent) : Extent :=
  ⟨e.parts + f.parts, max e.depth f.depth⟩

/-- How deep a row goes, where a single part is no row. -/
def rowDepth (e : Extent) : Nat :=
  if e.parts = 1 then e.depth else e.depth + 1

end Extent

/-- The number of bytes and ranges of bytes that a range is made of. -/
def rangeSize (range : Char × Char) : Nat :=
  if range.1 = range.2 then range.1.utf8Size else range.1.utf8Size + range.2.utf8Size - 1

mutual

def tokenExtent : Token → Extent
  | .char c => ⟨c.utf8Size, 0⟩
  | .anyByte => ⟨1, 1⟩
  | .anyName => ⟨1, 2⟩
  | .directories .back => ⟨2, 1⟩
  | .directories _ => ⟨1, 4⟩
  | .set _ ranges => ⟨1, if (ranges.map rangeSize).sum = 1 then 1 else 2⟩
  | .choice branches =>
    match branchDepths branches with
    | [] => .none
    | [depth] => ⟨1, depth + 1⟩
    | depths => ⟨1, depths.foldr max 0 + 2⟩

def rowExtent : List Token → Extent
  | [] => .none
  | t :: ts => (tokenExtent t).append (rowExtent ts)

/-- The depths of the branches that say something. -/
def branchDepths : List (List Token) → List Nat
  | [] => []
  | ts :: rest =>
    let extent := rowExtent ts
    if extent.parts = 0 then branchDepths rest else extent.rowDepth :: branchDepths rest

end

/-- How deep a pattern goes. The pattern as a whole counts as a row. -/
def patternDepth (tokens : List Token) : Nat :=
  (rowExtent tokens).depth + 1

/-- How deep the patterns of a file may go. -/
def depthLimit : Nat := 250

/-! ## Simple patterns -/

/-- Whether a token is a character other than a slash and a dot. -/
def isPlain : Token → Bool
  | .char c => c != '/' && c != '.'
  | _ => false

def isChar : Token → Bool
  | .char _ => true
  | _ => false

/-- Whether a pattern only asks for a name, a path, the end of a path or an extension. -/
def isSimple : List Token → Bool
  | .directories .front :: .anyName :: .char '.' :: rest => rest.all isPlain
  | .directories .front :: rest => !rest.isEmpty && rest.all isChar
  | tokens => !tokens.isEmpty && tokens.all isChar

/-- Whether the names that a pattern matches end in an extension of its own. -/
def hasExtension (tokens : List Token) : Bool :=
  match tokens.reverse.dropWhile isPlain with
  | .char '.' :: _ => true
  | _ => false

end Guardrails.Ignore
