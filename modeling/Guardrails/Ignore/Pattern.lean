import Guardrails.Ignore.Shape

/-!
# Patterns of ignore files

`?` stands for a byte and `*` for any bytes of one name, `**` for any directories, `[a-c]` and `[!a-c]` for a
byte in a set or outside of it, and `{a,b}` for one of several patterns. A backslash takes the meaning from
the character behind it.
-/

namespace Guardrails.Ignore

/-- Where `**` stands in a pattern. -/
inductive Place
  | front
  | inside
  | back
  deriving DecidableEq, Repr

inductive Token
  | char (c : Char)
  | anyByte
  | anyName
  | directories (place : Place)
  | set (isNegated : Bool) (ranges : List (Char × Char))
  | choice (branches : List (List Token))
  deriving Repr

/-! ## Errors -/

/-- Why a pattern cannot be read. -/
inductive PatternError
  | badRange (first last : Char)
  | unopenedBrace
  | unclosedBrace
  | loneBackslash
  deriving DecidableEq, Repr

def PatternError.message : PatternError → String
  | badRange first last => s!"invalid range; '{first}' > '{last}'"
  | unopenedBrace =>
    "unopened alternate group; missing '\x7b' (maybe escape '\x7d' with '[\x7d]'?)"
  | unclosedBrace =>
    "unclosed alternate group; missing '\x7d' (maybe escape '\x7b' with '[\x7b]'?)"
  | loneBackslash => "dangling '\\'"

/-! ## Sets -/

inductive SetReading
  | closed (ranges : List (Char × Char)) (rest : List Char)
  | unclosed
  | badRange (first last : Char)

/-- Reads ranges up to the closing bracket, with those before them, the last one first. A bracket or a dash
that comes first stands for itself, and so does a dash right before the closing bracket. -/
def readRanges (before : List (Char × Char)) (isFirst inRange : Bool) : List Char → SetReading
  | [] => .unclosed
  | c :: rest =>
    if c = ']' && !isFirst then
      .closed ((if inRange then ('-', '-') :: before else before).reverse) rest
    else if c = '-' && !isFirst && !inRange then readRanges before false true rest
    else if inRange then
      match before with
      | (first, _) :: before =>
        if first ≤ c then readRanges ((first, c) :: before) false false rest else .badRange first c
      | [] => readRanges [(c, c)] false false rest
    else readRanges ((c, c) :: before) false false rest

/-- The mark of a set of the bytes that are left out. -/
def isNegation (c : Char) : Bool :=
  c == '!' || c == '^'

/-- Whether a byte is in a range. Characters of several bytes count byte by byte. -/
def inRange (range : Char × Char) (b : UInt8) : Bool :=
  let first := String.utf8EncodeChar range.1
  let last := String.utf8EncodeChar range.2
  if range.1 = range.2 then first.contains b
  else
    first.dropLast.contains b || last.tail.contains b ||
      (first.getLast?.any (· ≤ b) && last.head?.any (b ≤ ·))

/-! ## Reading -/

/-- An opening brace: the tokens in front of it and the branches behind it that are complete, the last one
first. -/
structure Brace where
  before : List Token
  branches : List (List Token)

/-- What `**` means behind the tokens, of which the last one is the first, and what follows it. Where it is not
a whole component it says no more than `*`. -/
def addStars (inBraces : Bool) (tokens : List Token) (previous? : Option Char) (rest : List Char) :
    List Token × List Char :=
  let plain := (.anyName :: .anyName :: tokens, rest)
  match tokens with
  | [] =>
    match rest with
    | [] => ([.directories .front], [])
    | '/' :: rest => ([.directories .front], rest)
    | _ => plain
  | token :: before =>
    let isAlone := previous? == some '/' || (inBraces && (previous? == some ',' || previous? == some '\x7b'))
    let behind? := match rest with
      | [] => some (Place.back, [])
      | '/' :: rest => some (.inside, rest)
      | c :: tail => if inBraces && (c == ',' || c == '\x7d') then some (.back, c :: tail) else none
    match isAlone, behind? with
    | true, some (place, rest) =>
      match token with
      | .directories .front => (.directories .front :: before, rest)
      | .directories .back => (.directories .back :: before, rest)
      | _ => (.directories place :: before, rest)
    | _, _ => plain

theorem addStars_length_le (b : Bool) (tokens : List Token) (p : Option Char) (rest : List Char) :
    (addStars b tokens p rest).2.length ≤ rest.length := by
  unfold addStars
  grind

theorem readRanges_length {before : List (Char × Char)} {isFirst inRange : Bool} {text : List Char}
    {ranges : List (Char × Char)} {rest : List Char}
    (h : readRanges before isFirst inRange text = .closed ranges rest) :
    rest.length < text.length := by
  induction text generalizing before isFirst inRange with
  | nil => simp [readRanges] at h
  | cons c tail ih =>
    unfold readRanges at h
    grind

/-- Reads on with the open braces, the innermost first, and with the tokens and the character before, the last
token first. Behind a bracket that is never closed brackets stand for themselves. -/
def readOn (braces : List Brace) (tokens : List Token) (hasSets : Bool) (previous? : Option Char)
    (text : List Char) : Except PatternError (List Token) :=
  match text with
  | [] => if braces.isEmpty then .ok tokens.reverse else .error .unclosedBrace
  | '?' :: rest => readOn braces (.anyByte :: tokens) hasSets '?' rest
  | '*' :: '*' :: rest =>
    let added := addStars (!braces.isEmpty) tokens previous? rest
    let last := if added.2.length < rest.length then '/' else '*'
    readOn braces added.1 hasSets last added.2
  | '*' :: rest => readOn braces (.anyName :: tokens) hasSets '*' rest
  | '[' :: rest =>
    if hasSets then
      let isNegated := rest.head?.any isNegation
      match _ : readRanges [] true false (if isNegated then rest.tail else rest) with
      | .closed ranges rest => readOn braces (.set isNegated ranges :: tokens) true ']' rest
      | .unclosed => readOn braces (.char '[' :: tokens) false '[' rest
      | .badRange first last => .error (.badRange first last)
    else readOn braces (.char '[' :: tokens) false '[' rest
  | '\x7b' :: rest => readOn (⟨tokens, []⟩ :: braces) [] hasSets '\x7b' rest
  | '\x7d' :: rest =>
    match braces with
    | [] => .error .unopenedBrace
    | b :: braces =>
      readOn braces (.choice (tokens.reverse :: b.branches).reverse :: b.before) hasSets '\x7d' rest
  | ',' :: rest =>
    match braces with
    | [] => readOn [] (.char ',' :: tokens) hasSets ',' rest
    | b :: braces => readOn (⟨b.before, tokens.reverse :: b.branches⟩ :: braces) [] hasSets ',' rest
  | '\\' :: rest =>
    match rest with
    | [] => .error .loneBackslash
    | c :: rest => readOn braces (.char c :: tokens) hasSets c rest
  | c :: rest => readOn braces (.char c :: tokens) hasSets c rest
termination_by text.length
decreasing_by
  all_goals simp only [List.length_cons]
  all_goals first
    | omega
    | exact Nat.lt_add_right 1 (Nat.lt_succ_of_le (addStars_length_le (!braces.isEmpty) tokens previous? _))
    | rename_i h
      have := readRanges_length h
      split at this <;> grind

def readPattern (text : List Char) : Except PatternError (List Token) :=
  readOn [] [] true none text

/-! ## Shapes -/

/-- A directory at the front that may be missing, slash included. -/
def frontShape : Shape :=
  .choice [.empty, .slash, .sequence [.anything, .slash]]

def placeShape : Place → Shape
  | .front => frontShape
  | .inside => .choice [.slash, .sequence [.slash, .anything, .slash]]
  | .back => .sequence [.slash, .anything]

mutual

/-- What a token stands for, unless it stands for nothing: a choice without a branch that says something. -/
def tokenShape? : Token → Option Shape
  | .char c => some (.ofChar c)
  | .anyByte => some (.one Shape.isInName)
  | .anyName => some (.many Shape.isInName)
  | .directories place => some (placeShape place)
  | .set isNegated ranges => some (.one fun b => ranges.any (inRange · b) != isNegated)
  | .choice branches =>
    match branchShapes branches with
    | [] => none
    | parts => some (.choice parts)

def tokenShapes : List Token → List Shape
  | [] => []
  | t :: ts => (tokenShape? t).toList ++ tokenShapes ts

/-- The shapes of the branches that say something. -/
def branchShapes : List (List Token) → List Shape
  | [] => []
  | ts :: rest =>
    match tokenShapes ts with
    | [] => branchShapes rest
    | parts => .sequence parts :: branchShapes rest

end

/-- The shape of paths that match a pattern. A lone `**` matches every path. -/
def patternShape : List Token → Shape
  | [.directories .front] => .anything
  | tokens => .sequence (tokenShapes tokens)

end Guardrails.Ignore
