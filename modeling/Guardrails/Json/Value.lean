/-!
# JSON values

An object keeps its entries in order, and a key may occur more than once. Values are written in indented lines.
-/

namespace Guardrails

inductive Json
  | null
  | boolean (b : Bool)
  | natural (n : Nat)
  /-- A number that is no natural one, as it is written. -/
  | number (text : String)
  | string (text : String)
  /-- A string with half of a pair of surrogates, which is no text. -/
  | brokenString
  | array (items : List Json)
  | object (entries : List (String × Json))
  deriving Inhabited

namespace Json

/-! ## Values of the types asked for -/

def natural? : Json → Option Nat
  | natural n => some n
  | _ => none

def string? : Json → Option String
  | string text => some text
  | _ => none

def list? {α : Type} (of? : Json → Option α) : Json → Option (List α)
  | array items => items.mapM of?
  | _ => none

/-- One of several names: a text, or the only key of an object, with `null` under it. -/
def choice? : Json → Option String
  | string name => some name
  | object [(name, null)] => some name
  | _ => none

def ofOption {α : Type} (toJson : α → Json) : Option α → Json
  | some a => toJson a
  | none => null

/-! ## Records -/

/-- A record with fields of these names. It is an object in which none of them occurs twice, or an array with
the values of the fields in their order, where only the last `missing` ones may be left out. -/
def record? (fields : List String) (missing : Nat) : Json → Option (List (String × Json))
  | object entries =>
    if fields.any fun field => entries.countP (·.1 == field) > 1 then none else some entries
  | array items =>
    if items.length ≤ fields.length && fields.length ≤ items.length + missing then
      some (fields.zip items)
    else none
  | _ => none

def field? {α : Type} (entries : List (String × Json)) (field : String) (of? : Json → Option α) :
    Option α :=
  (entries.lookup field).bind of?

/-- The value of a field that may be `null` or not be there. -/
def optional? {α : Type} (entries : List (String × Json)) (field : String)
    (of? : Json → Option α) : Option (Option α) :=
  match entries.lookup field with
  | none | some null => some none
  | some j => (of? j).map some

/-! ## Strings as text -/

/-- A character inside of a string. -/
def escape (c : Char) : List Char :=
  match c with
  | '"' => ['\\', '"']
  | '\\' => ['\\', '\\']
  | '\x08' => ['\\', 'b']
  | '\x0c' => ['\\', 'f']
  | '\n' => ['\\', 'n']
  | '\r' => ['\\', 'r']
  | '\t' => ['\\', 't']
  | c =>
    if c < ' ' then ['\\', 'u', '0', '0', Nat.digitChar (c.toNat / 16), Nat.digitChar (c.toNat % 16)]
    else [c]

def quote (text : String) : String :=
  String.ofList ('"' :: text.toList.flatMap escape ++ ['"'])

/-! ## Values as text -/

def indentation (depth : Nat) : String :=
  String.ofList (List.replicate (2 * depth) ' ')

/-- Items in brackets, each on a line of its own. -/
def bracket (opening closing : String) (depth : Nat) (items : List String) : String :=
  if items.isEmpty then opening ++ closing
  else
    opening ++ "\n" ++
      ",\n".intercalate (items.map (indentation (depth + 1) ++ ·)) ++
      "\n" ++ indentation depth ++ closing

mutual

/-- The value in lines that are indented by two for every bracket around them. -/
def pretty (depth : Nat) : Json → String
  | null | brokenString => "null"
  | boolean b => if b then "true" else "false"
  | natural n => toString n
  | number text => text
  | string text => quote text
  | array items => bracket "[" "]" depth (prettyItems (depth + 1) items)
  | object entries => bracket "\x7b" "\x7d" depth (prettyEntries (depth + 1) entries)

def prettyItems (depth : Nat) : List Json → List String
  | [] => []
  | j :: js => pretty depth j :: prettyItems depth js

def prettyEntries (depth : Nat) : List (String × Json) → List String
  | [] => []
  | (key, j) :: rest => (quote key ++ ": " ++ pretty depth j) :: prettyEntries depth rest

end

end Json
end Guardrails
