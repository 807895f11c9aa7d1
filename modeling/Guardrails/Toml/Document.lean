import Guardrails.Toml.Draft
import Guardrails.Toml.Number

/-!
# TOML documents

Values, and documents made of headers and of keys with values. `Document.read?` is the table that a text
spells, if it is a document.
-/

namespace Guardrails.Toml

/-! ## Values -/

def word? (word : String) (text : List Char) : Option (List Char) :=
  if word.toList.isPrefixOf text then some (text.drop word.length) else none

def boolean : Reader Value := fun text =>
  ((word? "true" text).map (Value.boolean true, ·)) <|>
    ((word? "false" text).map (Value.boolean false, ·))

mutual

/-- A value with at most `room` brackets in brackets. -/
def valueIn (room : Nat) : Nat → Reader Value
  | 0, _ => none
  | fuel + 1, text =>
    match text with
    | '[' :: rest =>
      if room = 0 then none
      else (itemsIn (room - 1) fuel rest).map fun (items, rest) => (.array items, rest)
    | '{' :: rest =>
      if room = 0 then none
      else
        match dropBlanks rest with
        | '}' :: rest => some (.table [], rest)
        | _ => (pairsIn (room - 1) fuel [] rest).map fun (entries, rest) =>
            (.table (Draft.toTable entries), rest)
    | c :: _ =>
      if c == '"' || c == '\'' then (string text).map fun (s, rest) => (.string s, rest)
      else if c == 't' || c == 'f' then boolean text
      else if c == 'i' || c == 'n' then specialFloat text
      else if c.isDigit || c == '+' || c == '-' then number text
      else none
    | [] => none

/-- The items of an array up to the closing bracket. A comma may stand behind the last one. -/
def itemsIn (room : Nat) : Nat → Reader (List Value)
  | 0, _ => none
  | fuel + 1, text =>
    match dropLines text false with
    | some (']' :: rest) => some ([], rest)
    | some text =>
      match valueIn room fuel text with
      | some (v, rest) =>
        match dropLines rest false with
        | some (']' :: rest) => some ([v], rest)
        | some (',' :: rest) => (itemsIn room fuel rest).map fun (vs, rest) => (v :: vs, rest)
        | _ => none
      | none => none
    | none => none

/-- The pairs of an inline table up to the closing brace, added to those before them. -/
def pairsIn (room : Nat) : Nat → Draft.Entries → Reader Draft.Entries
  | 0, _, _ => none
  | fuel + 1, before, text =>
    match key text with
    | some (k, '=' :: rest) =>
      match valueIn room fuel (dropBlanks rest) with
      | some (v, rest) =>
        match Draft.add k v false before with
        | some entries =>
          match dropBlanks rest with
          | '}' :: rest => some (entries, rest)
          | ',' :: rest => pairsIn room fuel entries rest
          | _ => none
        | none => none
      | none => none
    | _ => none

end

/-- A value. Each bracket and each item takes up a character, so there is always fuel enough. -/
def value : Reader Value := fun text =>
  valueIn (depthLimit - 1) (2 * text.length + 2) text

/-! ## Documents -/

/-- A document as far as it has been read. -/
structure Document where
  entries : Draft.Entries
  /-- The path of the header under which keys are added. -/
  header : List String

namespace Document

def addPair? (d : Document) (key : List String × String) (v : Value) : Option Document :=
  (Draft.within false (Draft.add key v) d.header false d.entries).map ({ d with entries := · })

def open? (d : Document) (change : String → Draft.Change) (key : List String × String) :
    Option Document :=
  (Draft.within false (change key.2) key.1 false d.entries).map fun entries =>
    ⟨entries, key.1 ++ [key.2]⟩

/-- What follows the blanks, the comment and the end of the line. -/
def endLine? (text : List Char) : Option (List Char) :=
  lineEnd? (dropBlanks text)

/-- The document after the next line that is not blank, and what follows it. -/
def readLine? (d : Document) (text : List Char) : Option (Document × List Char) :=
  match text with
  | '[' :: '[' :: rest => do
    let (k, rest) ← key rest
    let rest ← word? "]]" rest
    return (← d.open? Draft.append k, ← endLine? rest)
  | '[' :: rest => do
    let (k, rest) ← key rest
    let rest ← word? "]" rest
    return (← d.open? Draft.define k, ← endLine? rest)
  | _ => do
    let (k, rest) ← key text
    let rest ← word? "=" rest
    let (v, rest) ← value (dropBlanks rest)
    return (← d.addPair? k v, ← endLine? rest)

/-- Reads on to the end of the text, where each step takes something off it. -/
def readOn? (d : Document) (fuel : Nat) (text : List Char) : Option Document :=
  match fuel, dropBlanks text with
  | _, [] => some d
  | 0, _ => none
  | fuel + 1, '#' :: rest => (lineEnd? ('#' :: rest)).bind (readOn? d fuel)
  | fuel + 1, '\n' :: rest => readOn? d fuel rest
  | fuel + 1, '\r' :: rest => (newline? ('\r' :: rest)).bind (readOn? d fuel)
  | fuel + 1, text =>
    match d.readLine? text with
    | some (d, rest) => readOn? d fuel rest
    | none => none

/-- The table that a document spells. A byte order mark at its front does not count. -/
def read? (text : String) : Option Table :=
  let chars := match text.toList with
    | '\uFEFF' :: rest => rest
    | cs => cs
  (readOn? ⟨[], []⟩ (chars.length + 1) chars).map fun d => Draft.toTable d.entries

end Document
end Guardrails.Toml
