import Guardrails.FileTree
import Guardrails.Json.Reader
import Guardrails.Syntax.Outline

/-!
# File trees in JSON

Under `files` stands the content of each file by its path: a text, or a list of bytes. A path that ends in a
slash is that of an empty directory. Under `trees` stands the outline of each file that has been parsed, by its path too.
-/

namespace Guardrails

/-! ## Outlines -/

/-- A row is written as its depth, kind, flags, field, start and end. -/
def Row.ofJson? : Json → Option Row
  | .array [.natural depth, .string kind, .natural flags, .string field, .natural start,
      .natural stop] => some (.ofFlags depth kind flags field start stop)
  | _ => none

def Node.ofJson? (j : Json) : Option Node := do
  ofRows? (← j.list? Row.ofJson?)

/-! ## Files -/

def contentOfJson? : Json → Option ByteArray
  | .string text => some text.toUTF8
  | j => do return ⟨((← j.list? (·.natural?)).map UInt8.ofNat).toArray⟩

namespace FileTree

def entriesOf (j : Json) (key : String) : List (String × Json) :=
  match j with
  | .object entries =>
    match entries.lookup key with
    | some (.object inner) => inner
    | _ => []
  | _ => []

/-- What stands at a path. -/
def ofContent? (trees : List (String × Json)) (path : String) (content : Json) : Option FileTree :=
  if Text.endsWith path "/" then some (.directory [])
  else do
    let tree? ← (trees.lookup path).mapM Node.ofJson?
    return .file ⟨← contentOfJson? content, tree?⟩

/-- The tree with the files that are written in JSON, where paths are seen from a directory. -/
def ofJson? (here : Path) (j : Json) : Option FileTree :=
  (entriesOf j "files").foldlM (fun t (path, content) => do
    return t.put (here.join ⟨path⟩).names (← ofContent? (entriesOf j "trees") path content))
    (nest here.names (.directory []))

end FileTree
end Guardrails
