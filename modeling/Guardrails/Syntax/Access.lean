import Guardrails.Syntax.Node
import Guardrails.Text.LetterCase

/-!
# Accesses, calls and literals

What a name, a dotted access or a call is made on, read off the tree: whole dotted paths, their last
segments, the identifier they start from, and patterns such as `history.pushState` for them. Then what is written in
literals, and which texts nodes have.
-/

namespace Guardrails

/-! ## Dotted patterns -/

/-- Whether the segments end with those of the dotted pattern. -/
def endsWithPath (segments : List String) (pattern : String) : Bool :=
  let wanted := Text.split '.' pattern
  wanted.length ≤ segments.length && segments.drop (segments.length - wanted.length) == wanted

namespace Node

/-- Looks through parentheses and down to the object of accesses, collecting the names on the way. -/
def accessPath? (s : Source) (n : Node) : Option (List String) :=
  match n.kind with
  | "member_expression" =>
    match n.child? "property", _ : n.child? "object" with
    | some property, some object =>
      (accessPath? s object).map (· ++ [s.textOf property])
    | _, _ => none
  | "parenthesized_expression" =>
    match _ : n.inside? with
    | some inside => accessPath? s inside
    | none => none
  | "identifier" | "this" | "property_identifier" | "shorthand_property_identifier" =>
    some [s.textOf n]
  | _ => none
termination_by n.size
decreasing_by
  · rename_i h; exact size_lt_of_child? h
  · rename_i h; exact size_lt_of_inside? h

/-- The trailing names of an access on whatever receiver. A name or `this` at its start counts. -/
def accessTail (s : Source) (n : Node) : List String :=
  match n.kind with
  | "member_expression" =>
    let front := match _ : n.child? "object" with
      | some object => accessTail s object
      | none => []
    front ++ ((n.child? "property").map s.textOf).toList
  | "parenthesized_expression" =>
    match _ : n.inside? with
    | some inside => accessTail s inside
    | none => []
  | "identifier" | "this" => [s.textOf n]
  | _ => []
termination_by n.size
decreasing_by
  · rename_i h; exact size_lt_of_child? h
  · rename_i h; exact size_lt_of_inside? h

def dotted? (s : Source) (n : Node) : Option String :=
  (n.accessPath? s).map (".".intercalate ·)

/-- The name of the property that a member access reads. -/
def propertyName? (s : Source) (n : Node) : Option String :=
  if n.kind == "member_expression" then (n.child? "property").map s.textOf else none

/-- The name that is called: a plain name, or the property of a method call. -/
def lastSegment? (s : Source) (n : Node) : Option String :=
  match n.kind with
  | "identifier" => some (s.textOf n)
  | "member_expression" => n.propertyName? s
  | _ => none

/-- The leftmost identifier of a chain of accesses, subscripts and calls. -/
def rootIdentifier? (n : Node) : Option Node :=
  match n.kind with
  | "identifier" | "this" => some n
  | "member_expression" | "subscript_expression" =>
    match _ : n.child? "object" with
    | some object => rootIdentifier? object
    | none => none
  | "call_expression" =>
    match _ : n.child? "function" with
    | some function => rootIdentifier? function
    | none => none
  | "parenthesized_expression" | "non_null_expression" =>
    match _ : n.inside? with
    | some inside => rootIdentifier? inside
    | none => none
  | _ => none
termination_by n.size
decreasing_by
  all_goals
    rename_i h
    first
    | exact size_lt_of_child? h
    | exact size_lt_of_inside? h

/-! ## Calls -/

def callee? (n : Node) : Option Node :=
  if n.kind == "call_expression" then n.child? "function" else none

/-- The name of the method that a call calls on some receiver. -/
def calledMethod? (s : Source) (call : Node) : Option String :=
  (call.child? "function").bind (propertyName? s)

def callArguments (n : Node) : List Node :=
  match n.child? "arguments" with
  | some arguments => arguments.namedChildren
  | none => []

def constructs (s : Source) (n : Node) (name : String) : Bool :=
  n.kind == "new_expression" && (n.child? "constructor").any fun c => c.lastSegment? s == some name

/-- Whether the last name of a callee is one of `names`, or its trailing path is a dotted one of them. -/
def calleeMatches (s : Source) (callee : Node) (names : List String) : Bool :=
  let tail := callee.accessTail s
  match tail.getLast? with
  | none => false
  | some last => names.any fun name =>
      name == last || (name.toList.contains '.' && endsWithPath tail name)

/-! ## Literals and texts -/

def isStringLiteral (n : Node) : Bool :=
  n.kind == "string" || n.kind == "template_string"

/-- The texts of empty string and template literals. -/
def emptyLiterals : List String := ["''", "\"\"", "``"]

def isEmptyLiteral (s : Source) (n : Node) : Bool :=
  n.isStringLiteral && emptyLiterals.contains (s.textOf n)

/-- The text without its first and its last character, each of which takes one byte. -/
def unquoted? (text : String) : Option String :=
  match text.toList with
  | quote :: rest =>
    match rest.getLast? with
    | some last =>
      if quote.utf8Size == 1 && last.utf8Size == 1 then some (String.ofList rest.dropLast) else none
    | none => none
  | [] => none

def stringValue? (s : Source) (n : Node) : Option String :=
  if n.kind == "string" then unquoted? (s.textOf n) else none

/-- The key under which an object literal holds a member. -/
def memberKey? (s : Source) (member : Node) : Option String :=
  match member.kind with
  | "pair" | "method_definition" =>
    (member.child? "key" <|> member.child? "name").map fun key =>
      (key.stringValue? s).getD (s.textOf key)
  | "shorthand_property_identifier" => some (s.textOf member)
  | _ => none

def objectKeys (s : Source) (n : Node) : List String :=
  if n.kind == "object" then n.namedChildren.filterMap (memberKey? s) else []

/-- Whether the text of a node has `needle` in it, once it is in lowercase. -/
def mentions (s : Source) (n : Node) (needle : String) : Bool :=
  Text.contains (Text.lowercase (s.textOf n)) needle

end Node
end Guardrails
