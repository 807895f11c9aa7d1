import Guardrails.Toml.Value

/-!
# Tables under construction

While a document is read its tables remember how they came about, since that decides what may still be
added to them. A table that a header or a brace has defined cannot be reached by a dotted key, and one that
dotted keys have made cannot be defined by a header.
-/

namespace Guardrails.Toml

/-- A value or a table that may still grow. -/
inductive Draft
  | value (v : Value)
  /-- A table, which is implicit until it is defined, and dotted when a dotted key has made it. -/
  | table (isImplicit isDotted : Bool) (entries : List (String × Draft))
  /-- The tables of an array of tables, of which the last one is open. -/
  | tables (items : List Draft)

namespace Draft

abbrev Entries := List (String × Draft)

/-! ## Finishing -/

mutual

def toValue : Draft → Value
  | .value v => v
  | .table _ _ entries => .table (toTable entries)
  | .tables items => .array (toValues items)

def toValues : List Draft → List Value
  | [] => []
  | d :: ds => toValue d :: toValues ds

def toTable : Entries → Table
  | [] => []
  | (key, d) :: rest => (key, toValue d) :: toTable rest

end

/-! ## Changing entries -/

/-- The entries with the one under the key replaced. -/
def set (key : String) (d : Draft) : Entries → Entries
  | [] => []
  | (k, e) :: rest => if k = key then (k, d) :: rest else (k, e) :: set key d rest

/-- A change to the entries of a table, where it is told whether dotted keys have made the table. -/
abbrev Change := (isDotted : Bool) → Entries → Option Entries

/-- Changes the table at the end of the path, and makes the tables on the way that are missing. A path
inside of a dotted key cannot lead into a table that is defined. -/
def within (inKey : Bool) (change : Change) : List String → Change
  | [], isDotted, entries => change isDotted entries
  | key :: path, _, entries =>
    match entries.lookup key with
    | none =>
      (within inKey change path inKey []).map fun inner => entries ++ [(key, .table true inKey inner)]
    | some (.value _) => none
    | some (.table isImplicit isDotted inner) =>
      if inKey && !isImplicit then none
      else
        (within inKey change path isDotted inner).map fun inner =>
          set key (.table isImplicit isDotted inner) entries
    | some (.tables items) =>
      match items.getLast? with
      | some (.table isImplicit isDotted inner) =>
        (within inKey change path isDotted inner).map fun inner =>
          set key (.tables (items.dropLast ++ [.table isImplicit isDotted inner])) entries
      | _ => none

/-- Adds a value under a key of the table itself, or of one that a dotted key leads to. -/
def addHere (isPath : Bool) (key : String) (v : Value) : Change := fun isDotted entries =>
  if isDotted != isPath then none
  else if (entries.lookup key).isSome then none
  else some (entries ++ [(key, .value v)])

def add (key : List String × String) (v : Value) : Change :=
  within true (addHere (!key.1.isEmpty) key.2 v) key.1

/-- Defines a table that is not there, or only implicitly. Either way it becomes the last entry. -/
def define (key : String) : Change := fun _ entries =>
  match entries.lookup key with
  | none => some (entries ++ [(key, .table false false [])])
  | some (.table true false inner) =>
    some (entries.filter (·.1 != key) ++ [(key, .table false false inner)])
  | some _ => none

/-- Opens a further table of an array of tables. -/
def append (key : String) : Change := fun _ entries =>
  match entries.lookup key with
  | none => some (entries ++ [(key, .tables [.table false false []])])
  | some (.tables items) => some (set key (.tables (items ++ [.table false false []])) entries)
  | some _ => none

end Draft
end Guardrails.Toml
