import Guardrails.Command

/-!
# Arguments

The words a command is given by. Options have a long name and some a short one too. They may stand anywhere
behind the name of their command, and those that every command has in front of it as well, where the ones
behind it win.
-/

namespace Guardrails.Arguments

/-! ## Options -/

inductive Key
  | verbose
  | version
  | config
  | format
  | rule
  | exclude
  | force
  deriving DecidableEq, Repr

namespace Key

def all : List Key := [verbose, version, config, format, rule, exclude, force]

def longName : Key → String
  | verbose => "verbose"
  | version => "version"
  | config => "config"
  | format => "format"
  | rule => "rule"
  | exclude => "exclude"
  | force => "force"

def shortName? : Key → Option Char
  | verbose => some 'v'
  | version => some 'V'
  | config => some 'c'
  | format => some 'f'
  | exclude => some 'e'
  | _ => none

def takesValue : Key → Bool
  | verbose | version | force => false
  | _ => true

/-- Whether the option may be given several times. -/
def repeats (k : Key) : Bool :=
  k = exclude

end Key

inductive Name
  | check
  | listRules
  | init
  deriving DecidableEq, Repr

namespace Name

def ofWord? : String → Option Name
  | "check" => some check
  | "list-rules" => some listRules
  | "init" => some init
  | _ => none

def options : Name → List Key
  | check => [.format, .rule, .exclude]
  | listRules => []
  | init => [.force]

end Name

/-- The options that may be given where the command is this one, or not known yet. -/
def allowed (name? : Option Name) : List Key :=
  [.verbose, .config] ++ match name? with
    | some name => name.options
    | none => [.version]

/-! ## Reading words -/

/-- What has been read: the options in front of the command, the command, the options behind it, and the other
words. What comes last is the first. -/
structure State where
  outer : List (Key × String)
  name? : Option Name
  options : List (Key × String)
  words : List String

namespace State

def addOption (s : State) (k : Key) (value : String) : State :=
  { s with options := (k, value) :: s.options }

/-- The first word names the command. -/
def addWord? (s : State) (word : String) : Option State :=
  match s.name? with
  | none => (Name.ofWord? word).map fun name => ⟨s.options, some name, [], []⟩
  | some _ => some { s with words := word :: s.words }

/-- An option by its long name, perhaps with a value behind an equals sign. Without a value that it takes, it
is still open. -/
def addLong? (s : State) (text : List Char) : Option (State × Option Key) := do
  let name := String.ofList (text.takeWhile (· != '='))
  let k ← (allowed s.name?).find? (·.longName == name)
  match k.takesValue, text.dropWhile (· != '=') with
  | true, '=' :: value => return (s.addOption k (String.ofList value), none)
  | true, _ => return (s, some k)
  | false, [] => return (s.addOption k "", none)
  | false, _ => none

/-- Options by their short names, one after the other. What follows one that takes a value is its value, and
what follows the question for the version does not count. -/
def addShort? (s : State) : List Char → Option (State × Option Key)
  | [] => some (s, none)
  | c :: rest => do
    let k ← (allowed s.name?).find? (·.shortName? == some c)
    if k.takesValue then
      match rest with
      | [] => return (s, some k)
      | '=' :: value => return (s.addOption k (String.ofList value), none)
      | value => return (s.addOption k (String.ofList value), none)
    else if k = .version then return (s.addOption k "", none)
    else addShort? (s.addOption k "") rest

def asksVersion (s : State) : Bool :=
  s.options.any (·.1 = .version)

end State

/-- Whether a word is an option. A lone dash is none. -/
def isOption (word : String) : Bool :=
  Text.startsWith word "-" && word != "-"

/-- Reads the words with an option that waits for its value, if one does. After a lone `--`, which comes behind
the name of a command, all words are other words. Nothing counts behind the question for the version. -/
def readWords (s : State) (waiting? : Option Key) : List String → Option State
  | [] => if waiting?.isSome then none else some s
  | word :: rest =>
    if s.asksVersion then some s
    else match waiting? with
    | some k => if isOption word then none else readWords (s.addOption k word) none rest
    | none =>
      match word.toList with
      | ['-', '-'] => if s.name?.isSome then rest.foldlM State.addWord? s else none
      | '-' :: '-' :: text => do
        let (s, waiting?) ← s.addLong? text
        readWords s waiting? rest
      | '-' :: c :: text => do
        let (s, waiting?) ← s.addShort? (c :: text)
        readWords s waiting? rest
      | _ => do readWords (← s.addWord? word) none rest

/-! ## Commands -/

namespace State

def valuesIn (options : List (Key × String)) (k : Key) : List String :=
  options.reverse.filterMap fun (key, value) => if key = k then some value else none

def values (s : State) (k : Key) : List String :=
  valuesIn s.options k

/-- Whether no option is given more often than it may be on either side of the command. -/
def isSingle (s : State) (k : Key) : Bool :=
  k.repeats || ((valuesIn s.outer k).length ≤ 1 && (s.values k).length ≤ 1)

def configFiles (s : State) : List String :=
  s.values .config ++ valuesIn s.outer .config

def isSound (s : State) : Bool :=
  Key.all.all s.isSingle && !(s.configFiles ++ s.words).contains ""

def configFile? (s : State) : Option Path :=
  s.configFiles.head?.map Path.mk

def pathsOf (s : State) : List Path :=
  if s.words.isEmpty then [⟨"."⟩] else s.words.reverse.map Path.mk

def command? (s : State) : Option Command :=
  match s.name? with
  | none => if s.asksVersion then some .version else none
  | some .check =>
    (Format.ofName? ((s.values .format).head?.getD "text")).map fun format =>
      .check ⟨s.pathsOf, format, (s.values .rule).head?, s.values .exclude⟩
  | some .listRules => if s.words.isEmpty then some .listRules else none
  | some .init => if s.words.isEmpty then some (.init (!(s.values .force).isEmpty)) else none

end State

def read? (words : List String) : Option Invocation := do
  let s ← readWords ⟨[], none, [], []⟩ none words
  if s.isSound then return ⟨s.configFile?, ← s.command?⟩ else none

end Guardrails.Arguments
