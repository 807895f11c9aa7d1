import Guardrails.Toml.Text

/-!
# TOML values

A moment is a date, a time of day or both, and with both there may be a zone. However a moment was written, it
has one text: with a `T` in front of the time and without the zeros at the end of a fraction.
-/

namespace Guardrails.Toml

/-! ## Moments -/

structure Date where
  year : Nat
  month : Nat
  day : Nat
  deriving DecidableEq, Repr

structure Time where
  hour : Nat
  minute : Nat
  second : Nat
  nanosecond : Nat
  deriving DecidableEq, Repr

inductive Zone
  | utc
  | ahead (minutes : Int)
  deriving DecidableEq, Repr

structure Moment where
  date? : Option Date
  time? : Option Time
  zone? : Option Zone
  deriving DecidableEq, Repr

/-! ## Texts -/

/-- The digits of a number, with zeros in front up to a width. -/
def padded (width n : Nat) : String :=
  String.ofList ((Nat.toDigits 10 n).leftpad width '0')

def Date.text (d : Date) : String :=
  s!"{padded 4 d.year}-{padded 2 d.month}-{padded 2 d.day}"

/-- The fraction of a second, with the point in front of it. -/
def fractionText (nanosecond : Nat) : String :=
  if nanosecond = 0 then ""
  else
    let digits := (padded 9 nanosecond).toList
    "." ++ String.ofList (digits.reverse.dropWhile (· == '0')).reverse

def Time.text (t : Time) : String :=
  s!"{padded 2 t.hour}:{padded 2 t.minute}:{padded 2 t.second}" ++ fractionText t.nanosecond

def Zone.text : Zone → String
  | utc => "Z"
  | ahead minutes =>
    let size := minutes.natAbs
    (if minutes < 0 then "-" else "+") ++ s!"{padded 2 (size / 60)}:{padded 2 (size % 60)}"

namespace Moment

def text (m : Moment) : String :=
  let date := (m.date?.map Date.text).getD ""
  let time := (m.time?.map Time.text).getD ""
  let zone := (m.zone?.map Zone.text).getD ""
  date ++ (if m.date?.isSome && m.time?.isSome then "T" else "") ++ time ++ zone

/-! ## Reading -/

/-- Where a moment is written. A text on its own is read less strictly: the hour 24 counts there, and so do
zones of any two numbers that make up no more than a day. -/
inductive Place
  | document
  | ownText
  deriving DecidableEq, Repr

/-- A number of exactly `count` digits, in a range. -/
def fixed (count low high : Nat) : Reader Nat := fun text =>
  let digits := text.take count
  let n := valueOf 10 digits
  if digits.length = count && digits.all Char.isDigit && low ≤ n && n ≤ high then
    some (n, text.drop count)
  else none

def expect (c : Char) : List Char → Option (List Char)
  | d :: rest => if c == d then some rest else none
  | [] => none

def isLeapYear (year : Nat) : Bool :=
  year % 4 == 0 && (year % 100 != 0 || year % 400 == 0)

def daysOf (year month : Nat) : Nat :=
  if month == 2 then if isLeapYear year then 29 else 28
  else if month == 4 || month == 6 || month == 9 || month == 11 then 30 else 31

def date : Reader Date := fun text => do
  let (year, text) ← fixed 4 0 9999 text
  let (month, text) ← fixed 2 1 12 (← expect '-' text)
  let (day, rest) ← fixed 2 1 (daysOf year month) (← expect '-' text)
  return (⟨year, month, day⟩, rest)

/-- The nanoseconds that the digits of a fraction spell. Those behind the ninth do not count. -/
def nanosecondsOf (digits : List Char) : Nat :=
  valueOf 10 ((digits ++ List.replicate 9 '0').take 9)

def fraction : Reader Nat
  | '.' :: rest =>
    let digits := rest.takeWhile Char.isDigit
    if digits.isEmpty then none else some (nanosecondsOf digits, rest.dropWhile Char.isDigit)
  | text => some (0, text)

def time (place : Place) : Reader Time := fun text => do
  let (hour, text) ← fixed 2 0 (if place = .document then 23 else 24) text
  let (minute, text) ← fixed 2 0 59 (← expect ':' text)
  let (second, text) ← fixed 2 0 60 (← expect ':' text)
  let (nanosecond, rest) ← fraction text
  return (⟨hour, minute, second, nanosecond⟩, rest)

/-- The minutes of a zone behind its sign. -/
def zoneMinutes (place : Place) : Reader Nat := fun text => do
  let (hours, text) ← fixed 2 0 (if place = .document then 23 else 99) text
  let (minutes, rest) ← fixed 2 0 (if place = .document then 59 else 99) (← expect ':' text)
  let total := hours * 60 + minutes
  if total ≤ 24 * 60 then return (total, rest) else none

def zone (place : Place) : Reader (Option Zone)
  | 'Z' :: rest | 'z' :: rest => some (some .utc, rest)
  | '+' :: rest => (zoneMinutes place rest).map fun (n, rest) => (some (.ahead n), rest)
  | '-' :: rest => (zoneMinutes place rest).map fun (n, rest) => (some (.ahead (-n)), rest)
  | text => some (none, text)

def startsDate (text : List Char) : Bool :=
  (fixed 4 0 9999 text).any fun (_, rest) => rest.head? == some '-'

def startsTime (text : List Char) : Bool :=
  (fixed 2 0 99 text).any fun (_, rest) => rest.head? == some ':'

def starts (text : List Char) : Bool :=
  startsDate text || startsTime text

def hasTime : List Char → Bool
  | c :: rest => (c == 'T' || c == 't' || c == ' ') && startsTime rest
  | [] => false

def read (place : Place) : Reader Moment := fun text => do
  if startsDate text then
    let (d, text) ← date text
    if hasTime text then
      let (t, text) ← time place (text.drop 1)
      let (z?, rest) ← zone place text
      return (⟨some d, some t, z?⟩, rest)
    else return (⟨some d, none, none⟩, text)
  else
    let (t, rest) ← time place text
    return (⟨none, some t, none⟩, rest)

/-- The moment that a text as a whole spells. -/
def ofText? (text : String) : Option Moment :=
  match read .ownText text.toList with
  | some (m, []) => some m
  | _ => none

end Moment

/-! ## Values -/

inductive Value
  | string (text : String)
  | integer (n : Int)
  | float (x : Float)
  | boolean (b : Bool)
  | datetime (m : Moment)
  | array (items : List Value)
  | table (entries : List (String × Value))
  deriving Inhabited

/-- The entries of a table, in the order in which they were written. -/
abbrev Table := List (String × Value)

namespace Value

def string? : Value → Option String
  | string text => some text
  | _ => none

def integer? : Value → Option Int
  | integer n => some n
  | _ => none

def boolean? : Value → Option Bool
  | boolean b => some b
  | _ => none

def array? : Value → Option (List Value)
  | array items => some items
  | _ => none

end Value

end Guardrails.Toml
