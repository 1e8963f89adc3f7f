import SelectorRank.Text.Digit
import SelectorRank.Text.Quoted

/-! Dates and times of settings documents. A time that breaks off before its seconds is no time, so
what precedes it is a date. -/
namespace SelectorRank.Toml
open Text

structure Date where
  year : Nat
  month : Nat
  day : Nat
  deriving DecidableEq, Repr

structure Time where
  hour : Nat
  minute : Nat
  second : Nat
  micros : Nat
  deriving DecidableEq, Repr

abbrev Offset := Int

inductive Moment where
  | date (d : Date)
  | time (t : Time)
  | dateTime (d : Date) (t : Time) (offset : Option Offset)
  deriving DecidableEq, Repr

def isLeapYear (year : Nat) : Bool := year % 4 = 0 && (year % 100 ≠ 0 || year % 400 = 0)

def daysInMonth (year month : Nat) : Nat :=
  if month = 2 then (if isLeapYear year then 29 else 28)
  else if month = 4 || month = 6 || month = 9 || month = 11 then 30
  else 31

def Date.inCalendar (d : Date) : Bool := 1 ≤ d.year && d.day ≤ daysInMonth d.year d.month

def Moment.inCalendar : Moment → Bool
  | .date d => d.inCalendar
  | .time _ => true
  | .dateTime d _ _ => d.inCalendar

def asciiDigit? (c : Char) : Option Nat := if c.isDigit then some (c.toNat - 48) else none

def twoDigits? (low high : Nat) : List Char → Option (Nat × List Char)
  | a :: b :: rest => do
      let n := 10 * (← asciiDigit? a) + (← asciiDigit? b)
      if low ≤ n && n ≤ high then some (n, rest) else none
  | _ => none

def markedDigits? (mark : Char) (low high : Nat) : List Char → Option (Nat × List Char)
  | c :: rest => if c = mark then twoDigits? low high rest else none
  | [] => none

def readDate? (cs : List Char) : Option (Date × List Char) := do
  let (century, cs) ← twoDigits? 0 99 cs
  let (year, cs) ← twoDigits? 0 99 cs
  let (month, cs) ← markedDigits? '-' 1 12 cs
  let (day, cs) ← markedDigits? '-' 1 31 cs
  some (⟨100 * century + year, month, day⟩, cs)

def microsOf (digits : List Char) : Nat :=
  ofDigitValues (((digits ++ List.replicate 6 '0').take 6).filterMap asciiDigit?)

def readFraction : List Char → Nat × List Char
  | '.' :: rest =>
      match rest.takeWhile Char.isDigit with
      | [] => (0, '.' :: rest)
      | digits => (microsOf digits, rest.dropWhile Char.isDigit)
  | cs => (0, cs)

def readTime? (cs : List Char) : Option (Time × List Char) := do
  let (hour, cs) ← twoDigits? 0 23 cs
  let (minute, cs) ← markedDigits? ':' 0 59 cs
  let (second, cs) ← markedDigits? ':' 0 59 cs
  let (micros, cs) := readFraction cs
  some (⟨hour, minute, second, micros⟩, cs)

def readOffset? : List Char → Option (Offset × List Char)
  | [] => none
  | c :: cs =>
      if c = 'Z' || c = 'z' then some (0, cs)
      else if c = '+' || c = '-' then do
        let (hours, cs) ← twoDigits? 0 23 cs
        let (minutes, cs) ← markedDigits? ':' 0 59 cs
        let ahead : Int := 60 * hours + minutes
        some (if c = '-' then -ahead else ahead, cs)
      else none

def readTimeOfDay? : List Char → Option ((Time × Option Offset) × List Char)
  | [] => none
  | c :: cs =>
      if c = 'T' || c = 't' || c = ' ' then do
        let (time, cs) ← readTime? cs
        match readOffset? cs with
        | some (offset, cs) => some ((time, some offset), cs)
        | none => some ((time, none), cs)
      else none

def readMoment? (cs : List Char) : Option (Moment × List Char) :=
  match readDate? cs with
  | some (date, cs) =>
      match readTimeOfDay? cs with
      | some ((time, offset), cs) => some (.dateTime date time offset, cs)
      | none => some (.date date, cs)
  | none => (readTime? cs).map (fun r => (.time r.1, r.2))

def numbers (ns : List Nat) : String :=
  String.intercalate ", " (ns.map (fun n => String.ofList (natural n)))

def Time.parts (t : Time) : List Nat :=
  if t.micros ≠ 0 then [t.hour, t.minute, t.second, t.micros]
  else if t.second ≠ 0 then [t.hour, t.minute, t.second]
  else [t.hour, t.minute]

def Date.parts (d : Date) : List Nat := [d.year, d.month, d.day]

/-- Offsets are shown as whole days and the seconds past them. -/
def shownOffset (offset : Offset) : String :=
  if offset = 0 then "datetime.timezone.utc"
  else
    let days := if offset < 0 then "days=-1, " else ""
    "datetime.timezone(datetime.timedelta(" ++ days ++ "seconds=" ++
      String.ofList (integer (60 * offset % 86400)) ++ "))"

def Moment.shown : Moment → String
  | .date d => "datetime.date(" ++ numbers d.parts ++ ")"
  | .time t => "datetime.time(" ++ numbers t.parts ++ ")"
  | .dateTime d t none => "datetime.datetime(" ++ numbers (d.parts ++ t.parts) ++ ")"
  | .dateTime d t (some offset) =>
      "datetime.datetime(" ++ numbers (d.parts ++ t.parts) ++ ", tzinfo=" ++
        shownOffset offset ++ ")"

end SelectorRank.Toml
