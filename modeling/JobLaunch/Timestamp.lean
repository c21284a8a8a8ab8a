import JobLaunch.Text.Digit
import JobLaunch.Text.Blank
/-!
Instants of universal time with nanoseconds, their written form, and the forms that are read: a
date, a time of day and an offset from universal time. A leap second is the last second of its
minute with a billion nanoseconds more.
-/
namespace JobLaunch

/-- An instant: seconds since the start of 1970, and nanoseconds within that second. -/
structure Timestamp where
  seconds : Int
  nanos : Nat
  nanos_lt : nanos < 1000000000 ∨ (nanos < 2000000000 ∧ seconds % 60 = 59)
deriving DecidableEq, Repr

namespace Timestamp

instance : Inhabited Timestamp := ⟨⟨0, 0, by decide⟩⟩

def before (a b : Timestamp) : Bool :=
  decide (a.seconds < b.seconds ∨ (a.seconds = b.seconds ∧ a.nanos < b.nanos))

def ofSeconds (s : Int) : Timestamp := ⟨s, 0, .inl (by decide)⟩

/-- Days from the start of 1970 to a date, in eras of 400 years that start in March. -/
def dayNumber (year : Int) (month day : Nat) : Int :=
  let y := if month ≤ 2 then year - 1 else year
  let era := y / 400
  let yearOfEra := y % 400
  let dayOfYear : Int := ((153 * ((month + 9) % 12) + 2) / 5 + day - 1 : Nat)
  era * 146097 + (yearOfEra * 365 + yearOfEra / 4 - yearOfEra / 100 + dayOfYear) - 719468

def dateOf (number : Int) : Int × Nat × Nat :=
  let z := number + 719468
  let era := z / 146097
  let dayOfEra := (z % 146097).toNat
  let yearOfEra := (dayOfEra - dayOfEra / 1460 + dayOfEra / 36524 - dayOfEra / 146096) / 365
  let dayOfYear := dayOfEra - (365 * yearOfEra + yearOfEra / 4 - yearOfEra / 100)
  let monthIndex := (5 * dayOfYear + 2) / 153
  let day := dayOfYear - (153 * monthIndex + 2) / 5 + 1
  let month := if monthIndex < 10 then monthIndex + 3 else monthIndex - 9
  (yearOfEra + era * 400 + (if month ≤ 2 then 1 else 0), month, day)

def isLeapYear (year : Int) : Bool := (year % 4 == 0 && year % 100 != 0) || year % 400 == 0

def daysOfMonth (year : Int) (month : Nat) : Nat :=
  if month = 2 then (if isLeapYear year then 29 else 28)
  else if month = 4 ∨ month = 6 ∨ month = 9 ∨ month = 11 then 30 else 31

def firstYear : Int := -262143

@[inherit_doc firstYear]
def lastYear : Int := 262142

def firstSecond : Int := dayNumber firstYear 1 1 * 86400

def lastSecond : Int := dayNumber lastYear 12 31 * 86400 + 86399

def padded (width n : Nat) : String :=
  let ds := toString n
  String.ofList (List.replicate (width - ds.length) '0') ++ ds

/-- A year: four digits, with a sign and at least four digits outside of 0 to 9999. -/
def yearText (year : Int) : String :=
  if 0 ≤ year ∧ year ≤ 9999 then padded 4 year.toNat
  else (if year < 0 then "-" else "+") ++ padded 4 year.natAbs

/-- A fraction of a second with 0, 3, 6 or 9 digits, whichever suffices. -/
def fractionText (nanos : Nat) : String :=
  if nanos = 0 then ""
  else if nanos % 1000000 = 0 then "." ++ padded 3 (nanos / 1000000)
  else if nanos % 1000 = 0 then "." ++ padded 6 (nanos / 1000)
  else "." ++ padded 9 nanos

def toText (t : Timestamp) : String :=
  let (year, month, day) := dateOf (t.seconds / 86400)
  let s := (t.seconds % 86400).toNat
  let leap := if t.nanos < 1000000000 then 0 else 1
  yearText year ++ "-" ++ padded 2 month ++ "-" ++ padded 2 day ++ "T" ++ padded 2 (s / 3600) ++ ":"
    ++ padded 2 (s / 60 % 60) ++ ":" ++ padded 2 (s % 60 + leap)
    ++ fractionText (t.nanos - leap * 1000000000) ++ "Z"

/-- Reads at least one and at most `most` digits, after blanks. -/
def digits? (most : Nat) (cs : List Char) : Option (Nat × List Char) :=
  let ds := (cs.take most).takeWhile Char.isDigit
  (Text.natural? 10 ds).map fun n => (n, cs.drop ds.length)

def twoDigits? (cs : List Char) : Option (Nat × List Char) := digits? 2 (Text.trimFront cs)

/-- Reads a year, after blanks: up to four digits, any number of them after a sign. -/
def year? (cs : List Char) : Option (Int × List Char) :=
  match Text.trimFront cs with
  | '-' :: cs => (digits? cs.length cs).map fun (n, cs) => (-(n : Int), cs)
  | '+' :: cs => (digits? cs.length cs).map fun (n, cs) => (n, cs)
  | cs => (digits? 4 cs).map fun (n, cs) => (n, cs)

def mark? (c : Char) (cs : List Char) : Option (List Char) :=
  match Text.trimFront cs with
  | d :: cs => if d = c then some cs else none
  | [] => none

/-- Reads a fraction of a second as nanoseconds; digits after the ninth do not count. -/
def fraction? (cs : List Char) : Option (Nat × List Char) :=
  match cs with
  | '.' :: cs => do
    let (n, rest) ← digits? 9 cs
    return (n * Nat.pow 10 (9 - (cs.length - rest.length)), rest.dropWhile Char.isDigit)
  | cs => some (0, cs)

/-- Reads an offset in seconds: `UTC`, `Z`, or a sign, hours and minutes. -/
def offset? (cs : List Char) : Option (Int × List Char) :=
  if (cs.take 3).map Char.toLower = ['u', 't', 'c'] then some (0, cs.drop 3)
  else match cs with
    | sign :: cs =>
      if sign = 'Z' ∨ sign = 'z' then some (0, cs)
      else if sign = '+' ∨ sign = '-' ∨ sign.toNat = 0x2212 then do
        let hours ← Text.natural? 10 (cs.take 2)
        let cs := (cs.drop 2).dropWhile fun c => c = ':' || Text.isBlank c
        let minutes ← Text.natural? 10 (cs.take 2)
        if cs.length < 2 ∨ 59 < minutes then none
        let size : Int := hours * 3600 + minutes * 60
        return (if sign = '+' then size else -size, cs.drop 2)
      else none
    | [] => none

/-- An instant from its parts, if they name one inside the calendar. -/
def ofParts? (year : Int) (month day hour minute second nanos : Nat) (offset : Int) :
    Option Timestamp :=
  if firstYear ≤ year ∧ year ≤ lastYear ∧ 1 ≤ month ∧ month ≤ 12 ∧ 1 ≤ day
      ∧ day ≤ daysOfMonth year month ∧ hour ≤ 23 ∧ minute ≤ 59 ∧ second ≤ 60
      ∧ offset.natAbs < 86400 then
    let leap := if second = 60 then 1 else 0
    let here : Int :=
      dayNumber year month day * 86400 + (hour * 3600 + minute * 60 + second - leap : Nat)
    let seconds := here - offset
    let nanos := nanos + leap * 1000000000
    if h : (nanos < 1000000000 ∨ (nanos < 2000000000 ∧ seconds % 60 = 59))
        ∧ firstSecond ≤ seconds ∧ seconds ≤ lastSecond then some ⟨seconds, nanos, h.1⟩ else none
  else none

/-- The instant some seconds later; inside a leap second, later than its end. -/
def plusSeconds (t : Timestamp) (s : Int) : Timestamp where
  seconds := t.seconds + s
  nanos := t.nanos % 1000000000
  nanos_lt := .inl (Nat.mod_lt _ (by decide))

/-- The instant some seconds earlier, if the calendar reaches back to it. -/
def minusSeconds? (t : Timestamp) (s : Nat) : Option Timestamp :=
  let earlier := t.plusSeconds (-s)
  if firstSecond ≤ earlier.seconds then some earlier else none

/-- Reads an instant: date, `T` or a blank, time of day and offset. Numbers may be short, and blanks
may stand around them. -/
def ofText? (s : String) : Option Timestamp := do
  let (year, cs) ← year? s.toList
  let (month, cs) ← twoDigits? (← mark? '-' cs)
  let (day, cs) ← twoDigits? (← mark? '-' cs)
  let separator :: cs := cs | none
  if ¬(separator = 'T' ∨ separator = 't' ∨ separator = ' ') then none
  let (hour, cs) ← twoDigits? cs
  let (minute, cs) ← twoDigits? (← mark? ':' cs)
  let (second, cs) ← twoDigits? (← mark? ':' cs)
  let (nanos, cs) ← fraction? cs
  let (offset, cs) ← offset? (Text.trimFront cs)
  if ¬(Text.trimFront cs).isEmpty then none
  ofParts? year month day hour minute second nanos offset

end Timestamp
end JobLaunch
