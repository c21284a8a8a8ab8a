import JobLaunch.Json.Basic
/-!
JSON numbers. A number without point and exponent that fits 64 bits is an integer. Any other is a
float: its leading digits, as many as fit 64 bits, scaled by a power of ten in rounded steps.
-/
namespace JobLaunch.Json

/-- Digits gathered into a 64-bit significand, and the power of ten that is still to be applied. -/
structure Significand where
  value : Nat := 0
  exponent : Int := 0

namespace Significand

/-- Appends digits while the significand fits 64 bits; returns what is left over. -/
def append (s : Significand) (step : Int) : List Char → Significand × List Char
  | [] => (s, [])
  | c :: cs =>
    let next := s.value * 10 + (c.toNat - '0'.toNat)
    if next ≤ 0xFFFFFFFFFFFFFFFF then append ⟨next, s.exponent + step⟩ step cs else (s, c :: cs)

def toFloat? (s : Significand) (negative : Bool) : Option Decimal.Double :=
  (Decimal.Double.scaleByTen? 4 (Decimal.Double.ofInt s.value) s.exponent).map
    fun d => ⟨negative, d.place⟩

end Significand

structure NumberText where
  negative : Bool
  whole : List Char
  fraction : Option (List Char)
  exponent : Option Int

namespace NumberText

def digitsValue (cs : List Char) : Nat := cs.foldl (fun n c => n * 10 + (c.toNat - '0'.toNat)) 0

def digits (cs : List Char) : List Char × List Char :=
  (cs.takeWhile Char.isDigit, cs.dropWhile Char.isDigit)

def fraction? : List Char → Option (Option (List Char) × List Char)
  | '.' :: cs =>
    let (ds, rest) := digits cs
    if ds.isEmpty then none else some (some ds, rest)
  | cs => some (none, cs)

def exponent? : List Char → Option (Option Int × List Char)
  | c :: cs =>
    if c = 'e' ∨ c = 'E' then
      let (negative, cs) := match cs with
        | '-' :: cs => (true, cs)
        | '+' :: cs => (false, cs)
        | cs => (false, cs)
      let (ds, rest) := digits cs
      if ds.isEmpty then none
      else some (some (if negative then -(digitsValue ds : Int) else digitsValue ds), rest)
    else some (none, c :: cs)
  | [] => some (none, [])

/-- Reads a number: no leading zeros, digits on both sides of a point. -/
def read? (cs : List Char) : Option (NumberText × List Char) := do
  let (negative, cs) := match cs with
    | '-' :: cs => (true, cs)
    | cs => (false, cs)
  let (whole, cs) := digits cs
  if whole.isEmpty ∨ (1 < whole.length ∧ whole.head? = some '0') then none
  let (fraction, cs) ← fraction? cs
  let (exponent, cs) ← exponent? cs
  return (⟨negative, whole, fraction, exponent⟩, cs)

/-- The number as a tree, none for an infinite float. Minus zero is a float. -/
def toJson? (t : NumberText) : Option Json :=
  let (s, dropped) := ({} : Significand).append 0 t.whole
  if dropped.isEmpty ∧ t.fraction.isNone ∧ t.exponent.isNone then
    if ¬t.negative then some (int s.value)
    else if s.value ≠ 0 ∧ s.value ≤ 0x8000000000000000 then some (int (-s.value))
    else (s.toFloat? true).map float
  else
    let s : Significand := ⟨s.value, dropped.length⟩
    let (s, _) := s.append (-1) (t.fraction.getD [])
    (Significand.toFloat? ⟨s.value, s.exponent + t.exponent.getD 0⟩ t.negative).map float

end NumberText
end JobLaunch.Json
