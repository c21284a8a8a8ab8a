/-!
Finite binary64 numbers by exact natural-number arithmetic. A number is its sign and its place on
the ladder of finite magnitudes, so order of numbers is order of places, and rounding to nearest is
one rounded division.
-/
namespace JobLaunch.Decimal

/-- Division rounded to nearest; a tie goes to the even quotient. -/
def divNearest (n d : Nat) : Nat :=
  let q := n / d
  let r := n % d
  if 2 * r < d then q
  else if d < 2 * r then q + 1
  else if q % 2 = 0 then q else q + 1

/-- The fractions of one exponent: as many as 52 bits hold. -/
def fractionCount : Nat := 0x10000000000000

/-- The places of one sign: 2047 exponents with all their fractions. -/
def placeCount : Nat := 2047 * fractionCount

/-- A finite double: its sign, and how many magnitudes lie below its own. -/
structure Double where
  negative : Bool
  place : Fin placeCount
deriving DecidableEq, Repr

namespace Double

def zero : Double := ⟨false, ⟨0, by decide⟩⟩

instance : Inhabited Double := ⟨zero⟩

/-- The integer that the scale multiplies: 53 bits for a normal number, fewer below. -/
def mantissa (d : Double) : Nat :=
  if d.place.val < fractionCount then d.place.val
  else fractionCount + d.place.val % fractionCount

def scale (d : Double) : Int :=
  if d.place.val < fractionCount then -1074 else (d.place.val / fractionCount : Nat) - 1075

/-- Numerator of the magnitude as an exact fraction. -/
def numerator (d : Double) : Nat := d.mantissa * Nat.pow 2 d.scale.toNat

def denominator (d : Double) : Nat := Nat.pow 2 (-d.scale).toNat

/-- Place of the magnitude nearest to a fraction; past the last place when it is too large. -/
def placeNearest (num den : Nat) : Nat :=
  if num = 0 then 0 else
    let guess : Int := (num.log2 : Int) - den.log2
    let top := if den * Nat.pow 2 guess.toNat ≤ num * Nat.pow 2 (-guess).toNat then guess
      else guess - 1
    let exponent := max (top - 52) (-1074)
    let q := divNearest (num * Nat.pow 2 (-exponent).toNat) (den * Nat.pow 2 exponent.toNat)
    (exponent + 1074).toNat * fractionCount + q

/-- The double nearest to a fraction, none when it would be infinite. -/
def ofRatio? (negative : Bool) (num den : Nat) : Option Double :=
  let place := placeNearest num den
  if h : place < placeCount then some ⟨negative, ⟨place, h⟩⟩ else none

/-- The double nearest to an integer; integers beyond the range read as the largest double. -/
def ofInt (i : Int) : Double :=
  (ofRatio? (decide (i < 0)) i.natAbs 1).getD ⟨decide (i < 0), ⟨placeCount - 1, by decide⟩⟩

/-- Signed place: compares as the number does, and is zero for both zeros. -/
def rank (d : Double) : Int := if d.negative then -(d.place.val : Int) else d.place.val

/-- Numeric equality; the two zeros are equal. -/
def same (a b : Double) : Bool := a.rank == b.rank

def less (a b : Double) : Bool := decide (a.rank < b.rank)

/-- The natural number a double stands for, none for fractions and negative numbers. -/
def natural? (d : Double) : Option Nat :=
  if d.rank < 0 then none
  else if d.numerator % d.denominator = 0 then some (d.numerator / d.denominator) else none

def mul? (a b : Double) : Option Double :=
  ofRatio? (a.negative != b.negative) (a.numerator * b.numerator) (a.denominator * b.denominator)

def div? (a b : Double) : Option Double :=
  ofRatio? (a.negative != b.negative) (a.numerator * b.denominator) (a.denominator * b.numerator)

/-- The double nearest to `digits * 10 ^ exponent`, none when it would be infinite. Exponents that
decide the answer alone are not raised to. -/
def ofDecimal? (negative : Bool) (digits : Nat) (exponent : Int) : Option Double :=
  let size : Int := (Nat.toDigits 10 digits).length
  if digits = 0 ∨ size + exponent < -330 then some ⟨negative, ⟨0, by decide⟩⟩
  else if 310 < size + exponent then none
  else ofRatio? negative (digits * Nat.pow 10 exponent.toNat) (Nat.pow 10 (-exponent).toNat)

def powerOfTen (n : Nat) : Double := (ofRatio? false (Nat.pow 10 n) 1).getD zero

/-- Scales a double by a power of ten in rounded steps: one product or quotient by the nearest power
of ten, after as many quotients by 10^308 as the exponent needs. None when a product is infinite.
Three quotients leave zero of any double, so `steps` from four on are never used up. -/
def scaleByTen? (steps : Nat) (d : Double) (exponent : Int) : Option Double :=
  if exponent.natAbs ≤ 308 then
    if 0 ≤ exponent then d.mul? (powerOfTen exponent.natAbs)
    else d.div? (powerOfTen exponent.natAbs)
  else if d.place.val = 0 then some d
  else if 0 ≤ exponent then none
  else match steps with
    | 0 => some d
    | steps + 1 => (d.div? (powerOfTen 308)).bind fun d => scaleByTen? steps d (exponent + 308)

end Double
end JobLaunch.Decimal
