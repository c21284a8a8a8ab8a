import JobLaunch.Decimal.Double
/-!
Shortest decimal text of a double: the fewest digits that read back as the same number, and of the
decimals with that many digits the nearest. A format says where positional notation ends.
-/
namespace JobLaunch.Decimal

/-- A positive decimal `digits * 10 ^ exponent`. -/
structure Digits where
  digits : Nat
  exponent : Int
deriving DecidableEq, Repr

namespace Digits

def trimZeros : Nat → Digits → Digits
  | 0, d => d
  | limit + 1, d =>
    if d.digits % 10 = 0 then trimZeros limit ⟨d.digits / 10, d.exponent + 1⟩ else d

end Digits

/-- The decimals that read back as a double, in units of one common fraction `1 / unit`. -/
structure Neighbourhood where
  low : Nat
  value : Nat
  high : Nat
  unit : Nat
  closed : Bool

namespace Neighbourhood

/-- The interval that rounds to `d`: half way to both neighbours, ends included for even mantissas.
Below a power of two the gap is half as wide. -/
def of (d : Double) : Neighbourhood :=
  let m := d.mantissa
  let below := if m = fractionCount ∧ 2 * fractionCount ≤ d.place.val then 4 * m - 1 else 4 * m - 2
  let up := Nat.pow 2 (d.scale - 2).toNat
  ⟨below * up, 4 * m * up, (4 * m + 2) * up, Nat.pow 2 (2 - d.scale).toNat, m % 2 == 0⟩

def contains (i : Neighbourhood) (n d : Nat) : Bool :=
  if i.closed then i.low * d ≤ n * i.unit && n * i.unit ≤ i.high * d
  else i.low * d < n * i.unit && n * i.unit < i.high * d

/-- The greatest exponent whose power of ten is at most the value, from a binary estimate that is
off by at most one. -/
def topExponent (i : Neighbourhood) : Int :=
  let atMost (e : Int) : Bool := Nat.pow 10 e.toNat * i.unit ≤ i.value * Nat.pow 10 (-e).toNat
  let guess : Int := ((i.value.log2 : Int) - i.unit.log2) * 30103 / 100000
  if atMost (guess + 1) then guess + 1 else if atMost guess then guess else guess - 1

/-- The decimal on the grid of step `10 ^ exponent` that lies in the interval, the nearer of two; a
tie goes to the even one. -/
def onGrid? (i : Neighbourhood) (exponent : Int) : Option Nat :=
  let up := Nat.pow 10 exponent.toNat
  let down := Nat.pow 10 (-exponent).toNat
  let floor := i.value * down / (i.unit * up)
  let hit (c : Nat) : Bool := i.contains (c * up) down
  match hit floor, hit (floor + 1) with
  | true, true => some (divNearest (i.value * down) (i.unit * up))
  | true, false => some floor
  | false, true => some (floor + 1)
  | false, false => none

/-- Tries grids from coarse to fine; seventeen digits always suffice. -/
def search (i : Neighbourhood) (top : Int) : Nat → Digits
  | 0 => ⟨i.value / i.unit, 0⟩
  | left + 1 =>
    let exponent := top - (16 - left : Nat)
    match i.onGrid? exponent with
    | some c => Digits.trimZeros 20 ⟨c, exponent⟩
    | none => search i top left

end Neighbourhood

def shortest (d : Double) : Digits :=
  let i := Neighbourhood.of d
  i.search i.topExponent 17

structure Format where
  leastPositional : Int
  mostPositional : Int

namespace Format

/-- Positional digits around the point, with at least one digit on each side. -/
def positional (digits : String) (exponent : Int) : String :=
  let point := digits.length + exponent
  if point ≤ 0 then "0." ++ String.ofList (List.replicate (-point).toNat '0') ++ digits
  else if 0 ≤ exponent then digits ++ String.ofList (List.replicate exponent.toNat '0') ++ ".0"
  else
    let cs := digits.toList
    String.ofList (cs.take point.toNat) ++ "." ++ String.ofList (cs.drop point.toNat)

/-- One digit before the point, none after it when there is one digit only, and a signed
exponent. -/
def scientific (digits : String) (exponent : Int) : String :=
  let power := digits.length + exponent - 1
  let sign := if power < 0 then "e-" else "e+"
  match digits.toList with
  | [] => ""
  | [c] => String.singleton c ++ sign ++ toString power.natAbs
  | c :: rest => String.singleton c ++ "." ++ String.ofList rest ++ sign ++ toString power.natAbs

def write (f : Format) (d : Double) : String :=
  let sign := if d.negative then "-" else ""
  if d.place.val = 0 then sign ++ "0.0"
  else
    let s := shortest d
    let digits := toString s.digits
    let power : Int := digits.length + s.exponent - 1
    sign ++ if f.leastPositional ≤ power && power ≤ f.mostPositional
      then positional digits s.exponent else scientific digits s.exponent

end Format
end JobLaunch.Decimal
