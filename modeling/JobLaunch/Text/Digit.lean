/-!
Digits and whole numbers in bases up to sixteen.
-/
namespace JobLaunch.Text

def hexValue? (c : Char) : Option Nat :=
  if c.isDigit then some (c.toNat - '0'.toNat)
  else if 'a' ≤ c ∧ c ≤ 'f' then some (c.toNat - 'a'.toNat + 10)
  else if 'A' ≤ c ∧ c ≤ 'F' then some (c.toNat - 'A'.toNat + 10)
  else none

def digitValue? (base : Nat) (c : Char) : Option Nat :=
  (hexValue? c).filter (· < base)

def hexDigit (n : Nat) : Char := (Nat.toDigits 16 n).headD '0'

/-- Reads a number of at least one digit and nothing else. -/
def natural? (base : Nat) (cs : List Char) : Option Nat :=
  if cs.isEmpty then none
  else (cs.mapM (digitValue? base)).map fun ds => ds.foldl (fun n d => n * base + d) 0

/-- Reads a decimal number that may carry a plus sign, at most `greatest`. -/
def boundedNatural? (greatest : Nat) (s : String) : Option Nat :=
  let cs := s.toList
  (natural? 10 (if cs.head? = some '+' then cs.drop 1 else cs)).filter (· ≤ greatest)

/-- Reads a decimal number that may carry a sign, within 64 bits. -/
def signed64? (s : String) : Option Int :=
  let read : Option Int := match s.toList with
    | '+' :: cs => (natural? 10 cs).map Int.ofNat
    | '-' :: cs => (natural? 10 cs).map fun n => -(n : Int)
    | cs => (natural? 10 cs).map Int.ofNat
  read.filter fun i => -0x8000000000000000 ≤ i ∧ i ≤ 0x7FFFFFFFFFFFFFFF

end JobLaunch.Text
