import Std.Data.ExtTreeSet
import JobLaunch.Text.Digit
/-!
Ids are 128-bit numbers, written as 32 lower case hexadecimal digits in five hyphenated groups.
-/
namespace JobLaunch

structure Id where
  bits : BitVec 128
deriving DecidableEq, Repr

namespace Id

instance : Inhabited Id := ⟨⟨0⟩⟩

instance : Ord Id := ⟨fun a b => compare a.bits.toNat b.bits.toNat⟩

instance : Std.TransOrd Id where
  eq_swap {a b} :=
    show compare a.bits.toNat b.bits.toNat = (compare b.bits.toNat a.bits.toNat).swap from
      Std.OrientedCmp.eq_swap
  isLE_trans hab hbc :=
    have h : ∀ {l m n : Nat}, (compare l m).isLE → (compare m n).isLE → (compare l n).isLE :=
      Std.TransCmp.isLE_trans
    h hab hbc

instance : Std.LawfulEqOrd Id where
  eq_of_compare {a b} h := by
    have h : compare a.bits.toNat b.bits.toNat = .eq := h
    rcases a with ⟨a⟩
    rcases b with ⟨b⟩
    simp only [Std.compare_eq_iff_eq] at h
    exact congrArg Id.mk (BitVec.eq_of_toNat_eq h)

/-- Hexadecimal digits of a number, at least `width` of them. -/
def hexText (width n : Nat) : List Char :=
  let ds := Nat.toDigits 16 n
  List.replicate (width - ds.length) '0' ++ ds

def hyphenate (ds : List Char) : List Char :=
  ds.take 8 ++ '-' :: (ds.drop 8).take 4 ++ '-' :: (ds.drop 12).take 4 ++ '-' :: (ds.drop 16).take 4
    ++ '-' :: ds.drop 20

def toText (id : Id) : String := String.ofList (hyphenate (hexText 32 id.bits.toNat))

def ofDigits? (ds : List Char) : Option Id :=
  if ds.length = 32 then
    (ds.mapM Text.hexValue?).map fun ns => ⟨BitVec.ofNat 128 (ns.foldl (fun n d => n * 16 + d) 0)⟩
  else none

def dehyphenate? (cs : List Char) : Option (List Char) :=
  if cs.length = 36 ∧ cs[8]? = some '-' ∧ cs[13]? = some '-' ∧ cs[18]? = some '-'
      ∧ cs[23]? = some '-' then
    some (cs.take 8 ++ (cs.drop 9).take 4 ++ (cs.drop 14).take 4 ++ (cs.drop 19).take 4
      ++ cs.drop 24)
  else none

/-- Reads an id: 32 digits, the hyphenated form, or the hyphenated form in braces or after
`urn:uuid:`. -/
def ofText? (s : String) : Option Id :=
  let cs := s.toList
  if cs.length = 32 then ofDigits? cs
  else
    let inner :=
      if cs.length = 38 ∧ cs.head? = some '{' ∧ cs.getLast? = some '}' then (cs.drop 1).take 36
      else if cs.length = 45 ∧ String.ofList ((cs.take 9).map Char.toLower) = "urn:uuid:" then
        cs.drop 9
      else cs
    (dehyphenate? inner).bind ofDigits?

end Id

/-- A set of ids, listed in increasing order. -/
abbrev IdSet := Std.ExtTreeSet Id

end JobLaunch
