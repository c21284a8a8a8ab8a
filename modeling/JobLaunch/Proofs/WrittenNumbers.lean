import JobLaunch.Timestamp
import JobLaunch.Id
/-!
Written numbers. The digits of a number in a base up to sixteen, with any zeros in front of them, are
read as that number.
-/
namespace JobLaunch
namespace Text

theorem hexValue?_digitChar {d : Nat} (h : d < 16) : hexValue? (Nat.digitChar d) = some d := by
  have hall : ∀ d < 16, hexValue? (Nat.digitChar d) = some d := by decide
  exact hall d h

theorem digitValue?_digitChar {b d : Nat} (hb : b ≤ 16) (h : d < b) :
    digitValue? b (Nat.digitChar d) = some d := by
  simp [digitValue?, hexValue?_digitChar (Nat.lt_of_lt_of_le h hb), Option.filter_some, h]

theorem isBlank_of_isDigit {c : Char} (h : c.isDigit) : isBlank c = false := by
  have hc : 48 ≤ c.toNat ∧ c.toNat ≤ 57 := by
    simpa [Char.isDigit, UInt32.le_iff_toNat_le] using h
  simp only [isBlank]
  grind

/-- Digits say the number that they are written for. -/
theorem mapM_toDigits {f : Char → Option Nat} {b : Nat} (hb : 1 < b)
    (hf : ∀ d < b, f (Nat.digitChar d) = some d) (n : Nat) :
    ∃ ds, (Nat.toDigits b n).mapM f = some ds ∧ ds.foldl (fun n d => n * b + d) 0 = n := by
  induction n using Nat.strongRecOn with
  | ind n ih =>
    rw [Nat.toDigits_eq_if hb]
    split
    · rename_i hn
      exact ⟨[n], by simp [hf n hn], by simp⟩
    · rename_i hn
      obtain ⟨ds, hm, hv⟩ := ih (n / b) (Nat.div_lt_self (by omega) hb)
      refine ⟨ds ++ [n % b], ?_, ?_⟩
      · simp [hm, hf (n % b) (Nat.mod_lt n (by omega))]
      · rw [List.foldl_append, hv]
        exact Nat.div_add_mod' n b

/-- Zeros in front of the digits change nothing. -/
theorem mapM_zeros_toDigits {f : Char → Option Nat} {b : Nat} (hb : 1 < b)
    (hf : ∀ d < b, f (Nat.digitChar d) = some d) (k n : Nat) :
    ((List.replicate k '0' ++ Nat.toDigits b n).mapM f).map
      (fun ds => ds.foldl (fun n d => n * b + d) 0) = some n := by
  have hread : ∃ ds, (List.replicate k '0' ++ Nat.toDigits b n).mapM f = some ds ∧
      ds.foldl (fun n d => n * b + d) 0 = n := by
    induction k with
    | zero => exact mapM_toDigits hb hf n
    | succ k ih =>
      obtain ⟨ds, hm, hv⟩ := ih
      have hzero : f '0' = some 0 := hf 0 (by omega)
      exact ⟨0 :: ds, by simp [List.replicate_succ, hzero, hm], by simpa using hv⟩
  obtain ⟨ds, hm, hv⟩ := hread
  rw [hm, Option.map_some, hv]

structure Spells (cs : List Char) (n : Nat) : Prop where
  digits : ∀ c ∈ cs, c.isDigit
  value : natural? 10 cs = some n

theorem spells_zeros_toDigits (k n : Nat) :
    Spells (List.replicate k '0' ++ Nat.toDigits 10 n) n := by
  refine ⟨fun c hc => ?_, ?_⟩
  · rcases List.mem_append.mp hc with hz | hd
    · rw [List.eq_of_mem_replicate hz]
      rfl
    · exact Nat.isDigit_of_mem_toDigits (by decide) (by decide) hd
  · have hne : (List.replicate k '0' ++ Nat.toDigits 10 n).isEmpty = false := by
      simp [Nat.toDigits_ne_nil]
    rw [natural?, hne, if_neg Bool.false_ne_true]
    exact mapM_zeros_toDigits (by decide) (fun d hd => digitValue?_digitChar (by decide) hd) k n

/-- Digits do not begin with a blank. -/
theorem Spells.trimFront_append {cs : List Char} {n : Nat} (h : Spells cs n) (rest : List Char) :
    trimFront (cs ++ rest) = cs ++ rest := by
  cases cs with
  | nil => cases h.value
  | cons c cs =>
    rw [trimFront, List.cons_append, List.dropWhile_cons,
      isBlank_of_isDigit (h.digits c List.mem_cons_self)]
    rfl

end Text

namespace Id

theorem length_hexText {width n : Nat} (hw : 0 < width) (h : n < Nat.pow 16 width) :
    (hexText width n).length = width := by
  have hl : (Nat.toDigits 16 n).length ≤ width :=
    (Nat.length_toDigits_le_iff (by decide) hw).mpr h
  simp only [hexText, List.length_append, List.length_replicate]
  omega

theorem ofDigits?_hexText (id : Id) : ofDigits? (hexText 32 id.bits.toNat) = some id := by
  have hl : (hexText 32 id.bits.toNat).length = 32 :=
    length_hexText (by decide) (Nat.lt_of_lt_of_le id.bits.isLt (by decide))
  have hv := Text.mapM_zeros_toDigits (f := Text.hexValue?) (b := 16) (by decide)
    (fun d hd => Text.hexValue?_digitChar hd) (32 - (Nat.toDigits 16 id.bits.toNat).length)
    id.bits.toNat
  obtain ⟨ds, hm, hv⟩ := Option.map_eq_some_iff.mp hv
  rw [ofDigits?, if_pos hl, hexText, hm, Option.map_some, hv, BitVec.ofNat_toNat,
    BitVec.setWidth_eq]

theorem dehyphenate?_groups {a b c d e : List Char} (ha : a.length = 8) (hb : b.length = 4)
    (hc : c.length = 4) (hd : d.length = 4) (he : e.length = 12) :
    dehyphenate? (a ++ '-' :: b ++ '-' :: c ++ '-' :: d ++ '-' :: e) =
      some (a ++ b ++ c ++ d ++ e) := by
  simp [dehyphenate?, List.drop_append, List.drop_of_length_le, ha, hb, hc, hd, he]

theorem dehyphenate?_hyphenate {ds : List Char} (h : ds.length = 32) :
    dehyphenate? (hyphenate ds) = some ds := by
  have hjoin (n : Nat) : (ds.drop n).take 4 ++ ds.drop (n + 4) = ds.drop n := by
    rw [← List.drop_drop, List.take_append_drop]
  rw [hyphenate, dehyphenate?_groups (by simp [h]) (by simp [h]) (by simp [h]) (by simp [h])
    (by simp [h]), List.append_assoc, List.append_assoc, List.append_assoc, hjoin 16, hjoin 12,
    hjoin 8, List.take_append_drop]

/-- The written form of an id is read as that id. -/
theorem ofText?_toText (id : Id) : ofText? id.toText = some id := by
  have hl : (hexText 32 id.bits.toNat).length = 32 :=
    length_hexText (by decide) (Nat.lt_of_lt_of_le id.bits.isLt (by decide))
  have hc : (hyphenate (hexText 32 id.bits.toNat)).length = 36 := by simp [hyphenate, hl]
  rw [ofText?, toText, String.toList_ofList]
  simp [hc, dehyphenate?_hyphenate hl, ofDigits?_hexText]

end Id
end JobLaunch
