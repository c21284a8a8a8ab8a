import JobLaunch.Decimal.Double
/-!
The doubles nearest to integers. Rounding keeps the order of integers and tells those below 2^53
apart. Two 64-bit integers share a double only when both are 2^53 or larger and they are close to
each other.
-/
namespace JobLaunch.Decimal

section
variable {m n k d : Nat}

/-- The rounded quotient is at most half a divisor away. -/
theorem divNearest_error (hd : 0 < d) :
    2 * n ≤ 2 * (divNearest n d * d) + d ∧ 2 * (divNearest n d * d) ≤ 2 * n + d := by
  have hn : n / d * d + n % d = n := Nat.div_add_mod' n d
  have hr : n % d < d := Nat.mod_lt n hd
  have hs : (n / d + 1) * d = n / d * d + d := Nat.succ_mul ..
  simp only [divNearest]
  split
  · omega
  · split
    · omega
    · split <;> omega

theorem div_le_divNearest : n / d ≤ divNearest n d := by
  simp only [divNearest]
  grind

theorem divNearest_le_div_succ : divNearest n d ≤ n / d + 1 := by
  simp only [divNearest]
  grind

theorem le_divNearest (hd : 0 < d) (h : k * d ≤ n) : k ≤ divNearest n d :=
  Nat.le_trans ((Nat.le_div_iff_mul_le hd).mpr h) div_le_divNearest

theorem divNearest_mul (hd : 0 < d) : divNearest (k * d) d = k := by
  simp [divNearest, Nat.mul_mod_left, Nat.mul_div_cancel _ hd, hd]

theorem divNearest_one : divNearest n 1 = n := by
  simpa using divNearest_mul (k := n) Nat.one_pos

theorem divNearest_mono (h : m ≤ n) : divNearest m d ≤ divNearest n d := by
  rcases Nat.lt_or_eq_of_le (Nat.div_le_div_right (c := d) h) with hlt | heq
  · exact Nat.le_trans divNearest_le_div_succ (Nat.le_trans hlt div_le_divNearest)
  · have hr : m % d ≤ n % d := by
      have hm := Nat.div_add_mod' m d
      have hn := Nat.div_add_mod' n d
      rw [heq] at hm
      omega
    simp only [divNearest, heq]
    grind

theorem divNearest_le (hd : 0 < d) (h : n ≤ k * d) : divNearest n d ≤ k :=
  Nat.le_trans (divNearest_mono h) (Nat.le_of_eq (divNearest_mul hd))

end

namespace Double

/-- What the 53 bits of the double nearest to a number hold: the number itself up to a power of two,
rounded where it has more bits. It is 2^53 where rounding reaches the next power of two. -/
def significand (n : Nat) : Nat :=
  divNearest (n * Nat.pow 2 (52 - n.log2)) (Nat.pow 2 (n.log2 - 52))

section
variable {m n : Nat}

theorem placeNearest_one (h : n ≠ 0) :
    placeNearest n 1 = (n.log2 + 1022) * fractionCount + significand n := by
  have hguess : (n.log2 : Int) - (Nat.log2 1 : Nat) = n.log2 := by
    have hlog : Nat.log2 1 = 0 := by decide
    omega
  have htop : Nat.pow 2 (n.log2 : Int).toNat ≤ n * Nat.pow 2 (-(n.log2 : Int)).toNat := by
    have hneg : (-(n.log2 : Int)).toNat = 0 := by omega
    rw [hneg, Int.toNat_natCast]
    exact Nat.le_trans (Nat.log2_self_le h) (Nat.le_of_eq (Nat.mul_one n).symm)
  have hexponent : max ((n.log2 : Int) - 52) (-1074) = (n.log2 : Int) - 52 := by omega
  have hplace : ((n.log2 : Int) - 52 + 1074).toNat = n.log2 + 1022 := by omega
  have hup : (-((n.log2 : Int) - 52)).toNat = 52 - n.log2 := by omega
  have hdown : ((n.log2 : Int) - 52).toNat = n.log2 - 52 := by omega
  simp only [placeNearest, if_neg h, hguess, Nat.one_mul, if_pos htop, hexponent, hplace, hup,
    hdown, significand]

theorem lt_pow_log2 : n < 2 * Nat.pow 2 n.log2 := by
  rw [Nat.mul_comm]
  exact Nat.lt_log2_self

theorem pow_scale (k : Nat) :
    fractionCount * Nat.pow 2 (k - 52) = Nat.pow 2 k * Nat.pow 2 (52 - k) := by
  have hsum : 52 + (k - 52) = k + (52 - k) := by omega
  calc fractionCount * Nat.pow 2 (k - 52)
    _ = Nat.pow 2 (52 + (k - 52)) := (Nat.pow_add 2 52 (k - 52)).symm
    _ = Nat.pow 2 (k + (52 - k)) := by rw [hsum]
    _ = Nat.pow 2 k * Nat.pow 2 (52 - k) := Nat.pow_add 2 k (52 - k)

theorem fractionCount_le_significand (h : n ≠ 0) : fractionCount ≤ significand n := by
  refine le_divNearest (Nat.two_pow_pos _) ?_
  rw [pow_scale]
  exact Nat.mul_le_mul_right _ (Nat.log2_self_le h)

theorem significand_le : significand n ≤ 2 * fractionCount := by
  refine divNearest_le (Nat.two_pow_pos _) ?_
  rw [Nat.mul_assoc, pow_scale, ← Nat.mul_assoc]
  exact Nat.mul_le_mul_right _ (Nat.le_of_lt lt_pow_log2)

/-- Numbers of at most 53 bits are not rounded. -/
theorem significand_of_log2_le (h : n.log2 ≤ 52) :
    significand n = n * Nat.pow 2 (52 - n.log2) := by
  rw [significand, Nat.sub_eq_zero_of_le h]
  exact divNearest_one

theorem significand_lt (h : n.log2 ≤ 52) : significand n < 2 * fractionCount := by
  have hcount : fractionCount = Nat.pow 2 n.log2 * Nat.pow 2 (52 - n.log2) := by
    rw [← pow_scale, Nat.sub_eq_zero_of_le h]
    exact (Nat.mul_one _).symm
  rw [significand_of_log2_le h, hcount, ← Nat.mul_assoc]
  exact Nat.mul_lt_mul_of_pos_right lt_pow_log2 (Nat.two_pow_pos _)

theorem significand_mono (hl : m.log2 = n.log2) (h : m ≤ n) : significand m ≤ significand n := by
  rw [significand, significand, hl]
  exact divNearest_mono (Nat.mul_le_mul_right _ h)

/-- Numbers of the same length that are not rounded have their order in their significands. -/
theorem significand_strictMono (hl : m.log2 = n.log2) (hn : n.log2 ≤ 52) (h : m < n) :
    significand m < significand n := by
  rw [significand_of_log2_le (hl ▸ hn), significand_of_log2_le hn, hl]
  exact Nat.mul_lt_mul_of_pos_right h (Nat.two_pow_pos _)

/-- A number of 53 bits or more is at most half a unit of the last bit away from what it is rounded
to. -/
theorem significand_error (h : 52 ≤ n.log2) :
    2 * n ≤ 2 * (significand n * Nat.pow 2 (n.log2 - 52)) + Nat.pow 2 (n.log2 - 52) ∧
      2 * (significand n * Nat.pow 2 (n.log2 - 52)) ≤ 2 * n + Nat.pow 2 (n.log2 - 52) := by
  have hscale : n * Nat.pow 2 (52 - n.log2) = n := by
    rw [Nat.sub_eq_zero_of_le h]
    exact Nat.mul_one n
  rw [significand, hscale]
  exact divNearest_error (Nat.two_pow_pos _)

theorem placeNearest_pos (h : n ≠ 0) : 0 < placeNearest n 1 := by
  rw [placeNearest_one h, fractionCount]
  omega

theorem placeNearest_lt_placeCount (h : n < 0x10000000000000000) :
    placeNearest n 1 < placeCount := by
  by_cases hn : n = 0
  · subst hn
    decide
  · have hlog : n.log2 < 64 := (Nat.log2_lt hn).mpr h
    have hle : significand n ≤ 2 * fractionCount := significand_le
    rw [placeNearest_one hn, placeCount]
    simp only [fractionCount] at hle ⊢
    omega

theorem log2_mono (h : m ≤ n) : m.log2 ≤ n.log2 := by
  by_cases hm : m = 0
  · subst hm
    exact Nat.zero_le _
  · have hn : n ≠ 0 := by omega
    exact (Nat.le_log2 hn).mpr (Nat.le_trans (Nat.log2_self_le hm) h)

theorem placeNearest_mono (h : m ≤ n) : placeNearest m 1 ≤ placeNearest n 1 := by
  by_cases hm : m = 0
  · subst hm
    exact Nat.zero_le _
  have hn : n ≠ 0 := by omega
  rw [placeNearest_one hm, placeNearest_one hn]
  rcases Nat.lt_or_eq_of_le (log2_mono h) with hlt | heq
  · -- the greatest significand of a length is the least of the next
    have hle : significand m ≤ 2 * fractionCount := significand_le
    have hge : fractionCount ≤ significand n := fractionCount_le_significand hn
    simp only [fractionCount] at hle hge ⊢
    omega
  · rw [heq]
    exact Nat.add_le_add_left (significand_mono heq h) _

/-- Numbers below 2^53 have places of their own. -/
theorem placeNearest_lt (h : m < n) (hm : m < 0x20000000000000) :
    placeNearest m 1 < placeNearest n 1 := by
  have hn : n ≠ 0 := by omega
  by_cases hz : m = 0
  · subst hz
    exact placeNearest_pos hn
  have hlog : m.log2 ≤ 52 := Nat.le_of_lt_succ ((Nat.log2_lt hz).mpr hm)
  rw [placeNearest_one hz, placeNearest_one hn]
  rcases Nat.lt_or_eq_of_le (log2_mono (Nat.le_of_lt h)) with hlt | heq
  · have hle : significand m < 2 * fractionCount := significand_lt hlog
    have hge : fractionCount ≤ significand n := fractionCount_le_significand hn
    simp only [fractionCount] at hle hge ⊢
    omega
  · rw [heq]
    exact Nat.add_lt_add_left (significand_strictMono heq (heq ▸ hlog) h) _

/-- Numbers of different lengths share only the place of a power of two, which the smaller one is
rounded up to. -/
theorem significands_of_placeNearest_eq (hm : m ≠ 0) (hn : n ≠ 0) (hl : m.log2 < n.log2)
    (he : placeNearest m 1 = placeNearest n 1) :
    n.log2 = m.log2 + 1 ∧ significand m = 2 * fractionCount ∧ significand n = fractionCount := by
  have hle : significand m ≤ 2 * fractionCount := significand_le
  have hge : fractionCount ≤ significand n := fractionCount_le_significand hn
  rw [placeNearest_one hm, placeNearest_one hn] at he
  simp only [fractionCount] at he hle hge ⊢
  omega

/-- Numbers that share a place are rounded, and at most 1536 apart if the smaller one is below
2^63. -/
theorem close_of_placeNearest_eq (h : m < n) (hm : m < 0x8000000000000000)
    (he : placeNearest m 1 = placeNearest n 1) : 0x20000000000000 ≤ m ∧ n ≤ m + 1536 := by
  have hbig : 0x20000000000000 ≤ m := by
    refine Nat.le_of_not_lt fun hlt => ?_
    have hplace := placeNearest_lt h hlt
    omega
  have hz : m ≠ 0 := by omega
  have hn : n ≠ 0 := by omega
  have hlow : 52 ≤ m.log2 := (Nat.le_log2 hz).mpr (by omega)
  have hhigh : m.log2 < 63 := (Nat.log2_lt hz).mpr hm
  have hunit : Nat.pow 2 (m.log2 - 52) ≤ 1024 := by
    have hpow : Nat.pow 2 (m.log2 - 52) ≤ Nat.pow 2 10 :=
      Nat.pow_le_pow_right (by decide) (by omega)
    exact hpow
  have hme := (significand_error hlow).2
  rcases Nat.lt_or_eq_of_le (log2_mono (Nat.le_of_lt h)) with hlt | heq
  · obtain ⟨hnext, hm2, hn1⟩ := significands_of_placeNearest_eq hz hn hlt he
    have hne := (significand_error (n := n) (by omega)).1
    have hdouble : Nat.pow 2 (m.log2 + 1 - 52) = 2 * Nat.pow 2 (m.log2 - 52) := by
      rw [Nat.succ_sub hlow, Nat.mul_comm]
      rfl
    rw [hn1, hnext, hdouble, fractionCount] at hne
    rw [hm2, fractionCount] at hme
    omega
  · have hne := (significand_error (n := n) (by omega)).1
    rw [placeNearest_one hz, placeNearest_one hn, heq] at he
    rw [Nat.add_left_cancel he, heq] at hme
    rw [heq] at hunit
    omega

end

section
variable {a b : Int}

theorem rank_ofInt (h : a.natAbs < 0x10000000000000000) :
    (ofInt a).rank =
      if a < 0 then -(placeNearest a.natAbs 1 : Int) else placeNearest a.natAbs 1 := by
  simp [ofInt, ofRatio?, placeNearest_lt_placeCount h, rank]

theorem rank_ofInt_mono (ha : a.natAbs < 0x10000000000000000)
    (hb : b.natAbs < 0x10000000000000000) (h : a ≤ b) : (ofInt a).rank ≤ (ofInt b).rank := by
  rw [rank_ofInt ha, rank_ofInt hb]
  split
  · split
    · have hle := placeNearest_mono (m := b.natAbs) (n := a.natAbs) (by omega)
      omega
    · omega
  · rw [if_neg (by omega)]
    exact Int.ofNat_le.mpr (placeNearest_mono (by omega))

theorem same_comm (x y : Double) : x.same y = y.same x := BEq.comm

/-- As doubles, an integer is below another one exactly when it is so and their doubles differ. -/
theorem less_ofInt_eq_false (ha : a.natAbs < 0x10000000000000000)
    (hb : b.natAbs < 0x10000000000000000) :
    (ofInt a).less (ofInt b) = false ↔ b ≤ a ∨ (ofInt a).same (ofInt b) := by
  simp only [less, same, decide_eq_false_iff_not, Int.not_lt, beq_iff_eq]
  constructor
  · intro h
    rcases Int.lt_or_le a b with hlt | hle
    · exact .inr (Int.le_antisymm (rank_ofInt_mono ha hb (Int.le_of_lt hlt)) h)
    · exact .inl hle
  · rintro (hle | heq)
    · exact rank_ofInt_mono hb ha hle
    · exact Int.le_of_eq heq.symm

/-- Integers whose doubles are equal have the same sign, and magnitudes of one place. -/
theorem placeNearest_eq_of_same (ha : a.natAbs < 0x10000000000000000)
    (hb : b.natAbs < 0x10000000000000000) (h : (ofInt a).same (ofInt b)) :
    placeNearest a.natAbs 1 = placeNearest b.natAbs 1 ∧ (a < 0 ↔ b < 0) := by
  have hrank : (ofInt a).rank = (ofInt b).rank := by simpa [same] using h
  rw [rank_ofInt ha, rank_ofInt hb] at hrank
  by_cases hna : a < 0
  · have hpos : 0 < placeNearest a.natAbs 1 := placeNearest_pos (by omega)
    rw [if_pos hna] at hrank
    split at hrank <;> omega
  · rw [if_neg hna] at hrank
    split at hrank
    · have hpos : 0 < placeNearest b.natAbs 1 := placeNearest_pos (by omega)
      omega
    · omega

/-- Of two 64-bit integers with one double, both are rounded, and they are at most 1536 apart. The
first one may be unsigned. -/
theorem close_of_same (ha : -0x8000000000000000 ≤ a ∧ a < 0x10000000000000000)
    (hb : -0x8000000000000000 ≤ b ∧ b < 0x8000000000000000) (hne : a ≠ b)
    (h : (ofInt a).same (ofInt b)) :
    0x20000000000000 ≤ a.natAbs ∧ 0x20000000000000 ≤ b.natAbs ∧ (a - b).natAbs ≤ 1536 := by
  obtain ⟨hplace, hsign⟩ := placeNearest_eq_of_same (by omega) (by omega) h
  rcases Nat.lt_or_gt_of_ne (fun he : a.natAbs = b.natAbs => hne (by omega)) with hlt | hgt
  · have hclose := close_of_placeNearest_eq hlt (by omega) hplace
    omega
  · have hclose := close_of_placeNearest_eq hgt (by omega) hplace.symm
    omega

end
end Double
end JobLaunch.Decimal
