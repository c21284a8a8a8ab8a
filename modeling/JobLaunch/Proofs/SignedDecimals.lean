import JobLaunch.Proofs.ReadBack
import JobLaunch.Proofs.TrimmedTexts
import JobLaunch.Text.Digit
/-!
Signed decimals. A number is read from exactly the texts that say it: decimal digits, any number of
zeros among them, with at most one sign in front. Such a text has no blanks at its ends.
-/
namespace JobLaunch.Text

structure DecimalDigits (cs : List Char) (n : Nat) : Prop where
  ne_nil : cs ≠ []
  digits : ∀ c ∈ cs, c.isDigit
  value : Nat.ofDigitChars 10 cs 0 = n

/-- Whether characters are decimal digits that say a number, with at most one sign in front. -/
inductive SignedDecimal : List Char → Int → Prop where
  | unsigned {cs : List Char} {n : Nat} (h : DecimalDigits cs n) : SignedDecimal cs n
  | plus {cs : List Char} {n : Nat} (h : DecimalDigits cs n) : SignedDecimal ('+' :: cs) n
  | minus {cs : List Char} {n : Nat} (h : DecimalDigits cs n) : SignedDecimal ('-' :: cs) (-n)

theorem digitValue?_of_isDigit {c : Char} (h : c.isDigit) :
    digitValue? 10 c = some (c.toNat - '0'.toNat) := by
  have hc : c.toNat - '0'.toNat < 10 := by
    have hle : c.toNat ≤ 57 := (Char.isDigit_iff_toNat.mp h).2
    have hzero : '0'.toNat = 48 := rfl
    omega
  rw [digitValue?, hexValue?, if_pos h, Option.filter_some, if_pos (decide_eq_true hc)]

/-- Letters stand for values beyond the base. -/
theorem isDigit_of_digitValue? {c : Char} {n : Nat} (h : digitValue? 10 c = some n) :
    c.isDigit := by
  refine Decidable.byContradiction fun hc => ?_
  have hletter : hexValue? c = none ∨ ∃ m, hexValue? c = some (m + 10) := by
    rw [hexValue?, if_neg hc]
    split
    · exact .inr ⟨_, rfl⟩
    · split
      · exact .inr ⟨_, rfl⟩
      · exact .inl rfl
  rcases hletter with hn | ⟨m, hm⟩
  · simp [digitValue?, hn] at h
  · simp [digitValue?, hm] at h
    omega

theorem isDigit_of_mapM {cs : List Char} {ds : List Nat}
    (h : cs.mapM (digitValue? 10) = some ds) : ∀ c ∈ cs, c.isDigit := by
  induction cs generalizing ds with
  | nil => exact nofun
  | cons c cs ih =>
    rw [List.mapM_cons] at h
    obtain ⟨d, hd, h⟩ := Option.bind_eq_some_iff.mp h
    obtain ⟨rest, hrest, -⟩ := Option.bind_eq_some_iff.mp h
    exact List.forall_mem_cons.mpr ⟨isDigit_of_digitValue? hd, ih hrest⟩

theorem mapM_digitValue? {cs : List Char} (h : ∀ c ∈ cs, c.isDigit) :
    cs.mapM (digitValue? 10) = some (cs.map fun c => c.toNat - '0'.toNat) := by
  have hread := mapM_map_of_forall (g := id) fun c hc => digitValue?_of_isDigit (h c hc)
  rwa [List.map_id] at hread

theorem foldl_digitValue (cs : List Char) (k : Nat) :
    (cs.map fun c => c.toNat - '0'.toNat).foldl (fun n d => n * 10 + d) k =
      Nat.ofDigitChars 10 cs k := by
  rw [Nat.ofDigitChars_eq_foldl, List.foldl_map]
  simp only [Nat.mul_comm]

/-- A number is read from the digits that say it. -/
theorem natural?_eq_some_iff {cs : List Char} {n : Nat} :
    natural? 10 cs = some n ↔ DecimalDigits cs n := by
  rw [natural?]
  constructor
  · intro h
    split at h
    · cases h
    · rename_i hne
      obtain ⟨ds, hds, hn⟩ := Option.map_eq_some_iff.mp h
      have hdigits := isDigit_of_mapM hds
      rw [mapM_digitValue? hdigits, Option.some.injEq] at hds
      refine ⟨fun hnil => hne (hnil ▸ rfl), hdigits, ?_⟩
      rw [← foldl_digitValue, hds, hn]
  · rintro ⟨hne, hdigits, hvalue⟩
    rw [if_neg (by simpa using hne), mapM_digitValue? hdigits, Option.map_some, foldl_digitValue,
      hvalue]

theorem decimalDigits_toString (n : Nat) : DecimalDigits (toString n).toList n := by
  rw [Nat.toString_eq_repr, Nat.toList_repr]
  exact {
    ne_nil := Nat.toDigits_ne_nil
    digits := fun _ => Nat.isDigit_of_mem_toDigits (by decide) (by decide)
    value := Nat.ofDigitChars_toDigits (by decide) (by decide) }

section
variable {cs : List Char} {i : Int}

/-- A sign is not a digit. -/
theorem DecimalDigits.ne_sign {c : Char} {n : Nat} (h : DecimalDigits (c :: cs) n) :
    c ≠ '+' ∧ c ≠ '-' := by
  have hc := h.digits c List.mem_cons_self
  constructor <;> rintro rfl <;> cases hc

theorem signedDecimal_plus_iff :
    SignedDecimal ('+' :: cs) i ↔ ∃ n : Nat, DecimalDigits cs n ∧ (n : Int) = i := by
  constructor
  · intro h
    cases h with
    | unsigned h => exact absurd rfl h.ne_sign.1
    | plus h => exact ⟨_, h, rfl⟩
  · rintro ⟨n, h, rfl⟩
    exact .plus h

theorem signedDecimal_minus_iff :
    SignedDecimal ('-' :: cs) i ↔ ∃ n : Nat, DecimalDigits cs n ∧ -(n : Int) = i := by
  constructor
  · intro h
    cases h with
    | unsigned h => exact absurd rfl h.ne_sign.2
    | minus h => exact ⟨_, h, rfl⟩
  · rintro ⟨n, h, rfl⟩
    exact .minus h

theorem signedDecimal_unsigned_iff (hplus : ∀ ds, cs ≠ '+' :: ds) (hminus : ∀ ds, cs ≠ '-' :: ds) :
    SignedDecimal cs i ↔ ∃ n : Nat, DecimalDigits cs n ∧ (n : Int) = i := by
  constructor
  · intro h
    cases h with
    | unsigned h => exact ⟨_, h, rfl⟩
    | plus h => exact absurd rfl (hplus _)
    | minus h => exact absurd rfl (hminus _)
  · rintro ⟨n, h, rfl⟩
    exact .unsigned h

/-- A text says one number. -/
theorem SignedDecimal.unique {j : Int} (h : SignedDecimal cs i) (h' : SignedDecimal cs j) :
    i = j := by
  cases h with
  | unsigned h =>
    cases h' with
    | unsigned h' => rw [← h.value, ← h'.value]
    | plus => exact absurd rfl h.ne_sign.1
    | minus => exact absurd rfl h.ne_sign.2
  | plus h =>
    obtain ⟨m, hm, rfl⟩ := signedDecimal_plus_iff.mp h'
    rw [← h.value, ← hm.value]
  | minus h =>
    obtain ⟨m, hm, rfl⟩ := signedDecimal_minus_iff.mp h'
    rw [← h.value, ← hm.value]

theorem DecimalDigits.blankFreeEnds {n : Nat} (h : DecimalDigits cs n) : BlankFreeEnds cs where
  head c hc := isBlank_of_isDigit (h.digits c (List.mem_of_head? hc))
  last c hc := isBlank_of_isDigit (h.digits c (List.mem_of_getLast? hc))

theorem DecimalDigits.blankFreeEnds_cons {n : Nat} (h : DecimalDigits cs n) {sign : Char}
    (hsign : isBlank sign = false) : BlankFreeEnds (sign :: cs) where
  head c hc := by
    cases hc
    exact hsign
  last c hc := by
    rw [List.getLast?_cons_of_ne_nil h.ne_nil] at hc
    exact h.blankFreeEnds.last c hc

theorem SignedDecimal.blankFreeEnds (h : SignedDecimal cs i) : BlankFreeEnds cs := by
  cases h with
  | unsigned h => exact h.blankFreeEnds
  | plus h => exact h.blankFreeEnds_cons rfl
  | minus h => exact h.blankFreeEnds_cons rfl

/-- A text says a number when it is trimmed if and only if it is a padding of a text that does. -/
theorem signedDecimal_trim_iff :
    SignedDecimal (trim cs) i ↔ ∃ body, Pads cs body ∧ SignedDecimal body i := by
  constructor
  · exact fun h => ⟨trim cs, pads_trim cs, h⟩
  · rintro ⟨body, hpads, hbody⟩
    rwa [trim_of_pads hpads hbody.blankFreeEnds]

end

/-- A number is read from the signed decimals that say it, if it has at most 64 bits. -/
theorem signed64?_eq_some_iff {s : String} {i : Int} :
    signed64? s = some i ↔
      SignedDecimal s.toList i ∧ -0x8000000000000000 ≤ i ∧ i < 0x8000000000000000 := by
  rw [signed64?, Option.filter_eq_some_iff, decide_eq_true_iff]
  refine and_congr ?_ (and_congr_right fun _ => Int.lt_add_one_iff.symm)
  split
  · rename_i cs heq
    rw [heq, signedDecimal_plus_iff, Option.map_eq_some_iff]
    exact exists_congr fun n => and_congr_left fun _ => natural?_eq_some_iff
  · rename_i cs heq
    rw [heq, signedDecimal_minus_iff, Option.map_eq_some_iff]
    -- the number is made an integer before it is negated
    constructor
    · rintro ⟨a, ha, rfl⟩
      obtain ⟨n, hn, hcast⟩ := Option.bind_eq_some_iff.mp ha
      cases hcast
      exact ⟨n, natural?_eq_some_iff.mp hn, rfl⟩
    · rintro ⟨n, hn, rfl⟩
      refine ⟨n, ?_, rfl⟩
      rw [natural?_eq_some_iff.mpr hn]
      rfl
  · rename_i hplus hminus
    rw [signedDecimal_unsigned_iff hplus hminus, Option.map_eq_some_iff]
    exact exists_congr fun n => and_congr_left fun _ => natural?_eq_some_iff

end JobLaunch.Text
