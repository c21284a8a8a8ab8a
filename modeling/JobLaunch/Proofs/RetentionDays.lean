import Mathlib.Algebra.Order.Field.Rat
import Mathlib.Algebra.Order.Ring.Cast
import Mathlib.Algebra.GroupWithZero.Basic
import JobLaunch.Proofs.MergedVariables
import JobLaunch.Proofs.SignedDecimals
/-!
Retention days against the number that is written. A value is read as the days it says, but for two
ranges: a text of 2^63 or more is not read, although the number itself would be, and a float beyond
64 bits is read as the greatest number within.
-/
namespace JobLaunch

namespace Decimal.Double
variable {d : Double} {n : Nat}

def value (d : Double) : Rat := (if d.negative then -1 else 1) * d.mantissa * 2 ^ d.scale

theorem two_zpow_eq (z : Int) :
    (2 : Rat) ^ z = (Nat.pow 2 z.toNat : Nat) / (Nat.pow 2 (-z).toNat : Nat) := by
  have hz : z = (z.toNat : Int) - ((-z).toNat : Int) := by omega
  conv => lhs; rw [hz]
  rw [zpow_sub₀ (by decide), zpow_natCast, zpow_natCast, Nat.pow_eq, Nat.pow_eq, Nat.cast_pow,
    Nat.cast_pow]
  rfl

theorem denominator_pos (d : Double) : 0 < d.denominator := Nat.two_pow_pos _

/-- Numerator and denominator are those of the magnitude. -/
theorem magnitude_eq (d : Double) :
    d.mantissa * (2 : Rat) ^ d.scale = d.numerator / d.denominator := by
  rw [two_zpow_eq, numerator, denominator, Nat.cast_mul, mul_div_assoc]

theorem mantissa_eq_zero_iff : d.mantissa = 0 ↔ d.place.val = 0 := by
  rw [mantissa]
  split
  · exact Iff.rfl
  · rw [fractionCount] at *
    omega

theorem rank_neg_iff : d.rank < 0 ↔ d.negative ∧ d.mantissa ≠ 0 := by
  rw [rank, Ne, mantissa_eq_zero_iff]
  cases d.negative <;> simp
  omega

theorem value_neg (h : d.rank < 0) : d.value < 0 := by
  obtain ⟨hneg, hm⟩ := rank_neg_iff.mp h
  have hmantissa : (0 : Rat) < d.mantissa := Nat.cast_pos.mpr (Nat.pos_of_ne_zero hm)
  have hscale : (0 : Rat) < 2 ^ d.scale := zpow_pos (by decide) d.scale
  rw [value, if_pos hneg, neg_one_mul, neg_mul]
  exact neg_neg_of_pos (mul_pos hmantissa hscale)

/-- Negative zero is a double without a negative rank. -/
theorem value_of_not_neg (h : ¬ d.rank < 0) : d.value = d.numerator / d.denominator := by
  rw [← magnitude_eq, value, mul_assoc]
  split
  · rename_i hneg
    have hm : d.mantissa = 0 := Decidable.byContradiction fun hm => h (rank_neg_iff.mpr ⟨hneg, hm⟩)
    rw [hm, Nat.cast_zero, zero_mul, mul_zero]
  · exact one_mul _

/-- The natural number that is read from a double is the number that it is. -/
theorem natural?_eq_some_iff : d.natural? = some n ↔ d.value = n := by
  rw [natural?]
  split
  · rename_i h
    have hlt : d.value < n := (value_neg h).trans_le n.cast_nonneg
    exact iff_of_false nofun hlt.ne
  · rename_i h
    have hden : (d.denominator : Rat) ≠ 0 := Nat.cast_ne_zero.mpr d.denominator_pos.ne'
    rw [value_of_not_neg h, div_eq_iff hden, ← Nat.cast_mul, Nat.cast_inj]
    constructor
    · intro hn
      split at hn
      · rename_i hmod
        rw [← Option.some.inj hn, Nat.div_mul_cancel (Nat.dvd_of_mod_eq_zero hmod)]
      · cases hn
    · intro hn
      rw [hn, Nat.mul_mod_left, if_pos rfl, Nat.mul_div_cancel n d.denominator_pos]

end Decimal.Double

/-- Whether a tree is the number of days that it is read as: an integer, a double that is one within
64 bits, or a text that says one within 64 bits, with blanks around it. -/
inductive Json.Writes : Json → Nat → Prop where
  | int (n : Nat) : Writes (.int n) n
  | float {d : Decimal.Double} {n : Nat} (h : d.value = n) (hn : n < 0x10000000000000000) :
      Writes (.float d) n
  | string {s : String} {body : List Char} {n : Nat} (hpads : Text.Pads s.toList body)
      (hbody : Text.SignedDecimal body n) (hn : n < 0x10000000000000000) : Writes (.string s) n

/-- Whether a tree is a natural number that is too large for the way it is read: a double beyond 64
bits, or a text within 64 bits but beyond 63. -/
inductive Json.Exceeds : Json → Prop where
  | float {d : Decimal.Double} {n : Nat} (h : d.value = n) (hn : 0x10000000000000000 ≤ n) :
      Exceeds (.float d)
  | string {s : String} {body : List Char} {n : Nat} (hpads : Text.Pads s.toList body)
      (hbody : Text.SignedDecimal body n) (hn : 0x8000000000000000 ≤ n)
      (hlt : n < 0x10000000000000000) : Exceeds (.string s)

section
variable {v : Value} {d : Decimal.Double} {s : String} {n : Nat}

theorem Json.writes_float_iff :
    Writes (.float d) n ↔ d.value = n ∧ n < 0x10000000000000000 :=
  ⟨fun | .float h hn => ⟨h, hn⟩, fun h => .float h.1 h.2⟩

theorem Json.writes_string_iff :
    Writes (.string s) n ↔
      Text.SignedDecimal (Text.trim s.toList) n ∧ n < 0x10000000000000000 := by
  rw [Text.signedDecimal_trim_iff]
  constructor
  · rintro (_ | _ | ⟨hpads, hbody, hn⟩)
    exact ⟨⟨_, hpads, hbody⟩, hn⟩
  · rintro ⟨⟨_, hpads, hbody⟩, hn⟩
    exact .string hpads hbody hn

theorem Json.exceeds_float_iff :
    Exceeds (.float d) ↔ ∃ n : Nat, d.value = n ∧ 0x10000000000000000 ≤ n :=
  ⟨fun | .float h hn => ⟨_, h, hn⟩, fun ⟨_, h, hn⟩ => .float h hn⟩

theorem Json.exceeds_string_iff :
    Exceeds (.string s) ↔ ∃ n : Nat, Text.SignedDecimal (Text.trim s.toList) n ∧
      0x8000000000000000 ≤ n ∧ n < 0x10000000000000000 := by
  constructor
  · rintro (_ | ⟨hpads, hbody, hn, hlt⟩)
    exact ⟨_, Text.signedDecimal_trim_iff.mpr ⟨_, hpads, hbody⟩, hn, hlt⟩
  · rintro ⟨n, h, hn, hlt⟩
    obtain ⟨body, hpads, hbody⟩ := Text.signedDecimal_trim_iff.mp h
    exact .string hpads hbody hn hlt

theorem retentionDays?_int {i : Int} (hv : v.json = .int i) :
    retentionDays? v = some n ↔ i = n := by
  simp only [retentionDays?, hv]
  split
  · rw [Option.some.injEq]
    omega
  · refine iff_of_false nofun ?_
    omega

/-- Days beyond 64 bits are cut off. -/
theorem retentionDays?_float (hv : v.json = .float d) :
    retentionDays? v = some n ↔ ∃ m : Nat, d.value = m ∧ min m 0xFFFFFFFFFFFFFFFF = n := by
  simp only [retentionDays?, hv]
  rw [Option.map_eq_some_iff]
  exact exists_congr fun m => and_congr_left fun _ => Decimal.Double.natural?_eq_some_iff

/-- Texts beyond 63 bits are not read. -/
theorem retentionDays?_string (hv : v.json = .string s) :
    retentionDays? v = some n ↔
      Text.SignedDecimal (Text.trim s.toList) n ∧ n < 0x8000000000000000 := by
  simp only [retentionDays?, hv]
  rw [Option.bind_eq_some_iff, Text.trimmed]
  simp only [Text.signed64?_eq_some_iff, String.toList_ofList]
  constructor
  · rintro ⟨i, ⟨hbody, -, hlt⟩, hn⟩
    split at hn
    · rename_i hnonneg
      cases hn
      rw [Int.toNat_of_nonneg hnonneg]
      exact ⟨hbody, by omega⟩
    · cases hn
  · rintro ⟨hbody, hlt⟩
    exact ⟨n, ⟨hbody, by omega, by omega⟩, rfl⟩

/-- A value that is not too large is read as the days that it says. -/
theorem retentionDays?_eq_some_iff (h : ¬ v.json.Exceeds) :
    retentionDays? v = some n ↔ v.json.Writes n := by
  cases hv : v.json with
  | int i =>
    rw [retentionDays?_int hv]
    constructor
    · rintro rfl
      exact .int n
    · rintro ⟨⟩
      rfl
  | float d =>
    rw [hv, Json.exceeds_float_iff] at h
    rw [retentionDays?_float hv, Json.writes_float_iff]
    constructor
    · rintro ⟨m, hm, hmin⟩
      have hlt : m < 0x10000000000000000 := Nat.not_le.mp fun hle => h ⟨m, hm, hle⟩
      have hmn : m = n := by omega
      exact hmn ▸ ⟨hm, hlt⟩
    · rintro ⟨hn, hlt⟩
      exact ⟨n, hn, by omega⟩
  | string s =>
    rw [hv, Json.exceeds_string_iff] at h
    rw [retentionDays?_string hv, Json.writes_string_iff]
    refine and_congr_right fun hbody => ⟨fun hlt => by omega, fun hlt => ?_⟩
    exact Nat.not_le.mp fun hle => h ⟨n, hbody, hle, hlt⟩
  | null | bool | list | object =>
    simp only [retentionDays?, hv]
    exact iff_of_false nofun nofun

theorem retentionDays?_of_large (hv : v.json = .string s)
    (hbody : Text.SignedDecimal (Text.trim s.toList) n) (hn : 0x8000000000000000 ≤ n) :
    retentionDays? v = none := by
  refine Option.eq_none_iff_forall_ne_some.mpr fun m hm => ?_
  obtain ⟨hbody', hlt⟩ := (retentionDays?_string hv).mp hm
  have hsame := hbody.unique hbody'
  omega

theorem retentionDays?_of_exceeds_string (hv : v.json = .string s) (h : v.json.Exceeds) :
    retentionDays? v = none := by
  rw [hv, Json.exceeds_string_iff] at h
  obtain ⟨n, hbody, hn, -⟩ := h
  exact retentionDays?_of_large hv hbody hn

theorem retentionDays?_of_exceeds_float (hv : v.json = .float d) (h : v.json.Exceeds) :
    retentionDays? v = some 0xFFFFFFFFFFFFFFFF := by
  rw [hv, Json.exceeds_float_iff] at h
  obtain ⟨n, hd, hn⟩ := h
  exact (retentionDays?_float hv).mpr ⟨n, hd, by omega⟩

/-- A value that is too large is not read as the days that it says. -/
theorem not_forall_of_exceeds (h : v.json.Exceeds) :
    ¬ ∀ n, retentionDays? v = some n ↔ v.json.Writes n := by
  intro hall
  cases hv : v.json with
  | float d =>
    have hwrites := (hall _).mp (retentionDays?_of_exceeds_float hv h)
    rw [hv, Json.exceeds_float_iff] at h
    obtain ⟨n, hd, hn⟩ := h
    rw [hv, Json.writes_float_iff, hd, Nat.cast_inj] at hwrites
    omega
  | string s =>
    have hnone := retentionDays?_of_exceeds_string hv h
    rw [hv, Json.exceeds_string_iff] at h
    obtain ⟨n, hbody, -, hlt⟩ := h
    have hread := (hall n).mpr (hv ▸ Json.writes_string_iff.mpr ⟨hbody, hlt⟩)
    rw [hnone] at hread
    cases hread
  | null | bool | int | list | object =>
    rw [hv] at h
    cases h

/-- The digits of a number give it within 63 bits. -/
theorem retentionDays?_text_toString :
    retentionDays? (.text (toString n)) = if n < 0x8000000000000000 then some n else none := by
  have hv : (Value.text (toString n)).json = .string (toString n) := rfl
  have hdigits : Text.SignedDecimal (Text.trim (toString n).toList) n :=
    Text.signedDecimal_trim_iff.mpr
      ⟨_, Text.pads_self _, .unsigned (Text.decimalDigits_toString n)⟩
  split
  · rename_i hn
    exact (retentionDays?_string hv).mpr ⟨hdigits, hn⟩
  · rename_i hn
    exact retentionDays?_of_large hv hdigits (Nat.not_lt.mp hn)

end

namespace SystemJobTemplate
variable {t : SystemJobTemplate} {data : Vars} {v : Value}

theorem takesDays_iff : t.jobType.takesDays ↔
    t.jobType = .cleanupJobs ∨ t.jobType = .cleanupActivityStream := by
  cases t.jobType <;> decide

/-- Days are taken exactly when they are read as a number. -/
theorem takes_days (ht : t.jobType.takesDays) (hv : data["days"]? = some v) :
    t.takes data "days" = (retentionDays? v).isSome := by
  have hknown : systemVariables.contains "days" = true := rfl
  rw [takes, hknown, ht, hv, Option.any_some, beq_self_eq_true, Bool.true_and, Bool.true_and,
    Bool.and_true, ← Option.not_isSome, Bool.not_not]

theorem rejected_days (ht : t.jobType.takesDays) (hv : data["days"]? = some v) :
    (mergeSystemVariables t data).rejected["days"]? = some v ↔ retentionDays? v = none := by
  rw [getElem?_rejected_mergeSystemVariables, takes_days ht hv, hv]
  cases retentionDays? v <;> simp

theorem mem_errors_days (ht : t.jobType.takesDays) (hv : data["days"]? = some v) :
    ⟨.validation, "days must be a positive integer."⟩ ∈
      (mergeSystemVariables t data).errors.under "extra_vars" ↔ retentionDays? v = none := by
  have hother (unknown : Vars) :
      ⟨.validation, "days must be a positive integer."⟩ ∉
        (if unknown.isEmpty then [] else [unknownVariables unknown]) := by
    split
    · exact List.not_mem_nil
    · exact fun h => nomatch congrArg Violation.kind (List.mem_singleton.mp h)
  simp only [mergeSystemVariables, Errors.mem_under_add, Errors.under_empty, List.not_mem_nil,
    false_or, true_and, List.mem_append, hother, ht, hv, Option.any_some, Bool.true_and]
  cases retentionDays? v <;> simp

end SystemJobTemplate

/-- How a value is read as days, and what merges on templates that take days make of it. -/
structure Value.ReadsDays (v : Value) : Prop where
  as_written : (∀ n, retentionDays? v = some n ↔ v.json.Writes n) ↔ ¬ v.json.Exceeds
  text : ∀ s, v.json = .string s → v.json.Exceeds → retentionDays? v = none
  float : ∀ d, v.json = .float d → v.json.Exceeds → retentionDays? v = some 0xFFFFFFFFFFFFFFFF
  rejected : ∀ (t : SystemJobTemplate) (extraVars surveyAnswers : Vars)
    (excluded : ErrorCategories),
    t.jobType = .cleanupJobs ∨ t.jobType = .cleanupActivityStream →
    (extraVars.overlay surveyAnswers)["days"]? = some v →
    let m := mergeVariables (.system t) extraVars surveyAnswers excluded
    (m.rejected["days"]? = some v ↔ retentionDays? v = none) ∧
    (⟨.validation, "days must be a positive integer."⟩ ∈ m.errors.under "extra_vars" ↔
      retentionDays? v = none)

/-- Every value is read as the days that are written exactly when it is not too large: a text that
is, is not read, and a float that is, is cut off. The digits of a number give what the number
itself gives if it is below 2^63, and nothing otherwise. A merge refuses exactly the days that are
not read. -/
theorem retention_days_as_written (v : Value) (n : Nat) :
    v.ReadsDays ∧ retentionDays? (.ofJson (.int n)) = some n ∧
    retentionDays? (.text (toString n)) = if n < 0x8000000000000000 then some n else none := by
  refine ⟨?_, (retentionDays?_int rfl).mpr rfl, retentionDays?_text_toString⟩
  exact {
    as_written := ⟨fun hall h => not_forall_of_exceeds h hall,
      fun h n => retentionDays?_eq_some_iff h⟩
    text := fun s => retentionDays?_of_exceeds_string
    float := fun d => retentionDays?_of_exceeds_float
    rejected := fun t extraVars surveyAnswers excluded ht hv =>
      have htakes := SystemJobTemplate.takesDays_iff.mpr ht
      ⟨SystemJobTemplate.rejected_days htakes hv, SystemJobTemplate.mem_errors_days htakes hv⟩ }

def SystemJobTemplate.sampleCleanup : SystemJobTemplate where
  id := ⟨1⟩
  name := "cleanup"
  jobType := .cleanupJobs

/-- The text of 2^63 is refused although the number is read, and the float 2^64 is read as one
less. -/
theorem days_beyond_range_are_lost :
    (Value.text "9223372036854775808").json.Writes 9223372036854775808 ∧
    retentionDays? (.ofJson (.int 9223372036854775808)) = some 9223372036854775808 ∧
    retentionDays? (.text "9223372036854775808") = none ∧
    (mergeVariables (.system .sampleCleanup)
      (Table.ofEntries [("days", .text "9223372036854775808")]) ∅ default).rejected["days"]? =
        some (.text "9223372036854775808") ∧
    retentionDays? (.ofJson (.float (.ofInt 18446744073709551616))) =
      some 18446744073709551615 := by
  obtain ⟨hreads, hnumber, hdigits⟩ :=
    retention_days_as_written (.text "9223372036854775808") 9223372036854775808
  have htext : toString 9223372036854775808 = "9223372036854775808" := by decide
  rw [htext, if_neg (by decide)] at hdigits
  have hbody : Text.SignedDecimal "9223372036854775808".toList 9223372036854775808 :=
    htext ▸ .unsigned (Text.decimalDigits_toString 9223372036854775808)
  have hfloat : (Decimal.Double.ofInt 18446744073709551616).value = (18446744073709551616 : Nat) :=
    Decimal.Double.natural?_eq_some_iff.mp (by decide)
  refine ⟨.string (Text.pads_self _) hbody (by decide), hnumber, hdigits, ?_, ?_⟩
  · exact (hreads.rejected .sampleCleanup _ ∅ default (.inl rfl) (by decide)).1.mpr hdigits
  · have hreads := (retention_days_as_written
      (.ofJson (.float (.ofInt 18446744073709551616))) 18446744073709551616).1
    exact hreads.float _ rfl (.float hfloat (by decide))

end JobLaunch
