import JobLaunch.Proofs.Calendar
import JobLaunch.Proofs.WrittenNumbers
/-!
Written timestamps. An instant inside the calendar is read back from its written form, and only
instants inside the calendar are read.
-/
namespace JobLaunch.Timestamp

open Text

theorem toList_padded (width n : Nat) : (padded width n).toList =
    List.replicate (width - (Nat.toDigits 10 n).length) '0' ++ Nat.toDigits 10 n := by
  simp [padded, toString, Nat.repr]

theorem spells_padded (width n : Nat) : Spells (padded width n).toList n := by
  rw [toList_padded]
  exact spells_zeros_toDigits _ n

theorem length_padded {width n : Nat} (hw : 0 < width) (h : n < Nat.pow 10 width) :
    (padded width n).toList.length = width := by
  have hl : (Nat.toDigits 10 n).length ≤ width :=
    (Nat.length_toDigits_le_iff (by decide) hw).mpr h
  rw [toList_padded, List.length_append, List.length_replicate]
  omega

/-- Digits are read as far as they go, up to the most that are allowed. -/
theorem digits?_append {most n : Nat} {cs rest : List Char} (h : Spells cs n)
    (hl : cs.length ≤ most)
    (hrest : (rest.take (most - cs.length)).takeWhile Char.isDigit = []) :
    digits? most (cs ++ rest) = some (n, rest) := by
  have htake : ((cs ++ rest).take most).takeWhile Char.isDigit = cs := by
    rw [List.take_append, List.take_of_length_le hl, List.takeWhile_append_of_pos h.digits, hrest,
      List.append_nil]
  rw [digits?, htake, h.value, Option.map_some, List.drop_left]

theorem twoDigits?_padded {n : Nat} (h : n < 100) (rest : List Char) :
    twoDigits? ((padded 2 n).toList ++ rest) = some (n, rest) := by
  have hl : (padded 2 n).toList.length = 2 := length_padded (by decide) h
  rw [twoDigits?, (spells_padded 2 n).trimFront_append]
  exact digits?_append (spells_padded 2 n) (Nat.le_of_eq hl) (by simp [hl])

theorem mark?_cons {c : Char} (h : isBlank c = false) (rest : List Char) :
    mark? c (c :: rest) = some rest := by
  simp [mark?, trimFront, h]

theorem year?_digits {n : Nat} {cs : List Char} (h : Spells cs n) (hl : cs.length = 4)
    (rest : List Char) : year? (cs ++ rest) = some ((n : Int), rest) := by
  have hread : digits? 4 (cs ++ rest) = some (n, rest) :=
    digits?_append h (Nat.le_of_eq hl) (by simp [hl])
  cases cs with
  | nil => cases hl
  | cons c cs =>
    have hc : c.isDigit := h.digits c List.mem_cons_self
    have hminus : c ≠ '-' := by rintro rfl; cases hc
    have hplus : c ≠ '+' := by rintro rfl; cases hc
    have htrim : trimFront (c :: (cs ++ rest)) = c :: (cs ++ rest) := h.trimFront_append rest
    rw [List.cons_append] at hread ⊢
    simp only [year?, htrim]
    split
    · rename_i heq
      exact absurd (List.cons.inj heq).1 hminus
    · rename_i heq
      exact absurd (List.cons.inj heq).1 hplus
    · rw [hread, Option.map_some]

theorem digits?_dashed {n : Nat} {cs : List Char} (h : Spells cs n) (rest : List Char) :
    digits? (cs ++ '-' :: rest).length (cs ++ '-' :: rest) = some (n, '-' :: rest) := by
  refine digits?_append h (by simp) ?_
  simp

theorem year?_minus {n : Nat} {cs rest : List Char} (h : digits? cs.length cs = some (n, rest)) :
    year? ('-' :: cs) = some (-(n : Int), rest) := by
  show (digits? cs.length cs).map _ = _
  rw [h, Option.map_some]

theorem year?_plus {n : Nat} {cs rest : List Char} (h : digits? cs.length cs = some (n, rest)) :
    year? ('+' :: cs) = some ((n : Int), rest) := by
  show (digits? cs.length cs).map _ = _
  rw [h, Option.map_some]

theorem year?_yearText (year : Int) (rest : List Char) :
    year? ((yearText year).toList ++ '-' :: rest) = some (year, '-' :: rest) := by
  rw [yearText]
  split
  · rename_i h
    have hl : (padded 4 year.toNat).toList.length = 4 :=
      length_padded (by decide) (by simp; omega)
    rw [year?_digits (spells_padded 4 year.toNat) hl, Int.toNat_of_nonneg h.1]
  · have hread := digits?_dashed (spells_padded 4 year.natAbs) rest
    split
    · have hnegative : -(year.natAbs : Int) = year := by omega
      simp only [String.toList_append, String.reduceToList, List.cons_append, List.nil_append]
      rw [year?_minus hread, hnegative]
    · have hpositive : (year.natAbs : Int) = year := by omega
      simp only [String.toList_append, String.reduceToList, List.cons_append, List.nil_append]
      rw [year?_plus hread, hpositive]

theorem fraction?_padded {width n nanos : Nat} (hw : 0 < width) (hlast : width ≤ 9)
    (h : n < Nat.pow 10 width) (hn : n * Nat.pow 10 (9 - width) = nanos) :
    fraction? (("." ++ padded width n).toList ++ ['Z']) = some (nanos, ['Z']) := by
  have hl := length_padded hw h
  have hread : digits? 9 ((padded width n).toList ++ ['Z']) = some (n, ['Z']) := by
    refine digits?_append (spells_padded width n) (by omega) ?_
    cases 9 - (padded width n).toList.length <;> simp
  simp only [String.toList_append, String.reduceToList, List.cons_append, List.nil_append]
  simpa [fraction?, hread, hl] using hn

theorem fraction?_fractionText {nanos : Nat} (h : nanos < 1000000000) :
    fraction? ((fractionText nanos).toList ++ ['Z']) = some (nanos, ['Z']) := by
  rw [fractionText]
  split
  · rename_i h0
    rw [h0]
    rfl
  · split
    · exact fraction?_padded (by decide) (by decide) (by simp; omega) (by simp; omega)
    · split
      · exact fraction?_padded (by decide) (by decide) (by simp; omega) (by simp; omega)
      · exact fraction?_padded (by decide) (by decide) h (Nat.mul_one nanos)

def partsText (year : Int) (month day hour minute second nanos : Nat) : String :=
  yearText year ++ "-" ++ padded 2 month ++ "-" ++ padded 2 day ++ "T" ++ padded 2 hour ++ ":"
    ++ padded 2 minute ++ ":" ++ padded 2 second ++ fractionText nanos ++ "Z"

theorem toList_partsText (year : Int) (month day hour minute second nanos : Nat) :
    (partsText year month day hour minute second nanos).toList =
      (yearText year).toList ++ '-' :: ((padded 2 month).toList ++ '-' :: ((padded 2 day).toList ++
        'T' :: ((padded 2 hour).toList ++ ':' :: ((padded 2 minute).toList ++
        ':' :: ((padded 2 second).toList ++ ((fractionText nanos).toList ++ ['Z'])))))) := by
  simp only [partsText, String.toList_append, String.reduceToList, List.append_assoc,
    List.cons_append, List.nil_append]

/-- Parts are read from their writing, when they name an instant. -/
theorem ofText?_partsText {year : Int} {month day hour minute second nanos : Nat} {t : Timestamp}
    (hmonth : month < 100) (hday : day < 100) (hhour : hour < 100) (hminute : minute < 100)
    (hsecond : second < 100) (hnanos : nanos < 1000000000)
    (h : ofParts? year month day hour minute second nanos 0 = some t) :
    ofText? (partsText year month day hour minute second nanos) = some t := by
  have hdash := mark?_cons (c := '-') (by decide)
  have hcolon := mark?_cons (c := ':') (by decide)
  unfold ofText?
  rw [toList_partsText]
  -- the date
  refine Option.bind_eq_some_iff.mpr ⟨_, year?_yearText year _, ?_⟩
  refine Option.bind_eq_some_iff.mpr ⟨_, hdash _, ?_⟩
  refine Option.bind_eq_some_iff.mpr ⟨_, twoDigits?_padded hmonth _, ?_⟩
  refine Option.bind_eq_some_iff.mpr ⟨_, hdash _, ?_⟩
  refine Option.bind_eq_some_iff.mpr ⟨_, twoDigits?_padded hday _, ?_⟩
  refine (if_neg (by decide)).trans ?_
  -- the time of day
  refine Option.bind_eq_some_iff.mpr ⟨_, twoDigits?_padded hhour _, ?_⟩
  refine Option.bind_eq_some_iff.mpr ⟨_, hcolon _, ?_⟩
  refine Option.bind_eq_some_iff.mpr ⟨_, twoDigits?_padded hminute _, ?_⟩
  refine Option.bind_eq_some_iff.mpr ⟨_, hcolon _, ?_⟩
  refine Option.bind_eq_some_iff.mpr ⟨_, twoDigits?_padded hsecond _, ?_⟩
  refine Option.bind_eq_some_iff.mpr ⟨_, fraction?_fractionText hnanos, ?_⟩
  -- the offset
  have hzone : offset? (trimFront ['Z']) = some (0, []) := by decide
  refine Option.bind_eq_some_iff.mpr ⟨_, hzone, ?_⟩
  exact (if_neg (by decide)).trans h

/-- The second of a minute, where a leap second is the one after the last. -/
def secondOf (t : Timestamp) : Nat :=
  (t.seconds % 86400).toNat % 60 + if t.nanos < 1000000000 then 0 else 1

def nanosOf (t : Timestamp) : Nat :=
  t.nanos - (if t.nanos < 1000000000 then 0 else 1) * 1000000000

theorem nanosOf_lt (t : Timestamp) : nanosOf t < 1000000000 := by
  have h := t.nanos_lt
  simp only [nanosOf]
  split <;> omega

theorem secondOf_le (t : Timestamp) : secondOf t ≤ 60 := by
  simp only [secondOf]
  split <;> omega

/-- The nanoseconds of an instant are those of its second, and a billion more in a leap second. -/
theorem nanosOf_add (t : Timestamp) :
    nanosOf t + (if secondOf t = 60 then 1 else 0) * 1000000000 = t.nanos := by
  have h := t.nanos_lt
  simp only [nanosOf, secondOf]
  split
  · rw [if_neg (by omega)]
    omega
  · rw [if_pos (by omega)]
    omega

/-- The seconds of an instant are those up to its day and those of its day. -/
theorem seconds_eq (t : Timestamp) :
    t.seconds / 86400 * 86400 + (((t.seconds % 86400).toNat / 3600 * 3600 +
      (t.seconds % 86400).toNat / 60 % 60 * 60 + secondOf t -
        if secondOf t = 60 then 1 else 0 : Nat) : Int) = t.seconds := by
  have h := t.nanos_lt
  simp only [secondOf]
  split
  · rw [if_neg (by omega)]
    omega
  · rw [if_pos (by omega)]
    omega

/-- The date and the time of day of an instant are its parts. -/
theorem ofParts?_dateOf {t : Timestamp} (h : InCalendar t) :
    ofParts? t.year (dateOf (t.seconds / 86400)).2.1 (dateOf (t.seconds / 86400)).2.2
      ((t.seconds % 86400).toNat / 3600) ((t.seconds % 86400).toNat / 60 % 60) (secondOf t)
      (nanosOf t) 0 = some t := by
  obtain ⟨hm, hm', hd, hd'⟩ := dateOf_valid (t.seconds / 86400)
  obtain ⟨hfirst, hlast⟩ := (inCalendar_iff t).mp h
  have hdays : dayNumber t.year (dateOf (t.seconds / 86400)).2.1 (dateOf (t.seconds / 86400)).2.2 =
      t.seconds / 86400 := dayNumber_dateOf (t.seconds / 86400)
  have hseconds := seconds_eq t
  have hnanos := nanosOf_add t
  have hvalid : (firstYear ≤ t.year ∧ t.year ≤ lastYear ∧ 1 ≤ (dateOf (t.seconds / 86400)).2.1 ∧
      (dateOf (t.seconds / 86400)).2.1 ≤ 12 ∧ 1 ≤ (dateOf (t.seconds / 86400)).2.2 ∧
      (dateOf (t.seconds / 86400)).2.2 ≤ daysOfMonth t.year (dateOf (t.seconds / 86400)).2.1 ∧
      (t.seconds % 86400).toNat / 3600 ≤ 23 ∧ (t.seconds % 86400).toNat / 60 % 60 ≤ 59 ∧
      secondOf t ≤ 60 ∧ (0 : Int).natAbs < 86400) :=
    ⟨hfirst, hlast, hm, hm', hd, hd', by omega, by omega, secondOf_le t, by decide⟩
  simp only [ofParts?, if_pos hvalid, hdays, Int.sub_zero, hseconds, hnanos]
  exact dif_pos ⟨t.nanos_lt, h⟩

theorem toText_eq (t : Timestamp) : t.toText =
    partsText t.year (dateOf (t.seconds / 86400)).2.1 (dateOf (t.seconds / 86400)).2.2
      ((t.seconds % 86400).toNat / 3600) ((t.seconds % 86400).toNat / 60 % 60) (secondOf t)
      (nanosOf t) :=
  rfl

/-- An instant inside the calendar is read back from its written form. -/
theorem ofText?_toText {t : Timestamp} (h : InCalendar t) : ofText? t.toText = some t := by
  obtain ⟨-, hmonth, -, hday⟩ := dateOf_valid (t.seconds / 86400)
  have hlong := daysOfMonth_le (dateOf (t.seconds / 86400)).1 (dateOf (t.seconds / 86400)).2.1
  rw [toText_eq]
  exact ofText?_partsText (by omega) (by omega) (by omega) (by omega)
    (Nat.lt_of_le_of_lt (secondOf_le t) (by decide)) (nanosOf_lt t) (ofParts?_dateOf h)

theorem inCalendar_of_ofParts? {year : Int} {month day hour minute second nanos : Nat}
    {offset : Int} {t : Timestamp}
    (h : ofParts? year month day hour minute second nanos offset = some t) : InCalendar t := by
  simp only [ofParts?, Option.ite_none_right_eq_some, Option.dite_none_right_eq_some] at h
  obtain ⟨-, hin, hmade⟩ := h
  cases hmade
  exact hin.2

theorem eq_some_of_ite {α : Type} {c : Prop} [Decidable c] {x y : Option α} {a : α}
    (h : (if c then x else y) = some a) : x = some a ∨ y = some a := by
  by_cases hc : c
  · rw [if_pos hc] at h
    exact .inl h
  · rw [if_neg hc] at h
    exact .inr h

/-- What is read lies inside the calendar. -/
theorem inCalendar_of_ofText? {s : String} {t : Timestamp} (h : ofText? s = some t) :
    InCalendar t := by
  -- the date, up to its day
  iterate 4 obtain ⟨_, -, h⟩ := Option.bind_eq_some_iff.mp h
  obtain ⟨⟨day, cs⟩, -, h⟩ := Option.bind_eq_some_iff.mp h
  cases cs with
  | nil => cases h
  | cons separator cs =>
    rcases eq_some_of_ite h with h | h
    · cases h
    · -- the time of day and the offset
      iterate 7 obtain ⟨_, -, h⟩ := Option.bind_eq_some_iff.mp h
      rcases eq_some_of_ite h with h | h
      · cases h
      · exact inCalendar_of_ofParts? h

end JobLaunch.Timestamp
