import JobLaunch.Timestamp
/-!
The calendar. Every day number has one date inside its month, and the date has that day number; the
years of the calendar are the years of the dates between its first and its last day.
-/
namespace JobLaunch.Timestamp

/-- Days of an era before its year of a given number; years start in March. -/
def daysBefore (year : Nat) : Nat := 365 * year + year / 4 - year / 100 + year / 400

/-- Days of an era without the leap days before them, so that every year has 365. -/
def evenDays (day : Nat) : Nat := day - day / 1460 + day / 36524 - day / 146096

theorem evenDays_mono {a b : Nat} (h : a ≤ b) : evenDays a ≤ evenDays b := by
  have ha : a / 146096 = a / 36524 / 4 := by omega
  have hb : b / 146096 = b / 36524 / 4 := by omega
  have hc : a / 36524 ≤ b / 36524 := Nat.div_le_div_right h
  have hd : a - a / 1460 ≤ b - b / 1460 := by omega
  rw [evenDays, evenDays, ha, hb]
  omega

/-- The first and the last day of each year of an era fall into it. -/
theorem evenDays_daysBefore : ∀ y < 400,
    365 * y ≤ evenDays (daysBefore y) ∧ evenDays (daysBefore (y + 1) - 1) < 365 * (y + 1) := by
  decide +kernel

/-- A day of an era falls into the year that its even days say. -/
theorem day_of_year {d : Nat} (h : d < 146097) :
    evenDays d / 365 < 400 ∧ daysBefore (evenDays d / 365) ≤ d ∧
      d < daysBefore (evenDays d / 365 + 1) := by
  have hlast : evenDays d ≤ 145999 := evenDays_mono (b := 146096) (by omega)
  have hy : evenDays d / 365 < 400 := by omega
  generalize hyear : evenDays d / 365 = y at hy ⊢
  refine ⟨hy, Nat.le_of_not_lt fun hlt => ?_, Nat.lt_of_not_le fun hle => ?_⟩
  · cases y with
    | zero => exact Nat.not_lt_zero d hlt
    | succ y =>
      have hbefore := (evenDays_daysBefore y (by omega)).2
      have hmono := evenDays_mono (Nat.le_sub_one_of_lt hlt)
      omega
  · by_cases hend : y + 1 < 400
    · have hafter := (evenDays_daysBefore (y + 1) hend).1
      have hmono := evenDays_mono hle
      omega
    · have hera : daysBefore (y + 1) = 146097 := by
        rw [show y + 1 = 400 by omega]
        rfl
      omega

def dateIn (era : Int) (year day : Nat) : Int × Nat × Nat :=
  let index := (5 * day + 2) / 153
  let month := if index < 10 then index + 3 else index - 9
  (year + era * 400 + (if month ≤ 2 then 1 else 0), month, day - (153 * index + 2) / 5 + 1)

/-- Every day number is a day of a year of an era. -/
theorem dateOf_eq_dateIn (number : Int) : ∃ (era : Int) (year day : Nat),
    year < 400 ∧ daysBefore year + day < daysBefore (year + 1) ∧
    number = era * 146097 + (daysBefore year + day : Nat) - 719468 ∧
    dateOf number = dateIn era year day := by
  have hlt : ((number + 719468) % 146097).toNat < 146097 := by omega
  generalize hd : ((number + 719468) % 146097).toNat = d at hlt
  obtain ⟨hy, hfrom, huntil⟩ := day_of_year hlt
  generalize hyear : evenDays d / 365 = y at hy hfrom huntil
  refine ⟨(number + 719468) / 146097, y, d - daysBefore y, hy, by omega, by omega, ?_⟩
  have hstart : daysBefore y = 365 * y + y / 4 - y / 100 := by
    rw [daysBefore, Nat.div_eq_of_lt hy, Nat.add_zero]
  rw [hstart, ← hyear, ← hd]
  rfl

theorem dateIn_of_lt {era : Int} {year day index : Nat} (hi : (5 * day + 2) / 153 = index)
    (h : index < 10) : dateIn era year day =
      (year + era * 400, index + 3, day - (153 * index + 2) / 5 + 1) := by
  subst hi
  have hmonth : ¬ (5 * day + 2) / 153 + 3 ≤ 2 := by omega
  simp only [dateIn, if_pos h, if_neg hmonth, Int.add_zero]

theorem dateIn_of_le {era : Int} {year day index : Nat} (hi : (5 * day + 2) / 153 = index)
    (h : 10 ≤ index) (hlast : index ≤ 11) : dateIn era year day =
      (year + era * 400 + 1, index - 9, day - (153 * index + 2) / 5 + 1) := by
  subst hi
  have hmonth : (5 * day + 2) / 153 - 9 ≤ 2 := by omega
  simp only [dateIn, if_neg (Nat.not_lt.mpr h), if_pos hmonth]

theorem dayNumber_dateIn {era : Int} {year day : Nat} (hy : year < 400)
    (hd : daysBefore year + day < daysBefore (year + 1)) :
    dayNumber (dateIn era year day).1 (dateIn era year day).2.1 (dateIn era year day).2.2 =
      era * 146097 + (daysBefore year + day : Nat) - 719468 := by
  simp only [daysBefore] at hd ⊢
  have hindex : (5 * day + 2) / 153 ≤ 11 := by omega
  generalize hi : (5 * day + 2) / 153 = index at hindex
  have hera : (year + era * 400) / 400 = era ∧ (year + era * 400) % 400 = year := by omega
  have hrest : (153 * index + 2) / 5 + (day - (153 * index + 2) / 5 + 1) - 1 = day := by omega
  by_cases hm : index < 10
  · have hmonth : ¬ index + 3 ≤ 2 := by omega
    have hback : (index + 3 + 9) % 12 = index := by omega
    simp only [dateIn_of_lt hi hm, dayNumber, if_neg hmonth, hback, hera, hrest]
    omega
  · have hmonth : index - 9 ≤ 2 := by omega
    have hback : (index - 9 + 9) % 12 = index := by omega
    simp only [dateIn_of_le hi (Nat.le_of_not_lt hm) hindex, dayNumber, if_pos hmonth, hback,
      Int.add_sub_cancel, hera, hrest]
    omega

/-- The month of a date is one of twelve, and its day one of that month. -/
theorem dateIn_valid {era : Int} {year day : Nat} (hy : year < 400)
    (hd : daysBefore year + day < daysBefore (year + 1)) :
    1 ≤ (dateIn era year day).2.1 ∧ (dateIn era year day).2.1 ≤ 12 ∧
      1 ≤ (dateIn era year day).2.2 ∧
      (dateIn era year day).2.2 ≤ daysOfMonth (dateIn era year day).1 (dateIn era year day).2.1 := by
  simp only [daysBefore] at hd
  have hindex : (5 * day + 2) / 153 ≤ 11 := by omega
  generalize hi : (5 * day + 2) / 153 = index at hindex
  by_cases hm : index < 10
  · simp only [dateIn_of_lt hi hm, daysOfMonth]
    refine ⟨by omega, by omega, by omega, ?_⟩
    split
    · omega
    · split <;> omega
  · simp only [dateIn_of_le hi (Nat.le_of_not_lt hm) hindex, daysOfMonth, isLeapYear]
    refine ⟨by omega, by omega, by omega, ?_⟩
    split
    · split
      · omega
      · rename_i hleap
        simp only [Bool.or_eq_true, Bool.and_eq_true, beq_iff_eq, bne_iff_ne] at hleap
        omega
    · split <;> omega

/-- The date of a day number has that day number. -/
theorem dayNumber_dateOf (number : Int) :
    dayNumber (dateOf number).1 (dateOf number).2.1 (dateOf number).2.2 = number := by
  obtain ⟨era, year, day, hy, hd, hnumber, hdate⟩ := dateOf_eq_dateIn number
  rw [hdate, dayNumber_dateIn hy hd, hnumber]

/-- The date of a day number lies in one of the twelve months of its year. -/
theorem dateOf_valid (number : Int) :
    1 ≤ (dateOf number).2.1 ∧ (dateOf number).2.1 ≤ 12 ∧ 1 ≤ (dateOf number).2.2 ∧
      (dateOf number).2.2 ≤ daysOfMonth (dateOf number).1 (dateOf number).2.1 := by
  obtain ⟨era, year, day, hy, hd, -, hdate⟩ := dateOf_eq_dateIn number
  rw [hdate]
  exact dateIn_valid hy hd

theorem daysOfMonth_le (year : Int) (month : Nat) : daysOfMonth year month ≤ 31 := by
  simp only [daysOfMonth]
  split
  · split <;> decide
  · split <;> decide

theorem dayNumber_lt_succ (year : Int) : dayNumber year 1 1 < dayNumber (year + 1) 1 1 := by
  simp only [dayNumber]
  omega

theorem dayNumber_mono {a b : Int} (h : a ≤ b) : dayNumber a 1 1 ≤ dayNumber b 1 1 := by
  obtain ⟨k, rfl⟩ := Int.le.dest h
  induction k with
  | zero => simp
  | succ k ih =>
    have hnext := dayNumber_lt_succ (a + k)
    have hprev := ih (Int.le_add_of_nonneg_right (Int.natCast_nonneg k))
    rw [Int.natCast_succ, ← Int.add_assoc]
    omega

/-- A date lies between the first day of its year and that of the next. -/
theorem dayNumber_year {year : Int} {month day : Nat} (hm : 1 ≤ month ∧ month ≤ 12)
    (hd : 1 ≤ day ∧ day ≤ daysOfMonth year month) :
    dayNumber year 1 1 ≤ dayNumber year month day ∧
      dayNumber year month day < dayNumber (year + 1) 1 1 := by
  obtain ⟨hday, hlast⟩ := hd
  by_cases hleap : month = 2
  · subst hleap
    have hfeb : day ≤ if isLeapYear year then 29 else 28 := hlast
    simp only [dayNumber]
    split at hfeb
    · rename_i h
      simp only [isLeapYear, Bool.or_eq_true, Bool.and_eq_true, beq_iff_eq, bne_iff_ne] at h
      omega
    · omega
  · have hmax : day ≤ 31 := Nat.le_trans hlast (daysOfMonth_le year month)
    simp only [dayNumber]
    split <;> omega

/-- The year of a day number is at least a year when its first day has come. -/
theorem le_year_dateOf (year number : Int) :
    year ≤ (dateOf number).1 ↔ dayNumber year 1 1 ≤ number := by
  obtain ⟨hm, hm', hd⟩ := dateOf_valid number
  have hyear := dayNumber_year ⟨hm, hm'⟩ hd
  rw [dayNumber_dateOf] at hyear
  constructor
  · intro h
    exact Int.le_trans (dayNumber_mono h) hyear.1
  · intro h
    refine Int.le_of_not_gt fun hlt => ?_
    have hnext := dayNumber_mono (Int.add_one_le_of_lt hlt)
    omega

def InCalendar (t : Timestamp) : Prop := firstSecond ≤ t.seconds ∧ t.seconds ≤ lastSecond

def year (t : Timestamp) : Int := (dateOf (t.seconds / 86400)).1

/-- An instant lies inside the calendar when its year does. -/
theorem inCalendar_iff (t : Timestamp) :
    InCalendar t ↔ firstYear ≤ t.year ∧ t.year ≤ lastYear := by
  have hfirst := le_year_dateOf firstYear (t.seconds / 86400)
  have hlast := le_year_dateOf (lastYear + 1) (t.seconds / 86400)
  have hend : dayNumber (lastYear + 1) 1 1 = dayNumber lastYear 12 31 + 1 := by decide
  simp only [InCalendar, year, firstSecond, lastSecond]
  omega

end JobLaunch.Timestamp
