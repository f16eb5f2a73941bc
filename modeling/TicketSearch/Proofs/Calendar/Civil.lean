/-
Naming a day and finding it again are inverse.

Counted from March, year `y` takes up the days from `daysBefore y` to `daysBefore (y + 1)`,
and these stretches follow one another without a gap, so that a day lies in exactly one.
The guess from the mean length of a year is off by one at most, which `marchYear` mends.
Within a year the months begin at `(153 * m + 2) / 5`, and the added day of a leap year is
the last, so that neither depends on the year.
-/
import Mathlib.Tactic.IntervalCases
import TicketSearch.Calendar.Date

namespace TicketSearch

/-! ### Years counted from March -/

theorem daysBefore_succ (y : Int) :
    daysBefore (y + 1) = daysBefore y + if isLeapYear (y + 1) then 366 else 365 := by
  unfold daysBefore
  by_cases hleap : isLeapYear (y + 1) = true
  · rw [if_pos hleap]
    simp only [isLeapYear, Bool.and_eq_true, Bool.or_eq_true, beq_iff_eq, bne_iff_ne] at hleap
    omega
  · rw [if_neg hleap]
    simp only [isLeapYear, Bool.and_eq_true, Bool.or_eq_true, beq_iff_eq, bne_iff_ne] at hleap
    omega

/-- A later year begins later, by at least the days of a common year for each year between. -/
theorem daysBefore_mono {y z : Int} (h : y ≤ z) : daysBefore y + 365 * (z - y) ≤ daysBefore z := by
  unfold daysBefore
  omega

/-- Every day lies in its year. -/
theorem marchYear_spec (days : Int) :
    daysBefore (Civil.marchYear days) ≤ days ∧ days < daysBefore (Civil.marchYear days + 1) := by
  have hguess : daysBefore (400 * days / 146097 - 1) ≤ days ∧
      days < daysBefore (400 * days / 146097 + 1 + 1) := by
    unfold daysBefore
    omega
  unfold Civil.marchYear
  by_cases hlow : days < daysBefore (400 * days / 146097)
  · rw [if_pos hlow, Int.sub_add_cancel]
    exact ⟨hguess.1, hlow⟩
  · rw [if_neg hlow]
    by_cases hhigh : daysBefore (400 * days / 146097 + 1) ≤ days
    · rw [if_pos hhigh]
      exact ⟨hhigh, hguess.2⟩
    · rw [if_neg hhigh]
      exact ⟨by omega, by omega⟩

/-- No day lies in two years. -/
theorem marchYear_eq {days y : Int} (hle : daysBefore y ≤ days) (hlt : days < daysBefore (y + 1)) :
    Civil.marchYear days = y := by
  obtain ⟨hle', hlt'⟩ := marchYear_spec days
  by_cases hless : Civil.marchYear days < y
  · have hmono := daysBefore_mono (show Civil.marchYear days + 1 ≤ y by omega)
    omega
  · by_cases hmore : y < Civil.marchYear days
    · have hmono := daysBefore_mono (show y + 1 ≤ Civil.marchYear days by omega)
      omega
    · omega

/-- The day of a year; only a year that ends in a leap February has a day 365. -/
theorem exists_dayOfYear (days : Int) : ∃ d : Nat, days = daysBefore (Civil.marchYear days) + d ∧
    (d < 365 ∨ d = 365 ∧ isLeapYear (Civil.marchYear days + 1) = true) := by
  obtain ⟨hle, hlt⟩ := marchYear_spec days
  rw [daysBefore_succ] at hlt
  refine ⟨(days - daysBefore (Civil.marchYear days)).toNat, by omega, ?_⟩
  by_cases hleap : isLeapYear (Civil.marchYear days + 1) = true
  · rw [if_pos hleap] at hlt
    by_cases hlast : days = daysBefore (Civil.marchYear days) + 365
    · exact Or.inr ⟨by omega, hleap⟩
    · exact Or.inl (by omega)
  · rw [if_neg hleap] at hlt
    exact Or.inl (by omega)

/-! ### From the count to the name and back -/

namespace Civil

/-- The name of the day that is the given one of a year counted from March. -/
def ofDayOfYear (year : Int) (dayOfYear : Nat) : Civil :=
  let months := (5 * dayOfYear + 2) / 153
  let day := dayOfYear - (153 * months + 2) / 5 + 1
  if months < 10 then ⟨year, months + 3, day⟩ else ⟨year + 1, months - 9, day⟩

theorem ofDayNumber_eq {number year : Int} {d : Nat} (hdays : number + 719468 = daysBefore year + d)
    (hyear : marchYear (number + 719468) = year) : ofDayNumber number = ofDayOfYear year d := by
  have hd : (number + 719468 - daysBefore year).toNat = d := by omega
  unfold ofDayNumber ofDayOfYear
  simp only [hyear, hd]

theorem isValid_iff (c : Civil) :
    c.isValid = true ↔
      1 ≤ c.month ∧ c.month ≤ 12 ∧ 1 ≤ c.day ∧ c.day ≤ monthLength c.year c.month := by
  unfold isValid
  simp only [Bool.and_eq_true, decide_eq_true_eq, and_assoc]

/-- A day of a year counted from March has a name in it, and the name leads back to the day. -/
theorem ofDayOfYear_spec {year : Int} {d : Nat}
    (hd : d < 365 ∨ d = 365 ∧ isLeapYear (year + 1) = true) :
    (ofDayOfYear year d).isValid = true ∧
      (ofDayOfYear year d).dayNumber = daysBefore year + d - 719468 := by
  have hmonths : (5 * d + 2) / 153 ≤ 11 := by omega
  rw [isValid_iff]
  unfold ofDayOfYear dayNumber
  simp only
  by_cases hearly : (5 * d + 2) / 153 < 10
  · simp only [if_pos hearly]
    refine ⟨⟨by omega, by omega, by omega, ?_⟩, ?_⟩
    · unfold monthLength
      split
      · omega
      · split <;> omega
    · rw [if_neg (by omega)]
      have hmod : ((5 * d + 2) / 153 + 3 + 9) % 12 = (5 * d + 2) / 153 := by omega
      rw [hmod]
      omega
  · simp only [if_neg hearly]
    refine ⟨⟨by omega, by omega, by omega, ?_⟩, ?_⟩
    · unfold monthLength
      split
      · split
        · omega
        · rename_i hleap
          have hcommon : d < 365 := hd.resolve_right fun h => hleap h.2
          omega
      · split <;> omega
    · rw [if_pos (by omega), Int.add_sub_cancel]
      have hmod : ((5 * d + 2) / 153 - 9 + 9) % 12 = (5 * d + 2) / 153 := by omega
      rw [hmod]
      omega

/-- The year counted from March in which a named day lies, and which day of it that is. -/
theorem exists_ofDayOfYear_eq {c : Civil} (h : c.isValid = true) : ∃ (year : Int) (d : Nat),
    (d < 365 ∨ d = 365 ∧ isLeapYear (year + 1) = true) ∧ ofDayOfYear year d = c ∧
      c.dayNumber = daysBefore year + d - 719468 := by
  obtain ⟨year, month, day⟩ := c
  rw [isValid_iff] at h
  obtain ⟨hmonth, hmonth', hday, hday'⟩ := h
  simp only [monthLength] at hmonth hmonth' hday hday'
  by_cases hearly : month ≤ 2
  · -- January and February end the year before
    have hmod : (month + 9) % 12 = month + 9 := by omega
    refine ⟨year - 1, (153 * (month + 9) + 2) / 5 + day - 1, ?_, ?_, ?_⟩
    · rw [Int.sub_add_cancel]
      split at hday'
      · split at hday'
        · rename_i hleap
          by_cases hlast : (153 * (month + 9) + 2) / 5 + day - 1 = 365
          · exact Or.inr ⟨hlast, hleap⟩
          · exact Or.inl (by omega)
        · exact Or.inl (by omega)
      · exact Or.inl (by split at hday' <;> omega)
    · have hplace : (5 * ((153 * (month + 9) + 2) / 5 + day - 1) + 2) / 153 = month + 9 := by
        split at hday'
        · split at hday' <;> omega
        · split at hday' <;> omega
      unfold ofDayOfYear
      simp only [hplace]
      rw [if_neg (by omega), Int.sub_add_cancel]
      congr 1
      omega
    · unfold dayNumber
      simp only [if_pos hearly, hmod]
      omega
  · have hmod : (month + 9) % 12 = month - 3 := by omega
    have hplace : (5 * ((153 * (month - 3) + 2) / 5 + day - 1) + 2) / 153 = month - 3 := by
      interval_cases month <;> simp at hday' <;> omega
    refine ⟨year, (153 * (month - 3) + 2) / 5 + day - 1, Or.inl (by omega), ?_, ?_⟩
    · unfold ofDayOfYear
      simp only [hplace]
      rw [if_pos (by omega)]
      congr 1
      · omega
      · omega
    · unfold dayNumber
      simp only [if_neg hearly, hmod]
      omega

/-- The name of a day exists. -/
theorem ofDayNumber_isValid (number : Int) : (ofDayNumber number).isValid = true := by
  obtain ⟨d, hdays, hd⟩ := exists_dayOfYear (number + 719468)
  rw [ofDayNumber_eq hdays rfl]
  exact (ofDayOfYear_spec hd).1

/-- The day that the name of a day leads to is that day. -/
theorem dayNumber_ofDayNumber (number : Int) : (ofDayNumber number).dayNumber = number := by
  obtain ⟨d, hdays, hd⟩ := exists_dayOfYear (number + 719468)
  rw [ofDayNumber_eq hdays rfl, (ofDayOfYear_spec hd).2]
  omega

/-- The name of the day that a name leads to is that name. -/
theorem ofDayNumber_dayNumber {c : Civil} (h : c.isValid = true) : ofDayNumber c.dayNumber = c := by
  obtain ⟨year, d, hd, heq, hnumber⟩ := exists_ofDayOfYear_eq h
  have hdays : c.dayNumber + 719468 = daysBefore year + d := by omega
  have hyear : marchYear (c.dayNumber + 719468) = year := by
    refine marchYear_eq (by omega) ?_
    rw [daysBefore_succ]
    rcases hd with hd | ⟨hd, hleap⟩
    · split <;> omega
    · rw [if_pos hleap]
      omega
  rw [ofDayNumber_eq hdays hyear, heq]

end Civil

theorem monthLength_le (year : Int) (month : Nat) : monthLength year month ≤ 31 := by
  unfold monthLength
  split_ifs <;> omega

namespace Date

theorem civil_isValid (d : Date) : d.civil.isValid = true :=
  Civil.ofDayNumber_isValid d.number

/-- A day is found under its own name. -/
theorem ofCivil?_civil (d : Date) : ofCivil? d.civil = some d := by
  unfold ofCivil?
  rw [if_pos d.civil_isValid]
  have hnumber : d.civil.dayNumber = d.number := Civil.dayNumber_ofDayNumber d.number
  unfold ofNumber?
  rw [hnumber, dif_pos ⟨d.first_le, d.le_last⟩]

/-- The day found under a name has that name. -/
theorem civil_of_ofCivil? {c : Civil} {d : Date} (h : ofCivil? c = some d) : d.civil = c := by
  unfold ofCivil? at h
  by_cases hvalid : c.isValid = true
  · rw [if_pos hvalid] at h
    unfold ofNumber? at h
    by_cases hrange : first ≤ c.dayNumber ∧ c.dayNumber ≤ last
    · rw [dif_pos hrange] at h
      cases h
      exact Civil.ofDayNumber_dayNumber hvalid
    · rw [dif_neg hrange] at h
      cases h
  · rw [if_neg hvalid] at h
    cases h

/-- In a year of four digits, every day that the calendar has can be named. -/
theorem ofCivil?_eq_none_iff {c : Civil} (hlow : 0 ≤ c.year) (hhigh : c.year ≤ 9999) :
    ofCivil? c = none ↔ c.isValid = false := by
  unfold ofCivil?
  by_cases hvalid : c.isValid = true
  · have hrange : first ≤ c.dayNumber ∧ c.dayNumber ≤ last := by
      obtain ⟨_, _, _, hday⟩ := (Civil.isValid_iff c).mp hvalid
      have hlength := monthLength_le c.year c.month
      unfold first last Civil.dayNumber daysBefore
      simp only
      split <;> omega
    rw [if_pos hvalid, hvalid, ofNumber?, dif_pos hrange]
    simp
  · rw [if_neg hvalid, eq_false_of_ne_true hvalid]
    simp

end Date

end TicketSearch
