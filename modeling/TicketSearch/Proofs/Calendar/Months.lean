/-
Days by month and day of the month.

Months are numbered through all years, twelve to a year, so that stepping back by months is a
subtraction.  Month `k` takes up the days from `monthStart k` to `monthStart (k + 1)`, and a day
is a month and a day of it (`Date.number_eq`).  A step back of some months lands in the month that
many numbers before, on the same day of it or on its last one (`Date.minusMonths?_eq`).

Earlier months lie wholly before later ones.  So a step back keeps the order of two days, and it
makes them one only if they are days of one month, both moved to the last day of a shorter one.
-/
import Mathlib.Data.Int.Init
import Mathlib.Tactic.SplitIfs
import TicketSearch.Proofs.Calendar.Civil

namespace TicketSearch

/-! ### Months in a row -/

/-- The first day of a month, counted from 1 January 1970. -/
def monthStart (k : Int) : Int :=
  Civil.dayNumber ⟨k / 12, (k % 12).toNat + 1, 1⟩

/-- The number of days of a month. -/
def lengthOfMonth (k : Int) : Nat :=
  monthLength (k / 12) ((k % 12).toNat + 1)

/-- Every month has a day. -/
theorem one_le_lengthOfMonth (k : Int) : 1 ≤ lengthOfMonth k := by
  unfold lengthOfMonth monthLength
  split_ifs <;> decide

/-- Every month ends where the next one starts. -/
theorem monthStart_succ (k : Int) : monthStart (k + 1) = monthStart k + lengthOfMonth k := by
  obtain ⟨y, r, hk, hr⟩ : ∃ (y : Int) (r : Nat), k = 12 * y + r ∧ r < 12 :=
    ⟨k / 12, (k % 12).toNat, by omega, by omega⟩
  have hyear : k / 12 = y := by omega
  have hmonth : (k % 12).toNat = r := by omega
  have hsucc := daysBefore_succ (y - 1)
  rw [Int.sub_add_cancel] at hsucc
  unfold monthStart lengthOfMonth monthLength Civil.dayNumber
  by_cases hlast : r = 11
  · have hyear' : (k + 1) / 12 = y + 1 := by omega
    have hmonth' : ((k + 1) % 12).toNat = 0 := by omega
    simp [hyear, hmonth, hyear', hmonth', hlast]
    omega
  · -- of the others only February has a length that depends on the year
    have hyear' : (k + 1) / 12 = y := by omega
    have hmonth' : ((k + 1) % 12).toNat = r + 1 := by omega
    simp only [hyear, hmonth, hyear', hmonth']
    interval_cases r <;> simp <;> grind

/-- Earlier months lie before later ones. -/
theorem monthStart_add_le {k l : Int} (h : k < l) :
    monthStart k + lengthOfMonth k ≤ monthStart l := by
  rw [← monthStart_succ]
  induction l, (show k + 1 ≤ l from h) using Int.leInduction with
  | base => exact Int.le_refl _
  | succ l _ ih =>
      rw [monthStart_succ l]
      omega

/-! ### Days by their months -/

namespace Civil

/-- The number of the month of a day. -/
def monthIndex (c : Civil) : Int :=
  12 * c.year + (c.month - 1 : Int)

variable {c : Civil} (h : c.isValid = true)
include h

theorem year_eq : c.monthIndex / 12 = c.year := by
  rw [isValid_iff] at h
  unfold monthIndex
  omega

theorem month_eq : (c.monthIndex % 12).toNat + 1 = c.month := by
  rw [isValid_iff] at h
  unfold monthIndex
  omega

theorem lengthOfMonth_monthIndex : lengthOfMonth c.monthIndex = monthLength c.year c.month := by
  unfold lengthOfMonth
  rw [year_eq h, month_eq h]

theorem dayNumber_eq : c.dayNumber = monthStart c.monthIndex + c.day - 1 := by
  unfold monthStart
  rw [year_eq h, month_eq h]
  unfold dayNumber
  simp only
  omega

end Civil

namespace Date

variable (d e : Date)

/-- A day is a day of its month. -/
theorem number_eq : d.number = monthStart d.civil.monthIndex + d.civil.day - 1 := by
  rw [← Civil.dayNumber_eq d.civil_isValid]
  exact (Civil.dayNumber_ofDayNumber d.number).symm

theorem day_bounds : 1 ≤ d.civil.day ∧ d.civil.day ≤ lengthOfMonth d.civil.monthIndex := by
  obtain ⟨_, _, hday, hlast⟩ := (Civil.isValid_iff _).mp d.civil_isValid
  rw [Civil.lengthOfMonth_monthIndex d.civil_isValid]
  exact ⟨hday, hlast⟩

/-- Of two days the later one is in a later month, or a later day of the same month. -/
theorem number_le_iff : d.number ≤ e.number ↔
    d.civil.monthIndex < e.civil.monthIndex ∨
      d.civil.monthIndex = e.civil.monthIndex ∧ d.civil.day ≤ e.civil.day := by
  have hd := d.number_eq
  have he := e.number_eq
  have hdbounds := d.day_bounds
  have hebounds := e.day_bounds
  rcases Int.lt_trichotomy d.civil.monthIndex e.civil.monthIndex with hlt | heq | hgt
  · have hmonths := monthStart_add_le hlt
    exact ⟨fun _ => Or.inl hlt, fun _ => by omega⟩
  · rw [heq] at hd
    exact ⟨fun hle => Or.inr ⟨heq, by omega⟩, fun hle => by omega⟩
  · have hmonths := monthStart_add_le hgt
    exact ⟨fun hle => by omega, fun hle => by omega⟩

/-! ### Stepping back by months -/

/-- The number of a day of a month, or of its last day when it has not that many. -/
def clamped (k : Int) (day : Nat) : Int :=
  monthStart k + min day (lengthOfMonth k) - 1

/-- A step back leads to the same day of an earlier month, or to its last one. -/
theorem minusMonths?_eq (months : Nat) :
    d.minusMonths? months = ofNumber? (clamped (d.civil.monthIndex - months) d.civil.day) := by
  have hday := d.day_bounds.1
  have hlength := one_le_lengthOfMonth (d.civil.monthIndex - months)
  have htarget : ∀ k : Int, 1 ≤ lengthOfMonth k →
      Civil.isValid ⟨k / 12, (k % 12).toNat + 1, min d.civil.day (lengthOfMonth k)⟩ = true ∧
        Civil.monthIndex ⟨k / 12, (k % 12).toNat + 1, min d.civil.day (lengthOfMonth k)⟩ = k := by
    intro k hk
    rw [Civil.isValid_iff]
    refine ⟨⟨by simp, by simp; omega, by simp; omega, Nat.min_le_right _ _⟩, ?_⟩
    unfold Civil.monthIndex
    simp only
    omega
  obtain ⟨hvalid, hindex⟩ := htarget _ hlength
  show ofCivil? ⟨(d.civil.monthIndex - months) / 12, ((d.civil.monthIndex - months) % 12).toNat + 1,
    min d.civil.day (lengthOfMonth (d.civil.monthIndex - months))⟩ = _
  unfold ofCivil?
  rw [if_pos hvalid, Civil.dayNumber_eq hvalid, hindex]
  rfl

variable {d e} {k l : Int} {a b : Nat}

/-- Days of different months stay apart. -/
theorem clamped_lt (h : k < l) (hb : 1 ≤ b) : clamped k a < clamped l b := by
  have hmonths := monthStart_add_le h
  have hlength := one_le_lengthOfMonth l
  unfold clamped
  omega

/-- A step back never leads to a later day. -/
theorem clamped_le_number (months : Nat) :
    clamped (d.civil.monthIndex - months) d.civil.day ≤ d.number := by
  obtain ⟨hday, hlast⟩ := d.day_bounds
  have hnumber := d.number_eq
  by_cases hnone : months = 0
  · subst hnone
    rw [Int.natCast_zero, Int.sub_zero]
    unfold clamped
    omega
  · have hlt : d.civil.monthIndex - months < d.civil.monthIndex := by omega
    have hclamped := clamped_lt (a := d.civil.day) hlt hday
    unfold clamped at hclamped ⊢
    omega

theorem minusMonths?_eq_some {months : Nat} (h : d.minusMonths? months = some e) :
    e.number = clamped (d.civil.monthIndex - months) d.civil.day := by
  rw [minusMonths?_eq] at h
  unfold ofNumber? at h
  split_ifs at h
  rw [← Option.some.inj h]

/-- A step back leads before the first day that can be named, or to a day. -/
theorem minusMonths?_eq_none_iff {months : Nat} :
    d.minusMonths? months = none ↔ clamped (d.civil.monthIndex - months) d.civil.day < first := by
  have hle := clamped_le_number (d := d) months
  have hlast := d.le_last
  rw [minusMonths?_eq]
  unfold ofNumber?
  split_ifs with hrange
  · simp only [false_iff]
    omega
  · simp only [true_iff]
    omega

/-- A step back leads to the month that many months before. -/
theorem monthIndex_of_clamped (h : d.number = clamped k a) (ha : 1 ≤ a) :
    d.civil.monthIndex = k := by
  have hnumber := d.number_eq
  obtain ⟨hday, hlast⟩ := d.day_bounds
  have hlength := one_le_lengthOfMonth k
  unfold clamped at h
  rcases Int.lt_trichotomy d.civil.monthIndex k with hlt | heq | hgt
  · have hmonths := monthStart_add_le hlt
    omega
  · exact heq
  · have hmonths := monthStart_add_le hgt
    omega

/-- Two days of one month that a step back moves to the last day of a shorter one. -/
def Merge (d e : Date) (months : Nat) : Prop :=
  d.civil.monthIndex = e.civil.monthIndex ∧ d.civil.day < e.civil.day ∧
    lengthOfMonth (d.civil.monthIndex - months) ≤ d.civil.day

/-- A step back keeps the order of two days, and makes them one only so. -/
theorem clamped_le (h : d.number ≤ e.number) (months : Nat) :
    clamped (d.civil.monthIndex - months) d.civil.day ≤
        clamped (e.civil.monthIndex - months) e.civil.day ∧
      (clamped (d.civil.monthIndex - months) d.civil.day =
          clamped (e.civil.monthIndex - months) e.civil.day ↔
        d.number = e.number ∨ Merge d e months) := by
  have hnumber := d.number_eq
  have hnumber' := e.number_eq
  have hday' := e.day_bounds.1
  unfold Merge
  rcases (number_le_iff d e).mp h with hlt | ⟨heq, hle⟩
  · have hmonths : d.civil.monthIndex - months < e.civil.monthIndex - months := by omega
    have hclamped := clamped_lt (a := d.civil.day) hmonths hday'
    refine ⟨Int.le_of_lt hclamped, ?_⟩
    constructor
    · intro hsame
      omega
    · rintro (hsame | ⟨hmonth, _⟩)
      · have hback := (number_le_iff e d).mp (by omega)
        omega
      · omega
  · rw [heq] at hnumber
    rw [heq]
    unfold clamped
    omega

end Date

end TicketSearch
