/-
How the cutoff of a relative date moves with its amount.

An amount comes to some days or to some months (`RelativeDate.steps`), and only their number
matters: a week is seven days and a year twelve months (`resolve_eq`).  Counted without regard to
what can be named, the cutoff lies in a second that is earlier for every further step
(`reckoned_lt`).  `resolve` gives the instant in that second where it can be named, and the
earliest instant where it cannot (`resolve_spec`).

The limits on amounts and on products need no case of their own.  As many steps as they forbid lead
out of the days that can be named from every moment, if only because a month has a day.
-/
import TicketSearch.Proofs.Calendar.Cutoff

namespace TicketSearch

open Instant (earliest)

/-! ### Steps out of the days that can be named -/

/-- The months of a stretch have at least as many days. -/
theorem monthStart_sub_le (k : Int) (months : Nat) :
    monthStart (k - months) + months ≤ monthStart k := by
  induction months with
  | zero => simp
  | succ months ih =>
      have hsucc := monthStart_succ (k - (months + 1 : Nat))
      have hlength := one_le_lengthOfMonth (k - (months + 1 : Nat))
      rw [show k - (months + 1 : Nat) + 1 = k - months by omega] at hsucc
      omega

/-- More months than can be taken off lead before the first day. -/
theorem Date.clamped_lt_first (d : Date) {months : Nat} (h : RelativeDate.mostMonths < months) :
    clamped (d.civil.monthIndex - months) d.civil.day < first := by
  have hmonths := monthStart_sub_le d.civil.monthIndex months
  have hnumber := d.number_eq
  have hlast := d.le_last
  simp only [RelativeDate.mostMonths, first, last, clamped] at *
  omega

namespace Instant

theorem minusMonths?_eq_none (i : Instant) {months : Nat} (h : RelativeDate.mostMonths < months) :
    i.minusMonths? months = none := by
  unfold minusMonths?
  rw [Date.minusMonths?_eq_none_iff.mpr (i.date.clamped_lt_first h)]
  rfl

theorem minusMonths?_zero (i : Instant) : i.minusMonths? 0 = some i := by
  have hnumber := i.date.number_eq
  obtain ⟨_, hday⟩ := i.date.day_bounds
  have hclamped : Date.clamped (i.date.civil.monthIndex - (0 : Nat)) i.date.civil.day =
      i.date.number := by
    simp only [Int.natCast_zero, Int.sub_zero, Date.clamped]
    omega
  unfold minusMonths?
  rw [Date.minusMonths?_eq, hclamped, Date.ofNumber?, dif_pos ⟨i.date.first_le, i.date.le_last⟩]
  rfl

theorem earliest_elapsed_le (i : Instant) : earliest.elapsed ≤ i.elapsed := by
  have h := earliest_isLE i
  rw [isLE_iff] at h
  omega

theorem settledSecond_bounds (i : Instant) :
    i.elapsed ≤ i.settledSecond ∧ i.settledSecond ≤ i.elapsed + 1 := by
  unfold settledSecond
  split <;> omega

end Instant

namespace RelativeDate

variable {r s : RelativeDate} {now : Instant}

/-! ### Days and months -/

/-- Whether a unit goes back by the calendar, and not by days of 24 hours. -/
def isByMonths (r : RelativeDate) : Bool :=
  match r.unit with
  | .day | .week => false
  | .month | .year => true

/-- The days or months that an amount comes to. -/
def steps (r : RelativeDate) : Nat :=
  match r.unit with
  | .day | .month => r.amount
  | .week => 7 * r.amount
  | .year => 12 * r.amount

/-- A relative date is its days or its months; no limit on amounts cuts it short. -/
theorem resolve_eq (r : RelativeDate) (now : Instant) :
    r.resolve now =
      (if r.isByMonths then now.minusMonths? r.steps
        else now.minusDays? r.steps).getD earliest := by
  have hmonths : ∀ n, minusMonths? now n = now.minusMonths? n := by
    intro n
    unfold minusMonths?
    by_cases hmost : n ≤ mostMonths
    · rw [if_pos hmost]
    · rw [if_neg hmost, now.minusMonths?_eq_none (by omega)]
  unfold resolve isByMonths steps
  cases r.unit with
  | day | week => simp
  | month => simp [hmonths]
  | year =>
      by_cases hbound : 12 * r.amount < amountBound
      · simp [hbound, hmonths]
      · have hmost : mostMonths < 12 * r.amount := by
          simp only [amountBound, UInt32.size, mostMonths] at hbound ⊢
          omega
        simp [hbound, now.minusMonths?_eq_none hmost]

theorem resolve_congr (hunit : r.isByMonths = s.isByMonths) (hsteps : r.steps = s.steps) :
    r.resolve now = s.resolve now := by
  rw [resolve_eq, resolve_eq, hunit, hsteps]

theorem resolve_of_steps_eq_zero (h : r.steps = 0) : r.resolve now = now := by
  rw [resolve_eq, h, now.minusMonths?_zero]
  simp [Instant.minusDays?]

/-! ### The second of a cutoff -/

/-- The second in which a cutoff lies, counted from 1 January 1970, whether or
not it can be named. -/
def reckoned (r : RelativeDate) (now : Instant) : Int :=
  if r.isByMonths then
    secondsPerDay * Date.clamped (now.date.civil.monthIndex - r.steps) now.date.civil.day +
      now.second
  else if r.steps = 0 then now.elapsed
  else now.settledSecond - secondsPerDay * r.steps

/-- The cutoff lies in its second where that can be named, and else is the earliest instant. -/
theorem resolve_spec (r : RelativeDate) (now : Instant) :
    r.reckoned now < earliest.elapsed ∧ r.resolve now = earliest ∨
      earliest.elapsed ≤ r.reckoned now ∧ (r.resolve now).elapsed = r.reckoned now := by
  have hearliest : earliest.elapsed = 86400 * Date.first := by decide
  rw [resolve_eq]
  unfold reckoned
  by_cases hmonths : r.isByMonths = true
  · have hsecond := now.second_lt
    simp only [if_pos hmonths]
    rcases now.minusMonths?_eq r.steps with ⟨i, hi, hdate, hclock, _⟩ | ⟨hnone, hbefore⟩
    · have hi' := i.earliest_elapsed_le
      rw [hi, Option.getD_some, ← hdate, ← hclock]
      exact Or.inr ⟨hi', rfl⟩
    · rw [hnone, Option.getD_none]
      refine Or.inl ⟨?_, rfl⟩
      simp only [secondsPerDay] at hsecond ⊢
      omega
  · simp only [if_neg hmonths]
    by_cases hzero : r.steps = 0
    · have hnow := now.earliest_elapsed_le
      rw [if_pos hzero, hzero, Instant.minusDays?, if_pos rfl, Option.getD_some]
      omega
    · rw [if_neg hzero]
      rcases now.minusDays?_eq hzero with ⟨i, hi, hsecond, _⟩ | ⟨hnone, hbefore⟩
      · have hi' := i.earliest_elapsed_le
        rw [hsecond] at hi'
        rw [hi, Option.getD_some]
        exact Or.inr ⟨hi', hsecond⟩
      · rw [hnone, Option.getD_none]
        exact Or.inl ⟨hbefore, rfl⟩

/-- Every further step leads to an earlier second. -/
theorem reckoned_lt (hunit : r.isByMonths = s.isByMonths) (h : r.steps < s.steps) :
    s.reckoned now < r.reckoned now := by
  unfold reckoned
  rw [← hunit]
  by_cases hmonths : r.isByMonths = true
  · have hindex : now.date.civil.monthIndex - s.steps < now.date.civil.monthIndex - r.steps := by
      omega
    have hclamped := Date.clamped_lt (a := now.date.civil.day) hindex now.date.day_bounds.1
    simp only [if_pos hmonths, secondsPerDay]
    omega
  · have hsettled := now.settledSecond_bounds
    simp only [if_neg hmonths, if_neg (show ¬s.steps = 0 by omega), secondsPerDay]
    by_cases hzero : r.steps = 0
    · rw [if_pos hzero]
      omega
    · rw [if_neg hzero]
      omega

/-- So more steps give no later cutoff. -/
theorem resolve_isLE (hunit : r.isByMonths = s.isByMonths) (h : r.steps ≤ s.steps) :
    (compare (s.resolve now) (r.resolve now)).isLE = true := by
  by_cases hsame : r.steps = s.steps
  · rw [resolve_congr hunit hsame, Instant.isLE_iff]
    omega
  · have hlt : s.reckoned now < r.reckoned now := reckoned_lt hunit (by omega)
    rcases s.resolve_spec now with ⟨_, hs⟩ | ⟨hnamed, hs⟩
    · rw [hs]
      exact Instant.earliest_isLE _
    · rcases r.resolve_spec now with ⟨hbefore, _⟩ | ⟨_, hr⟩
      · omega
      · rw [Instant.isLE_iff, hs, hr]
        exact Or.inl hlt

/-- A product that is out of range leads out of the days that can be named. -/
theorem reckoned_lt_earliest (h : amountBound ≤ r.steps) : r.reckoned now < earliest.elapsed := by
  have hearliest : earliest.elapsed = 86400 * Date.first := by decide
  have hlast := now.date.le_last
  have hsecond := now.second_lt
  unfold reckoned
  by_cases hmonths : r.isByMonths = true
  · have hmost : mostMonths < r.steps := by
      simp only [amountBound, UInt32.size, mostMonths] at h ⊢
      omega
    have hfirst := now.date.clamped_lt_first hmost
    simp only [if_pos hmonths, secondsPerDay] at hsecond ⊢
    omega
  · have hsettled := now.settledSecond_bounds
    simp only [amountBound, UInt32.size] at h
    simp only [if_neg hmonths, if_neg (show ¬r.steps = 0 by omega)]
    simp only [Instant.elapsed, secondsPerDay, Date.first, Date.last] at *
    omega

theorem steps_le (hunit : r.unit = s.unit) (h : r.amount ≤ s.amount) :
    r.isByMonths = s.isByMonths ∧ r.steps ≤ s.steps := by
  unfold isByMonths steps
  rw [hunit]
  cases s.unit <;> simp [h]

/--
**A larger amount of a unit gives no later cutoff, and no cutoff lies behind the moment that it
is counted back from.**  An amount of nothing gives that moment.  Weeks are seven times as many
days and years twelve times as many months, as far as there are such amounts.  Where the days or
months are more than an amount can be, or lead back to a second that cannot be named, the cutoff
is the earliest instant, and everywhere else it lies in the second that they lead to.
-/
theorem resolve_antitone (now : Instant) :
    (∀ r s : RelativeDate, r.unit = s.unit → r.amount ≤ s.amount →
        (compare (s.resolve now) (r.resolve now)).isLE = true ∧
          (compare (r.resolve now) now).isLE = true) ∧
      (∀ r : RelativeDate, r.amount = 0 → r.resolve now = now) ∧
      (∀ r s : RelativeDate,
        (r.unit = .week ∧ s.unit = .day ∧ s.amount = 7 * r.amount ∨
          r.unit = .year ∧ s.unit = .month ∧ s.amount = 12 * r.amount) →
        r.resolve now = s.resolve now) ∧
      ∀ r : RelativeDate,
        (amountBound ≤ r.steps ∨ r.reckoned now < earliest.elapsed →
          r.resolve now = earliest ∧ ∀ i, (compare (r.resolve now) i).isLE = true) ∧
        (earliest.elapsed ≤ r.reckoned now → (r.resolve now).elapsed = r.reckoned now) := by
  have hnothing : ∀ r : RelativeDate, r.amount = 0 → r.resolve now = now := by
    intro r hamount
    refine resolve_of_steps_eq_zero ?_
    unfold steps
    cases r.unit <;> simp [hamount]
  refine ⟨fun r s hunit hle => ?_, hnothing, fun r s hsame => ?_,
    fun r => ⟨fun hout => ?_, fun hin => ?_⟩⟩
  · obtain ⟨hmonths, hsteps⟩ := steps_le hunit hle
    refine ⟨resolve_isLE hmonths hsteps, ?_⟩
    let nothing : RelativeDate := ⟨0, r.unit, by decide⟩
    obtain ⟨hmonths', hsteps'⟩ : nothing.isByMonths = r.isByMonths ∧ nothing.steps ≤ r.steps :=
      steps_le rfl (Nat.zero_le _)
    have hle' : (compare (r.resolve now) (nothing.resolve now)).isLE = true :=
      resolve_isLE hmonths' hsteps'
    rwa [hnothing nothing rfl] at hle'
  · rcases hsame with ⟨hr, hs, hamount⟩ | ⟨hr, hs, hamount⟩
    · exact resolve_congr (by simp [isByMonths, hr, hs]) (by simp [steps, hr, hs, hamount])
    · exact resolve_congr (by simp [isByMonths, hr, hs]) (by simp [steps, hr, hs, hamount])
  · have hbefore : r.reckoned now < earliest.elapsed := hout.elim reckoned_lt_earliest id
    rcases r.resolve_spec now with ⟨_, h⟩ | ⟨hnamed, _⟩
    · rw [h]
      exact ⟨rfl, Instant.earliest_isLE⟩
    · omega
  · rcases r.resolve_spec now with ⟨hbefore, _⟩ | ⟨_, h⟩
    · omega
    · exact h

/-- From the last day of March: a month leads to a leap day, and the most years of all nowhere. -/
theorem resolve_antitone_of_march :
    let now := instantAt "2024-03-31T08:00:00Z"
    let months (n : Nat) (h : n < amountBound) : RelativeDate := ⟨n, .month, h⟩
    let years (n : Nat) (h : n < amountBound) : RelativeDate := ⟨n, .year, h⟩
    (months 1 (by decide)).resolve now = instantAt "2024-02-29T08:00:00Z" ∧
      (compare ((months 12 (by decide)).resolve now) ((months 1 (by decide)).resolve now)).isLE =
        true ∧
      (years 1 (by decide)).resolve now = (months 12 (by decide)).resolve now ∧
      (years 4294967295 (by decide)).resolve now = earliest := by
  intro now months years
  obtain ⟨hantitone, _, hyears, hrange⟩ := resolve_antitone now
  refine ⟨by decide +kernel, ?_, ?_, ?_⟩
  · exact (hantitone (months 1 _) (months 12 _) rfl (by decide)).1
  · exact hyears (years 1 _) (months 12 _) (Or.inr ⟨rfl, rfl, rfl⟩)
  · exact ((hrange (years 4294967295 (by decide))).1 (Or.inl (by decide))).1

end RelativeDate

end TicketSearch
