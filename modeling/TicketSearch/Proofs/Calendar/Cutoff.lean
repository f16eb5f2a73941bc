/-
How the cutoff of a relative date moves with the moment it is counted back from.

A later moment gives no earlier cutoff, with two exceptions, and `Retreats` names them.  Days and
weeks are steps of 24 hours, and a leap second counts as the second after it: right behind it less
of that second has passed.  Months and years keep the clock and step back by the calendar, where
two days of one month may both be moved to the last day of a shorter one: on the later of them the
clock starts anew.

Either way the cutoff is the earliest instant where it cannot be named, and the cutoff of a later
moment can be named if that of an earlier one can.
-/
import TicketSearch.Evaluation
import TicketSearch.Proofs.Calendar.Months

namespace TicketSearch

/-- A step by days leads to a day, or out of the days that can be named. -/
theorem Date.addDays?_cases (d : Date) (days : Int) :
    (∃ e, d.addDays? days = some e ∧ e.number = d.number + days) ∨
      d.addDays? days = none ∧ (d.number + days < Date.first ∨ Date.last < d.number + days) := by
  unfold addDays? ofNumber?
  by_cases hrange : first ≤ d.number + days ∧ d.number + days ≤ last
  · rw [dif_pos hrange]
    exact Or.inl ⟨_, rfl, rfl⟩
  · rw [dif_neg hrange]
    exact Or.inr ⟨rfl, by omega⟩

namespace Instant

/-! ### The order of instants -/

/-- The seconds from 1 January 1970 on, leap seconds not counted. -/
def elapsed (i : Instant) : Int :=
  secondsPerDay * i.date.number + i.second

variable {i j now later : Instant}

/-- Instants are ordered by day, and on one day by the clock. -/
theorem isLE_iff_date : (compare i j).isLE = true ↔
    i.date.number < j.date.number ∨ i.date.number = j.date.number ∧
      (i.second < j.second ∨ i.second = j.second ∧ i.nano ≤ j.nano) := by
  show ((compare i.date.number j.date.number).then
    ((compare i.second j.second).then (compare i.nano j.nano))).isLE = true ↔ _
  rw [Ordering.isLE_then_iff_or, Ordering.isLE_then_iff_or, Nat.isLE_compare, Int.compare_eq_lt,
    Int.compare_eq_eq, Nat.compare_eq_lt, Nat.compare_eq_eq]

/-- And so by the seconds elapsed. -/
theorem isLE_iff : (compare i j).isLE = true ↔
    i.elapsed < j.elapsed ∨ i.elapsed = j.elapsed ∧ i.nano ≤ j.nano := by
  have hi := i.second_lt
  have hj := j.second_lt
  rw [isLE_iff_date]
  simp only [elapsed, secondsPerDay] at *
  omega

theorem earliest_isLE (i : Instant) : (compare earliest i).isLE = true := by
  have hfirst := i.date.first_le
  have hearliest : earliest.elapsed = 86400 * Date.first := by decide
  rw [isLE_iff, hearliest]
  simp only [elapsed, secondsPerDay]
  have hnano : earliest.nano = 0 := rfl
  omega

/--
Where a cutoff that cannot be named is the earliest instant, it goes back only if it can be named,
provided that the cutoff of the later moment can be named then as well.
-/
theorem getD_isLE_iff {cutoff? cutoff'? : Option Instant} (goesBack : Instant → Prop)
    (h : ∀ i, cutoff? = some i →
      ∃ j, cutoff'? = some j ∧ ((compare i j).isLE = true ↔ ¬goesBack i)) :
    (compare (cutoff?.getD earliest) (cutoff'?.getD earliest)).isLE = true ↔
      ¬(cutoff?.getD earliest ≠ earliest ∧ goesBack (cutoff?.getD earliest)) := by
  cases cutoff? with
  | none =>
      rw [Option.getD_none]
      exact ⟨fun _ hback => hback.1 rfl, fun _ => earliest_isLE _⟩
  | some i =>
      obtain ⟨j, hj, hiff⟩ := h i rfl
      rw [hj, Option.getD_some, Option.getD_some]
      by_cases hearliest : i = earliest
      · rw [hearliest]
        exact ⟨fun _ hback => hback.1 rfl, fun _ => earliest_isLE j⟩
      · rw [hiff]
        simp [hearliest]

/-! ### Stepping back by days -/

/-- The seconds from 1 January 1970 on, where a leap second counts as the second after it. -/
def settledSecond (i : Instant) : Int :=
  if i.inLeapSecond then i.elapsed + 1 else i.elapsed

/-- How much has passed of that second. -/
def settledNano (i : Instant) : Nat :=
  if i.inLeapSecond then i.nano - nanosPerSecond else i.nano

/-- A step back of some days is one of that many times 24 hours. -/
theorem minusDays?_eq {days : Nat} (hdays : days ≠ 0) :
    (∃ j, i.minusDays? days = some j ∧ j.elapsed = i.settledSecond - 86400 * days ∧
        j.nano = i.settledNano) ∨
      i.minusDays? days = none ∧ i.settledSecond - 86400 * days < earliest.elapsed := by
  have hearliest : earliest.elapsed = 86400 * Date.first := by decide
  have hlast := i.date.le_last
  have hsecond := i.second_lt
  rw [hearliest]
  unfold minusDays? settledSecond settledNano inLeapSecond
  rw [if_neg hdays]
  by_cases hleap : nanosPerSecond ≤ i.nano
  · rw [dif_pos hleap, decide_eq_true hleap, if_pos rfl, if_pos rfl]
    rcases i.date.addDays?_cases (((i.second + 1) / secondsPerDay : Nat) - (days : Int)) with
      ⟨e, hadd, he⟩ | ⟨hadd, hrange⟩
    · rw [hadd]
      refine Or.inl ⟨_, rfl, ?_, rfl⟩
      simp only [elapsed, secondsPerDay] at he hsecond ⊢
      omega
    · rw [hadd]
      refine Or.inr ⟨rfl, ?_⟩
      simp only [elapsed, secondsPerDay] at hrange hsecond ⊢
      omega
  · rw [dif_neg hleap, decide_eq_false hleap, if_neg (by decide), if_neg (by decide)]
    rcases i.date.addDays?_cases (-(days : Int)) with ⟨e, hadd, he⟩ | ⟨hadd, hrange⟩
    · rw [hadd]
      refine Or.inl ⟨_, rfl, ?_, rfl⟩
      simp only [elapsed, secondsPerDay, he]
      omega
    · rw [hadd]
      refine Or.inr ⟨rfl, ?_⟩
      simp only [elapsed, secondsPerDay] at hsecond ⊢
      omega

/-- A later instant lies in the second right behind a leap second, and less of that has passed. -/
def FollowsLeapSecond (now later : Instant) : Prop :=
  later.elapsed = now.elapsed + 1 ∧ later.nano + nanosPerSecond < now.nano

/-- A later instant settles no earlier, unless it lies right behind a leap second. -/
theorem settled_isLE (h : (compare now later).isLE = true) :
    now.settledSecond ≤ later.settledSecond ∧
      (now.settledSecond < later.settledSecond ∨ now.settledNano ≤ later.settledNano ↔
        ¬FollowsLeapSecond now later) := by
  have hnow := now.nano_lt
  rw [isLE_iff] at h
  unfold settledSecond settledNano inLeapSecond FollowsLeapSecond
  by_cases hleap : nanosPerSecond ≤ now.nano
  · by_cases hleap' : nanosPerSecond ≤ later.nano
    · simp only [hleap, hleap', decide_true, if_true]
      omega
    · simp only [hleap, hleap', decide_true, decide_false, Bool.false_eq_true, if_true, if_false]
      omega
  · by_cases hleap' : nanosPerSecond ≤ later.nano
    · simp only [hleap, hleap', decide_true, decide_false, Bool.false_eq_true, if_true, if_false]
      omega
    · simp only [hleap, hleap', decide_false, Bool.false_eq_true, if_false]
      omega

theorem minusDays?_isLE_iff (h : (compare now later).isLE = true) {days : Nat} (hdays : days ≠ 0) :
    (compare ((now.minusDays? days).getD earliest)
        ((later.minusDays? days).getD earliest)).isLE = true ↔
      ¬((now.minusDays? days).getD earliest ≠ earliest ∧ FollowsLeapSecond now later) := by
  obtain ⟨hle, hiff⟩ := settled_isLE h
  refine getD_isLE_iff (fun _ => FollowsLeapSecond now later) fun a ha => ?_
  rcases now.minusDays?_eq hdays with ⟨_, ha', hasecond, hanano⟩ | ⟨hnone, _⟩
  · cases ha'.symm.trans ha
    rcases later.minusDays?_eq hdays with ⟨b, hb, hbsecond, hbnano⟩ | ⟨_, hbefore⟩
    · refine ⟨b, hb, ?_⟩
      rw [← hiff, isLE_iff]
      omega
    · -- what is later has the later cutoff, so that one can be named too
      have hearliest := earliest_isLE a
      rw [isLE_iff] at hearliest
      omega
  · cases hnone.symm.trans ha

/-! ### Stepping back by months -/

/--
A later day of the same month, at an earlier time of the day, and a cutoff in a month that is too
short to tell the two days apart.
-/
structure SharesMonthEnd (now later cutoff : Instant) : Prop where
  year : later.date.civil.year = now.date.civil.year
  month : later.date.civil.month = now.date.civil.month
  day : now.date.civil.day < later.date.civil.day
  short : monthLength cutoff.date.civil.year cutoff.date.civil.month ≤ now.date.civil.day
  clock : later.second < now.second ∨ later.second = now.second ∧ later.nano < now.nano

theorem minusMonths?_eq (i : Instant) (months : Nat) :
    (∃ j, i.minusMonths? months = some j ∧
        j.date.number = Date.clamped (i.date.civil.monthIndex - months) i.date.civil.day ∧
        j.second = i.second ∧ j.nano = i.nano) ∨
      i.minusMonths? months = none ∧
        Date.clamped (i.date.civil.monthIndex - months) i.date.civil.day < Date.first := by
  unfold minusMonths?
  cases h : i.date.minusMonths? months with
  | some day => exact Or.inl ⟨_, rfl, Date.minusMonths?_eq_some h, rfl, rfl⟩
  | none => exact Or.inr ⟨rfl, Date.minusMonths?_eq_none_iff.mp h⟩

/-- That two instants share a month end is a matter of their days and clocks. -/
theorem sharesMonthEnd_iff {cutoff : Instant} {months : Nat} (h : cutoff.date.number =
    Date.clamped (now.date.civil.monthIndex - months) now.date.civil.day) :
    SharesMonthEnd now later cutoff ↔ Date.Merge now.date later.date months ∧
      (later.second < now.second ∨ later.second = now.second ∧ later.nano < now.nano) := by
  have hindex := Date.monthIndex_of_clamped h now.date.day_bounds.1
  have hlength := Civil.lengthOfMonth_monthIndex cutoff.date.civil_isValid
  rw [hindex] at hlength
  have hyear := Civil.year_eq now.date.civil_isValid
  have hmonth := Civil.month_eq now.date.civil_isValid
  have hyear' := Civil.year_eq later.date.civil_isValid
  have hmonth' := Civil.month_eq later.date.civil_isValid
  unfold Date.Merge
  rw [hlength]
  constructor
  · rintro ⟨hsameYear, hsameMonth, hday, hshort, hclock⟩
    refine ⟨⟨?_, hday, hshort⟩, hclock⟩
    unfold Civil.monthIndex
    rw [hsameYear, hsameMonth]
  · rintro ⟨⟨hsame, hday, hshort⟩, hclock⟩
    rw [hsame] at hyear hmonth
    exact ⟨hyear'.symm.trans hyear, hmonth'.symm.trans hmonth, hday, hshort, hclock⟩

theorem minusMonths?_isLE_iff (h : (compare now later).isLE = true) (months : Nat) :
    (compare ((now.minusMonths? months).getD earliest)
        ((later.minusMonths? months).getD earliest)).isLE = true ↔
      ¬((now.minusMonths? months).getD earliest ≠ earliest ∧
        SharesMonthEnd now later ((now.minusMonths? months).getD earliest)) := by
  rw [isLE_iff_date] at h
  have hdates : now.date.number ≤ later.date.number := by omega
  obtain ⟨hle, heq⟩ := Date.clamped_le hdates months
  refine getD_isLE_iff (SharesMonthEnd now later) fun a ha => ?_
  rcases now.minusMonths?_eq months with ⟨_, ha', hadate, hasecond, hanano⟩ | ⟨hnone, _⟩
  · cases ha'.symm.trans ha
    rcases later.minusMonths?_eq months with ⟨b, hb, hbdate, hbsecond, hbnano⟩ | ⟨_, hbefore⟩
    · refine ⟨b, hb, ?_⟩
      rw [sharesMonthEnd_iff hadate, isLE_iff_date]
      rw [← hadate, ← hbdate] at hle heq
      by_cases hmerge : Date.Merge now.date later.date months
      · have hsame := heq.mpr (Or.inr hmerge)
        simp only [hmerge, true_and]
        omega
      · simp only [hmerge, or_false, false_and, not_false_eq_true, iff_true] at heq ⊢
        omega
    · -- what is later has the later cutoff, so that one can be named too
      have hfirst := a.date.first_le
      omega
  · cases hnone.symm.trans ha

end Instant

namespace RelativeDate

open Instant (FollowsLeapSecond SharesMonthEnd earliest)

variable (r : RelativeDate) {now later : Instant}

/-- A relative date goes back by days, by months, or further than can be said. -/
theorem resolve_cases :
    ((r.unit = .day ∨ r.unit = .week) ∧ ∃ days : Nat, (days = 0 ↔ r.amount = 0) ∧
        ∀ now, r.resolve now = (now.minusDays? days).getD earliest) ∨
      (r.unit = .month ∨ r.unit = .year) ∧
        ((∃ months : Nat, ∀ now, r.resolve now = (now.minusMonths? months).getD earliest) ∨
          ∀ now, r.resolve now = earliest) := by
  unfold resolve
  cases hunit : r.unit with
  | day => exact Or.inl ⟨Or.inl rfl, r.amount, Iff.rfl, fun _ => rfl⟩
  | week => exact Or.inl ⟨Or.inr rfl, 7 * r.amount, by omega, fun _ => rfl⟩
  | month =>
      refine Or.inr ⟨Or.inl rfl, ?_⟩
      by_cases hmost : r.amount ≤ mostMonths
      · refine Or.inl ⟨r.amount, fun now => ?_⟩
        simp only [minusMonths?, if_pos hmost]
      · refine Or.inr fun now => ?_
        simp only [minusMonths?, if_neg hmost, Option.getD_none]
  | year =>
      refine Or.inr ⟨Or.inr rfl, ?_⟩
      by_cases hreach : 12 * r.amount < amountBound ∧ 12 * r.amount ≤ mostMonths
      · refine Or.inl ⟨12 * r.amount, fun now => ?_⟩
        simp only [minusMonths?, if_pos hreach.1, if_pos hreach.2]
      · refine Or.inr fun now => ?_
        simp only [minusMonths?]
        split_ifs with hbound hmost
        · exact absurd ⟨hbound, hmost⟩ hreach
        · rfl
        · rfl

/-- The two ways in which the cutoff of a later moment can be the earlier one. -/
inductive Retreats (r : RelativeDate) (now later : Instant) : Prop
  /-- Days and weeks from a leap second count from the second after it. -/
  | leapSecond (unit : r.unit = .day ∨ r.unit = .week) (amount : r.amount ≠ 0)
      (named : r.resolve now ≠ earliest) (follows : FollowsLeapSecond now later)
  /-- Months and years lead to the last day of a shorter month. -/
  | monthEnd (unit : r.unit = .month ∨ r.unit = .year) (named : r.resolve now ≠ earliest)
      (shares : SharesMonthEnd now later (r.resolve now))

variable {r}

/-- A later moment gives no earlier cutoff but in these two ways. -/
theorem isLE_resolve_iff (h : (compare now later).isLE = true) :
    (compare (r.resolve now) (r.resolve later)).isLE = true ↔ ¬r.Retreats now later := by
  rcases r.resolve_cases with ⟨hunit, days, hzero, hresolve⟩ | ⟨hunit, hmonths⟩
  · have hother : ¬(r.unit = .month ∨ r.unit = .year) := by
      rcases hunit with hunit | hunit <;> rw [hunit] <;> decide
    by_cases hamount : r.amount = 0
    · -- nothing is taken off, so that the cutoffs are the moments themselves
      have hnow : ∀ i, r.resolve i = i := by
        intro i
        rw [hresolve, hzero.mpr hamount]
        rfl
      rw [hnow, hnow]
      refine ⟨fun _ hretreats => ?_, fun _ => h⟩
      cases hretreats with
      | leapSecond _ hnonzero _ _ => exact hnonzero hamount
      | monthEnd hunit' _ _ => exact hother hunit'
    · have hiff := Instant.minusDays?_isLE_iff h (mt hzero.mp hamount)
      rw [← hresolve, ← hresolve] at hiff
      rw [hiff, not_iff_not]
      constructor
      · rintro ⟨hnamed, hfollows⟩
        exact .leapSecond hunit hamount hnamed hfollows
      · rintro (⟨_, _, hnamed, hfollows⟩ | ⟨hunit', _, _⟩)
        · exact ⟨hnamed, hfollows⟩
        · exact absurd hunit' hother
  · have hother : ¬(r.unit = .day ∨ r.unit = .week) := by
      rcases hunit with hunit | hunit <;> rw [hunit] <;> decide
    rcases hmonths with ⟨months, hresolve⟩ | hresolve
    · have hiff := Instant.minusMonths?_isLE_iff h months
      rw [← hresolve, ← hresolve] at hiff
      rw [hiff, not_iff_not]
      constructor
      · rintro ⟨hnamed, hshares⟩
        exact .monthEnd hunit hnamed hshares
      · rintro (⟨hunit', _, _, _⟩ | ⟨_, hnamed, hshares⟩)
        · exact absurd hunit' hother
        · exact ⟨hnamed, hshares⟩
    · refine ⟨fun _ hretreats => ?_, fun _ => ?_⟩
      · cases hretreats with
        | leapSecond _ _ hnamed _ => exact hnamed (hresolve now)
        | monthEnd _ hnamed _ => exact hnamed (hresolve now)
      · rw [hresolve now]
        exact Instant.earliest_isLE _

/-! ### Tickets created after the cutoff -/

/-- The query for what was created after the cutoff. -/
def createdAfter (r : RelativeDate) : Query :=
  .compare .created .gt (.relative r)

theorem eval_createdAfter (t : Ticket) (now : Instant) :
    r.createdAfter.eval t.row now = true ↔
      ∃ created, t.created = some created ∧ (compare created (r.resolve now)).isLE = false := by
  have hrow : t.row .created = Ticket.dateCell t.created := rfl
  unfold createdAfter Query.eval holds
  rw [hrow]
  cases t.created with
  | none => simp [Ticket.dateCell, Cell.isEmpty]
  | some created =>
      have hafter : Comparison.accepts .gt (compare created (r.resolve now)) = true ↔
          (compare created (r.resolve now)).isLE = false := by
        cases compare created (r.resolve now) <;> decide
      refine hafter.trans ?_
      simp only [Option.some.injEq, exists_eq_left']

/-- No ticket that is not matched now is matched later exactly when the cutoff does not go back. -/
theorem stays_out_iff :
    (∀ t : Ticket, r.createdAfter.eval t.row now = false →
      r.createdAfter.eval t.row later = false) ↔
      (compare (r.resolve now) (r.resolve later)).isLE = true := by
  constructor
  · intro hstays
    by_contra hback
    have hin : r.createdAfter.eval
        ({ Ticket.blank with created := some (r.resolve now) } : Ticket).row later = true :=
      (eval_createdAfter _ later).mpr ⟨_, rfl, eq_false_of_ne_true hback⟩
    have hout : r.createdAfter.eval
        ({ Ticket.blank with created := some (r.resolve now) } : Ticket).row now = false := by
      rw [← Bool.not_eq_true, eval_createdAfter]
      rintro ⟨created, hcreated, hafter⟩
      have hself : (compare created (r.resolve now)).isLE = true := by
        rw [← Option.some.inj hcreated, Instant.isLE_iff]
        omega
      rw [hself] at hafter
      cases hafter
    rw [hstays _ hout] at hin
    cases hin
  · intro hle t hout
    by_contra hin
    rw [Bool.not_eq_false, eval_createdAfter] at hin
    obtain ⟨created, hcreated, hafter⟩ := hin
    refine Bool.false_ne_true
      (hout.symm.trans ((eval_createdAfter t now).mpr ⟨created, hcreated, ?_⟩))
    rw [← Bool.not_eq_true, Instant.isLE_iff] at hafter ⊢
    rw [Instant.isLE_iff] at hle
    omega

/--
**Counted back from a later moment, a cutoff is no earlier, and no ticket comes back that was
created before it**, but in two ways, and in these there is one that does: from a leap second, of
which more has passed than of the second behind it, by days or weeks; and by months or years from
two days of one month at different times of the day, if both lead to the last day of a shorter
month.
-/
theorem resolve_isLE_iff (r : RelativeDate) (now later : Instant)
    (h : (compare now later).isLE = true) :
    ((compare (r.resolve now) (r.resolve later)).isLE = true ↔ ¬r.Retreats now later) ∧
      ((∀ t : Ticket, r.createdAfter.eval t.row now = false →
          r.createdAfter.eval t.row later = false) ↔ ¬r.Retreats now later) :=
  ⟨isLE_resolve_iff h, stays_out_iff.trans (isLE_resolve_iff h)⟩

/-- The instant with a written form. -/
def instantAt (t : Text) : Instant :=
  (Instant.read? .strict t).getD earliest

/-- From the last two days of March both cutoffs of `-1m` lie on the last day of February,
in order of the clock. -/
theorem resolve_isLE_iff_of_march :
    (compare (instantAt "2025-03-30T01:00:00Z") (instantAt "2025-03-31T23:00:00Z")).isLE = true ∧
      (⟨1, .month, by decide⟩ : RelativeDate).resolve (instantAt "2025-03-31T23:00:00Z") =
        instantAt "2025-02-28T23:00:00Z" ∧
      ∀ t : Ticket,
        (createdAfter ⟨1, .month, by decide⟩).eval t.row
          (instantAt "2025-03-30T01:00:00Z") = false →
          (createdAfter ⟨1, .month, by decide⟩).eval t.row
            (instantAt "2025-03-31T23:00:00Z") = false := by
  have hle : (compare (instantAt "2025-03-30T01:00:00Z")
      (instantAt "2025-03-31T23:00:00Z")).isLE = true := by decide +kernel
  obtain ⟨hcutoffs, hstays⟩ := resolve_isLE_iff ⟨1, .month, by decide⟩ _ _ hle
  exact ⟨hle, by decide +kernel, hstays.mpr (hcutoffs.mp (by decide +kernel))⟩

/--
An hour after the last but one day of March 2025 has ended, `-1m` leads 22 hours further back than
an hour before, and a ticket comes back; so it does behind the leap second of 2016, by `-1d`.
-/
theorem not_resolve_isLE_of_month_end :
    (compare (instantAt "2025-03-30T23:00:00Z") (instantAt "2025-03-31T01:00:00Z")).isLE = true ∧
      (⟨1, .month, by decide⟩ : RelativeDate).resolve (instantAt "2025-03-30T23:00:00Z") =
        instantAt "2025-02-28T23:00:00Z" ∧
      (⟨1, .month, by decide⟩ : RelativeDate).resolve (instantAt "2025-03-31T01:00:00Z") =
        instantAt "2025-02-28T01:00:00Z" ∧
      (compare (instantAt "2025-02-28T23:00:00Z") (instantAt "2025-02-28T01:00:00Z")).isLE = false ∧
      (∃ t : Ticket,
        (createdAfter ⟨1, .month, by decide⟩).eval t.row
          (instantAt "2025-03-30T23:00:00Z") = false ∧
        (createdAfter ⟨1, .month, by decide⟩).eval t.row
          (instantAt "2025-03-31T01:00:00Z") = true) ∧
      (compare (instantAt "2016-12-31T23:59:60.5Z") (instantAt "2017-01-01T00:00:00.2Z")).isLE =
        true ∧
      ∃ t : Ticket,
        (createdAfter ⟨1, .day, by decide⟩).eval t.row
          (instantAt "2016-12-31T23:59:60.5Z") = false ∧
        (createdAfter ⟨1, .day, by decide⟩).eval t.row
          (instantAt "2017-01-01T00:00:00.2Z") = true := by
  refine ⟨by decide +kernel, by decide +kernel, by decide +kernel, by decide +kernel, ?_,
    by decide +kernel, ?_⟩
  · refine ⟨{ Ticket.blank with created := some (instantAt "2025-02-28T12:00:00Z") }, ?_, ?_⟩
    · decide +kernel
    · decide +kernel
  · refine ⟨{ Ticket.blank with created := some (instantAt "2016-12-31T00:00:00.3Z") }, ?_, ?_⟩
    · decide +kernel
    · decide +kernel

end RelativeDate

end TicketSearch
