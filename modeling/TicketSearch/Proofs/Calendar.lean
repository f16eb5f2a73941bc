/-
Days as stretches of time.

An instant lies before the start of a day exactly when its own day is an earlier one, so
that the half-open interval from the start of a day to the start of the next holds the
instants of the day and no others.  The last day that can be named is the exception: no
day begins where it ends.
-/
import TicketSearch.Calendar.Instant

namespace TicketSearch

namespace Instant

theorem compare_startOfDay (i : Instant) (d : Date) :
    compare i (startOfDay d) = .lt ↔ i.date.number < d.number := by
  show (compare i.date.number d.number).then
    ((compare i.second 0).then (compare i.nano 0)) = .lt ↔ _
  rw [Ordering.then_eq_lt, Ordering.then_eq_lt, Int.compare_eq_lt, Nat.compare_eq_lt,
    Nat.compare_eq_lt]
  omega

/-- Every day but the last is followed by one. -/
theorem startOfNextDay_eq {d : Date} (h : d.number < Date.last) :
    ∃ next : Date, next.number = d.number + 1 ∧ startOfNextDay d = startOfDay next := by
  have hfirst := d.first_le
  refine ⟨⟨d.number + 1, by omega, by omega⟩, rfl, ?_⟩
  unfold startOfNextDay Date.addDays? Date.ofNumber?
  rw [dif_pos ⟨by omega, by omega⟩]

theorem compare_startOfNextDay (i : Instant) {d : Date} (h : d.number < Date.last) :
    compare i (startOfNextDay d) = .lt ↔ i.date.number ≤ d.number := by
  obtain ⟨next, hnumber, hnext⟩ := startOfNextDay_eq h
  rw [hnext, compare_startOfDay, hnumber]
  omega

end Instant

theorem Date.eq_iff (d e : Date) : d = e ↔ d.number = e.number := by
  constructor
  · intro h
    rw [h]
  · intro h
    cases d
    cases e
    cases h
    rfl

theorem Date.compare_beq_eq (d e : Date) : (compare d e == .eq) = (d == e) := by
  rw [Bool.eq_iff_iff, beq_iff_eq, beq_iff_eq, Date.eq_iff]
  exact Int.compare_eq_eq

end TicketSearch
