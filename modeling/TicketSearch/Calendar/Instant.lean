/-
Instants in universal time, and cutoffs a span before one.

An `Instant` is a day, a second of the day and a nanosecond.  A leap second is the last
second of its minute with a nanosecond count past one thousand million, so that it sorts
after that second and before the next minute.  A `RelativeDate` such as `-7d` names the
instant that lies seven days before the moment of evaluation.
-/
import TicketSearch.Calendar.Date

namespace TicketSearch

/-- The nanoseconds of a second. -/
def nanosPerSecond : Nat := 1000000000

/-- The seconds of a day. -/
def secondsPerDay : Nat := 86400

/-- A moment in universal time. -/
structure Instant where
  /-- The calendar day. -/
  date : Date
  /-- The second of the day. -/
  second : Nat
  /-- The nanosecond of the second; a leap second counts on. -/
  nano : Nat
  second_lt : second < secondsPerDay
  nano_lt : nano < nanosPerSecond ∨ second % 60 = 59 ∧ nano < 2 * nanosPerSecond
  deriving DecidableEq

namespace Instant

/-- Instants are ordered by day, then second, then nanosecond. -/
instance : Ord Instant :=
  ⟨fun a b =>
    (compare a.date b.date).then ((compare a.second b.second).then (compare a.nano b.nano))⟩

/-- The first moment of a day. -/
def startOfDay (d : Date) : Instant :=
  ⟨d, 0, 0, by decide, by decide⟩

/-- The earliest instant. -/
def earliest : Instant := startOfDay Date.earliest

/-- The end of the last day that can be named. -/
def latest : Instant := ⟨Date.latest, 86399, 999999999, by decide, by decide⟩

/-- The first moment after a day, or the end of time. -/
def startOfNextDay (d : Date) : Instant :=
  match d.addDays? 1 with
  | some next => startOfDay next
  | none => latest

/--
The instant at a clock reading that is a number of minutes ahead of universal time; `none`
when there is no such clock reading or the instant cannot be named.
-/
def ofClock? (date : Date) (second nano : Nat) (minutesAhead : Int) : Option Instant :=
  let total : Int := second - 60 * minutesAhead
  if h : second < secondsPerDay ∧
      (nano < nanosPerSecond ∨ second % 60 = 59 ∧ nano < 2 * nanosPerSecond) then
    (date.addDays? (total / secondsPerDay)).map fun day =>
      ⟨day, (total % secondsPerDay).toNat, nano, by simp only [secondsPerDay] at *; omega,
        by simp only [secondsPerDay] at *; omega⟩
  else none

/-- Whether the instant lies in a leap second. -/
def inLeapSecond (i : Instant) : Bool :=
  decide (nanosPerSecond ≤ i.nano)

/--
The instant a number of days of 24 hours earlier.  A leap second is left for the second
that follows it before the days are taken off.
-/
def minusDays? (i : Instant) (days : Nat) : Option Instant :=
  if days = 0 then some i
  else if h : nanosPerSecond ≤ i.nano then
    (i.date.addDays? (((i.second + 1) / secondsPerDay : Nat) - (days : Int))).map fun day =>
      ⟨day, (i.second + 1) % secondsPerDay, i.nano - nanosPerSecond,
        Nat.mod_lt _ (by decide), by have := i.nano_lt; simp only [nanosPerSecond] at *; omega⟩
  else
    (i.date.addDays? (-(days : Int))).map fun day =>
      ⟨day, i.second, i.nano, i.second_lt, i.nano_lt⟩

/-- The same clock reading on the day a number of months earlier. -/
def minusMonths? (i : Instant) (months : Nat) : Option Instant :=
  (i.date.minusMonths? months).map fun day => ⟨day, i.second, i.nano, i.second_lt, i.nano_lt⟩

end Instant

/-- The unit of a relative date. -/
inductive DateUnit
  | day
  | week
  | month
  | year
  deriving DecidableEq

namespace DateUnit

/-- The letter that stands for a unit. -/
def letter : DateUnit → Char
  | day => 'd'
  | week => 'w'
  | month => 'm'
  | year => 'y'

/-- The unit that a letter stands for, in either case. -/
def ofLetter? (c : Char) : Option DateUnit :=
  match c.toLower with
  | 'd' => some day
  | 'w' => some week
  | 'm' => some month
  | 'y' => some year
  | _ => none

end DateUnit

/-- The amounts of a relative date, and their products, lie below this bound. -/
def amountBound : Nat := UInt32.size

/-- `-N` and a unit: that many units before the moment of evaluation. -/
structure RelativeDate where
  /-- The number of units. -/
  amount : Nat
  /-- The unit. -/
  unit : DateUnit
  amount_lt : amount < amountBound
  deriving DecidableEq

namespace RelativeDate

/-- The relative date with an amount and a unit, if the amount is in range. -/
def of? (amount : Nat) (unit : DateUnit) : Option RelativeDate :=
  if h : amount < amountBound then some ⟨amount, unit, h⟩ else none

/-- Reads `-`, an amount and the letter of a unit. -/
def read? : Text → Option RelativeDate
  | '-' :: body => do
    let unit ← DateUnit.ofLetter? (← body.getLast?)
    of? (← readPlusNat? body.dropLast) unit
  | _ => none

/-- The written form. -/
def write (r : RelativeDate) : Text :=
  '-' :: Text.ofNat r.amount ++ [r.unit.letter]

/-- The most calendar months that can be taken off an instant. -/
def mostMonths : Nat := 2147483647

/-- The instant a number of calendar months earlier, if that many can be taken off. -/
def minusMonths? (now : Instant) (months : Nat) : Option Instant :=
  if months ≤ mostMonths then now.minusMonths? months else none

/--
The instant that many units before `now`, or the earliest instant when that cannot be
named.  A year is twelve calendar months, and the product must stay in range.
-/
def resolve (r : RelativeDate) (now : Instant) : Instant :=
  let shifted :=
    match r.unit with
    | .day => now.minusDays? r.amount
    | .week => now.minusDays? (7 * r.amount)
    | .month => minusMonths? now r.amount
    | .year => if 12 * r.amount < amountBound then minusMonths? now (12 * r.amount) else none
  shifted.getD Instant.earliest

end RelativeDate

end TicketSearch
