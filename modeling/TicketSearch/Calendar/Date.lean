/-
Calendar days of the proleptic Gregorian calendar.

A `Date` is a count of days since 1 January 1970, between the first and the last day that
can be named; order, equality and stepping by days are those of the count.  `civil` names
the day by year, month and day of the month, and `ofCivil?` goes back.

Years are counted from March, so that the day added in a leap year is the last one:
`daysBefore y` is the number of days from 1 March of year 0 to 1 March of year `y`.
-/
import TicketSearch.Decimal

namespace TicketSearch

/-- The first day that can be named: 1 January -262143. -/
def Date.first : Int := -96465292

/-- The last day that can be named: 31 December 262142. -/
def Date.last : Int := 95026236

/-- A calendar day, counted from 1 January 1970. -/
structure Date where
  /-- The number of days since 1 January 1970. -/
  number : Int
  first_le : Date.first ≤ number
  le_last : number ≤ Date.last
  deriving DecidableEq

/-- A day by its year, month and day of the month. -/
structure Civil where
  /-- The year, counted through zero. -/
  year : Int
  /-- The month, from 1 to 12. -/
  month : Nat
  /-- The day of the month, from 1. -/
  day : Nat
  deriving DecidableEq

/-- Whether a year has a 29 February. -/
def isLeapYear (year : Int) : Bool :=
  year % 4 == 0 && (year % 100 != 0 || year % 400 == 0)

/-- The number of days of a month. -/
def monthLength (year : Int) (month : Nat) : Nat :=
  if month = 2 then (if isLeapYear year then 29 else 28)
  else if month = 4 ∨ month = 6 ∨ month = 9 ∨ month = 11 then 30
  else 31

/-- The days from 1 March of year 0 to 1 March of the given year. -/
def daysBefore (year : Int) : Int :=
  365 * year + year / 4 - year / 100 + year / 400

namespace Civil

/-- Whether the month exists and has the day. -/
def isValid (c : Civil) : Bool :=
  decide (1 ≤ c.month) && decide (c.month ≤ 12) && decide (1 ≤ c.day) &&
    decide (c.day ≤ monthLength c.year c.month)

/-- The count of days since 1 January 1970; 719468 days lie between that day and
1 March of year 0. -/
def dayNumber (c : Civil) : Int :=
  let year := if c.month ≤ 2 then c.year - 1 else c.year
  let months := (c.month + 9) % 12
  daysBefore year + ((153 * months + 2) / 5 : Nat) + c.day - 1 - 719468

/-- The year counted from March that a day lies in, the day being counted from 1 March of year 0. -/
def marchYear (days : Int) : Int :=
  let guess := 400 * days / 146097
  if days < daysBefore guess then guess - 1
  else if daysBefore (guess + 1) ≤ days then guess + 1
  else guess

/-- The day with a given count since 1 January 1970. -/
def ofDayNumber (number : Int) : Civil :=
  let days := number + 719468
  let year := marchYear days
  let dayOfYear := (days - daysBefore year).toNat
  let months := (5 * dayOfYear + 2) / 153
  let day := dayOfYear - (153 * months + 2) / 5 + 1
  if months < 10 then ⟨year, months + 3, day⟩ else ⟨year + 1, months - 9, day⟩

end Civil

namespace Date

instance : Ord Date := ⟨fun a b => compare a.number b.number⟩

/-- The day with a count, if it can be named. -/
def ofNumber? (number : Int) : Option Date :=
  if h : first ≤ number ∧ number ≤ last then some ⟨number, h.1, h.2⟩ else none

/-- The day with the given year, month and day of the month, if there is one that can be named. -/
def ofCivil? (c : Civil) : Option Date :=
  if c.isValid then ofNumber? c.dayNumber else none

/-- The year, month and day of the month. -/
def civil (d : Date) : Civil :=
  Civil.ofDayNumber d.number

/-- The day a number of days later, if it can be named. -/
def addDays? (d : Date) (days : Int) : Option Date :=
  ofNumber? (d.number + days)

/-- The first day that can be named. -/
def earliest : Date := ⟨first, by decide, by decide⟩

/-- The last day that can be named. -/
def latest : Date := ⟨last, by decide, by decide⟩

/--
The same day of the month a number of months earlier, moved back to the end of the month
where the month is shorter.
-/
def minusMonths? (d : Date) (months : Nat) : Option Date :=
  let c := d.civil
  let total := 12 * c.year + (c.month - 1 : Int) - months
  let year := total / 12
  let month := (total % 12).toNat + 1
  ofCivil? ⟨year, month, min c.day (monthLength year month)⟩

end Date

end TicketSearch
