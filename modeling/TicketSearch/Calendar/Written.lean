/-
The written forms of days and instants.

A day is written `2025-03-05`.  Instants are written as `2025-03-05T08:00:00+00:00`, with
3, 6 or 9 digits of a second when they are needed.  They are read in two forms: the
strict one, in which every part has its full width, and the relaxed one, in which parts
may be short and white space may stand around them.
-/
import TicketSearch.Calendar.Instant

namespace TicketSearch

/-- A number with zeros in front, up to a width. -/
def padNumber (width n : Nat) : Text :=
  List.replicate (width - (Text.ofNat n).length) '0' ++ Text.ofNat n

/-- Between `least` and `most` digits at the start of a text, as a number, and the rest. -/
def takeDigits? (least most : Nat) (t : Text) : Option (Nat × Text) :=
  let digits := (t.take most).takeWhile Char.isDigit
  if digits.length < least then none else some (digitsValue digits, t.drop digits.length)

/-- The rest of a text that starts with the given character. -/
def skipChar? (c : Char) : Text → Option Text
  | [] => none
  | d :: rest => if d = c then some rest else none

/-- A year at the start of a text: one to four digits, or a sign and any number of them. -/
def takeYear? (t : Text) : Option (Int × Text) :=
  match Text.trimStart t with
  | '-' :: rest => (takeDigits? 1 rest.length rest).map fun (n, rest) => (-(n : Int), rest)
  | '+' :: rest => (takeDigits? 1 rest.length rest).map fun (n, rest) => ((n : Int), rest)
  | rest => (takeDigits? 1 4 rest).map fun (n, rest) => ((n : Int), rest)

/-- A year has four digits; outside 0 to 9999 it has a sign and at least four. -/
def writeYear (year : Int) : Text :=
  if 0 ≤ year ∧ year ≤ 9999 then padNumber 4 year.toNat
  else (if year < 0 then '-' else '+') :: padNumber 4 year.natAbs

namespace Date

/-- Reads `year-month-day`; each number may have white space in front. -/
def read? (t : Text) : Option Date := do
  let (year, t) ← takeYear? t
  let t ← skipChar? '-' t
  let (month, t) ← takeDigits? 1 2 (Text.trimStart t)
  let t ← skipChar? '-' t
  let (day, t) ← takeDigits? 1 2 (Text.trimStart t)
  if t = [] then ofCivil? ⟨year, month, day⟩ else none

/-- The written form of a day. -/
def write (d : Date) : Text :=
  let c := d.civil
  writeYear c.year ++ '-' :: padNumber 2 c.month ++ '-' :: padNumber 2 c.day

end Date

/-- How strictly the written form of an instant is read. -/
inductive StampForm
  /-- Every number has its full width and nothing else may stand in the text. -/
  | strict
  /-- Numbers may be short, and white space may stand around them. -/
  | relaxed
  deriving DecidableEq

namespace StampForm

/-- The text after the white space that the form allows. -/
def skipGap : StampForm → Text → Text
  | strict, t => t
  | relaxed, t => Text.trimStart t

/-- A number of two digits, or fewer where the form allows that. -/
def takePart? : StampForm → Text → Option (Nat × Text)
  | strict, t => takeDigits? 2 2 t
  | relaxed, t => takeDigits? 1 2 (Text.trimStart t)

/-- A year in the form. -/
def takeYear? : StampForm → Text → Option (Int × Text)
  | strict, t => (takeDigits? 4 4 t).map fun (n, rest) => ((n : Int), rest)
  | relaxed, t => TicketSearch.takeYear? t

/-- The digits of a second after the point, as nanoseconds; digits past the ninth do not count. -/
def takeFraction? : Text → Option (Nat × Text)
  | '.' :: t =>
    (takeDigits? 1 9 t).map fun (n, rest) =>
      (n * Nat.pow 10 (9 - (t.length - rest.length)), rest.dropWhile Char.isDigit)
  | t => some (0, t)

/-- What may stand between the hours and the minutes of an offset. -/
def skipOffsetColon? : StampForm → Text → Option Text
  | strict, t => skipChar? ':' t
  | relaxed, t => some (t.dropWhile fun c => c == ':' || isBlank c)

/-- The hours and minutes of an offset, in minutes. -/
def takeOffsetMinutes? (form : StampForm) (t : Text) : Option (Nat × Text) := do
  let (hours, t) ← takeDigits? 2 2 t
  let t ← form.skipOffsetColon? t
  let (minutes, t) ← takeDigits? 2 2 t
  if minutes < 60 then some (60 * hours + minutes, t) else none

/-- An offset from universal time, in minutes. -/
def takeOffset? (form : StampForm) (t : Text) : Option (Int × Text) :=
  if form = relaxed ∧ Text.asciiLower (t.take 3) = "utc".toList then some (0, t.drop 3)
  else
    match t with
    | [] => none
    | c :: rest =>
      if c = 'Z' ∨ c = 'z' then some (0, rest)
      else if c = '+' then (form.takeOffsetMinutes? rest).map fun (n, rest) => ((n : Int), rest)
      else if c = '-' ∨ c = '−' then
        (form.takeOffsetMinutes? rest).map fun (n, rest) => (-(n : Int), rest)
      else none

/-- The character between the day and the time of day. -/
def skipSeparator? : Text → Option Text
  | [] => none
  | c :: rest => if c = 'T' ∨ c = 't' ∨ c = ' ' then some rest else none

end StampForm

namespace Instant

/-- Reads an instant with its offset from universal time.  Second 60 is a leap second. -/
def read? (form : StampForm) (t : Text) : Option Instant := do
  let (year, t) ← form.takeYear? t
  let t ← skipChar? '-' (form.skipGap t)
  let (month, t) ← form.takePart? t
  let t ← skipChar? '-' (form.skipGap t)
  let (day, t) ← form.takePart? t
  let t ← StampForm.skipSeparator? t
  let (hour, t) ← form.takePart? t
  let t ← skipChar? ':' (form.skipGap t)
  let (minute, t) ← form.takePart? t
  let t ← skipChar? ':' (form.skipGap t)
  let (second, t) ← form.takePart? t
  let (nano, t) ← StampForm.takeFraction? t
  let (offset, t) ← form.takeOffset? (form.skipGap t)
  let date ← Date.ofCivil? ⟨year, month, day⟩
  if form.skipGap t = [] ∧ hour < 24 ∧ minute < 60 ∧ second ≤ 60 ∧ offset.natAbs < 24 * 60 then
    if second = 60 then
      ofClock? date (3600 * hour + 60 * minute + 59) (nano + nanosPerSecond) offset
    else ofClock? date (3600 * hour + 60 * minute + second) nano offset
  else none

/-- The digits of a second: none, or three, six or nine after a point. -/
def writeFraction (nano : Nat) : Text :=
  if nano = 0 then []
  else if nano % 1000000 = 0 then '.' :: padNumber 3 (nano / 1000000)
  else if nano % 1000 = 0 then '.' :: padNumber 6 (nano / 1000)
  else '.' :: padNumber 9 nano

/-- The day and the time of day, without an offset. -/
def writeClock (i : Instant) : Text :=
  let second := i.second % 60 + i.nano / nanosPerSecond
  i.date.write ++ 'T' :: padNumber 2 (i.second / 3600) ++ ':' :: padNumber 2 (i.second / 60 % 60) ++
    ':' :: padNumber 2 second ++ writeFraction (i.nano % nanosPerSecond)

/-- The written form of an instant. -/
def write (i : Instant) : Text :=
  i.writeClock ++ "+00:00"

end Instant

end TicketSearch
