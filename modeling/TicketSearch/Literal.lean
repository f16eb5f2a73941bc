/-
Literal values of a query.

A literal keeps how it was written, since a text field is compared with its text: `2.0`
and `2` are different labels.  The other readings of a literal, as a number, a day or an
instant, are functions that fail where the literal does not denote one.
-/
import TicketSearch.Calendar.Written

namespace TicketSearch

/-- A value in a query, by the token it was written as. -/
inductive Literal
  /-- A quoted text, without its quotes. -/
  | quoted (text : Text)
  /-- A bare word. -/
  | word (text : Text)
  /-- A number and how it was written. -/
  | number (value : Float) (text : Text)
  /-- A calendar day. -/
  | date (day : Date)
  /-- A span before the moment of evaluation. -/
  | relative (span : RelativeDate)
  deriving DecidableEq

namespace Literal

/-- The literal as a text, to compare with text fields. -/
def text : Literal → Text
  | quoted t | word t => t
  | number _ t => t
  | date d => d.write
  | relative r => r.write

/-- The literal as it is written in a query. -/
def write : Literal → Text
  | quoted t => '"' :: t ++ ['"']
  | l => l.text

/-- The number that the literal denotes. -/
def number? : Literal → Option Float
  | number x _ => some x
  | quoted t | word t => readFloat? (Text.trim t)
  | date _ | relative _ => none

/-- The calendar day that the literal names. -/
def day? : Literal → Option Date
  | date d => some d
  | quoted t | word t => Date.read? (Text.trim t)
  | number _ _ | relative _ => none

/-- The instant that the literal denotes: of a day its first moment, of a span
the cutoff before `now`. -/
def instant? (now : Instant) : Literal → Option Instant
  | date d => some (Instant.startOfDay d)
  | relative r => some (r.resolve now)
  | quoted t | word t =>
    match Date.read? (Text.trim t) with
    | some d => some (Instant.startOfDay d)
    | none => Instant.read? .strict (Text.trim t)
  | number _ _ => none

/-- Whether two literals are the same; numbers are compared as numbers, so that
NaN is not itself. -/
def same : Literal → Literal → Bool
  | quoted s, quoted t | word s, word t => s == t
  | number x s, number y t => x == y && s == t
  | date d, date e => d == e
  | relative r, relative s => r == s
  | _, _ => false

end Literal

end TicketSearch
