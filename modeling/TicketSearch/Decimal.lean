/-
Reading decimal notation.

A `Numeral` is a number as it is written: sign, digits before and after the point,
exponent.  `Numeral.toFloat` is the binary64 number nearest to it, and `readFloat?` reads
a whole text as a number.
-/
import TicketSearch.Text.Case

namespace TicketSearch

/-- A number in decimal notation: `whole.fraction · 10 ^ exponent`, with its sign. -/
structure Numeral where
  /-- Whether a minus sign stands in front. -/
  negative : Bool
  /-- The digits before the point. -/
  whole : Text
  /-- The digits after the point. -/
  fraction : Text
  /-- The power of ten that is written out. -/
  exponent : Int
  deriving DecidableEq

/-- The value of a run of decimal digits. -/
def digitsValue (digits : Text) : Nat :=
  Nat.ofDigitChars 10 digits 0

/-- The number a text of decimal digits denotes; `none` when it is not one. -/
def readNat? (t : Text) : Option Nat :=
  if t ≠ [] ∧ t.all Char.isDigit then some (digitsValue t) else none

/-- As `readNat?`, also for a number with a plus sign in front. -/
def readPlusNat? : Text → Option Nat
  | '+' :: t => readNat? t
  | t => readNat? t

/-- A sign in front of a number, if any, and the rest. -/
def splitSign : Text → Bool × Text
  | '-' :: t => (true, t)
  | '+' :: t => (false, t)
  | t => (false, t)

namespace Numeral

/-- The exponent that a text after the digits of a number denotes: nothing, or `e` and a number. -/
def readExponent? : Text → Option Int
  | [] => some 0
  | c :: t =>
    if c.toLower = 'e' then
      (readNat? (splitSign t).2).map fun n => if (splitSign t).1 then -(n : Int) else n
    else none

/-- The digits after the point of a number, and what follows them. -/
def splitFraction : Text → Text × Text
  | '.' :: t => (t.takeWhile Char.isDigit, t.dropWhile Char.isDigit)
  | t => ([], t)

/-- Reads a whole text as a number in decimal notation; a digit must stand
somewhere before the exponent. -/
def read? (t : Text) : Option Numeral :=
  let body := (splitSign t).2
  let whole := body.takeWhile Char.isDigit
  let (fraction, rest) := splitFraction (body.dropWhile Char.isDigit)
  if whole = [] ∧ fraction = [] then none
  else (readExponent? rest).map fun exponent => ⟨(splitSign t).1, whole, fraction, exponent⟩

/--
The magnitude of a numeral, rounded to nearest, ties to even.  Powers of ten beyond the
range of binary64 are not computed: they leave zero or infinity.
-/
def magnitude (n : Numeral) : Float :=
  let digits := n.whole ++ n.fraction
  let exponent := n.exponent - n.fraction.length
  if digitsValue digits = 0 ∨ exponent + digits.length < -330 then 0
  else if exponent > 310 then Float.ofScientific 1 false 400
  else Float.ofScientific (digitsValue digits) (decide (exponent < 0)) exponent.natAbs

/-- The binary64 number nearest to a numeral. -/
def toFloat (n : Numeral) : Float :=
  if n.negative then -n.magnitude else n.magnitude

end Numeral

/-- Reads a text as a binary64 number: decimal notation, or an infinity or NaN by name. -/
def readFloat? (t : Text) : Option Float :=
  let (negative, body) := splitSign t
  let name := Text.asciiLower body
  if name = "inf".toList ∨ name = "infinity".toList then
    some (if negative then -Float.ofScientific 1 false 400 else Float.ofScientific 1 false 400)
  else if name = "nan".toList then some (0 / 0)
  else (Numeral.read? t).map Numeral.toFloat

end TicketSearch
