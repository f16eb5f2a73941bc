/-
Writing a binary64 number with the fewest digits that read back.

The number is taken apart into `significand · 2 ^ exponent`.  The reals that round to it
form an interval, whose ends belong to it when the significand is even.  On the grids of
1, 2, … 17 significant decimal digits the two neighbours of the number are tested; the
first grid with a neighbour inside the interval gives the digits, and of two neighbours
the nearer one is taken.  All arithmetic is exact, in natural numbers.
-/
import TicketSearch.Decimal

namespace TicketSearch

/-- The positive number `significand · 2 ^ exponent`. -/
structure Binary where
  /-- The integral significand. -/
  significand : Nat
  /-- The power of two. -/
  exponent : Int
  /-- Whether the next number below is only half as far away as the next one above. -/
  narrowBelow : Bool

/-- `digits · 10 ^ exponent`. -/
structure Scaled where
  /-- The integral digits. -/
  digits : Nat
  /-- The power of ten. -/
  exponent : Int
  deriving DecidableEq

namespace Binary

/-- The number of fractions that go with each exponent in the encoding: 52 bits are theirs. -/
def fractions : Nat := Nat.pow 2 52

/-- The least encoding with a sign. -/
def signBit : Nat := Nat.pow 2 63

/-- The finite number with the given encoding, its sign ignored. -/
def ofBits (bits : Nat) : Binary :=
  let field : Nat := bits / fractions % 2048
  let fraction : Nat := bits % fractions
  if field = 0 then ⟨fraction, -1074, false⟩
  else ⟨fractions + fraction, (field : Int) - 1075, fraction == 0 && decide (1 < field)⟩

/-- The numerator over `denominator` of a number given in quarters of the significand's unit. -/
def quarters (b : Binary) (units : Nat) : Nat :=
  units * Nat.pow 2 b.exponent.toNat

/-- The denominator that goes with `quarters`. -/
def denominator (b : Binary) : Nat :=
  4 * Nat.pow 2 (-b.exponent).toNat

/-- The number itself, over `denominator`. -/
def value (b : Binary) : Nat :=
  b.quarters (4 * b.significand)

/-- The lower end of the interval of reals that round to the number, over `denominator`. -/
def lowest (b : Binary) : Nat :=
  b.quarters (4 * b.significand - if b.narrowBelow then 1 else 2)

/-- The upper end of that interval, over `denominator`. -/
def highest (b : Binary) : Nat :=
  b.quarters (4 * b.significand + 2)

/-- Whether `s` rounds to the number. -/
def admits (b : Binary) (s : Scaled) : Bool :=
  let point := s.digits * Nat.pow 10 s.exponent.toNat * b.denominator
  let low := b.lowest * Nat.pow 10 (-s.exponent).toNat
  let high := b.highest * Nat.pow 10 (-s.exponent).toNat
  if b.significand % 2 = 0 then decide (low ≤ point) && decide (point ≤ high)
  else decide (low < point) && decide (point < high)

/-- The least `n ≥ start` with `value · 10 ^ n ≥ denominator`, looked for among `fuel` of them. -/
def leadingZeros (value denominator : Nat) : Nat → Nat → Nat
  | 0, start => start
  | fuel + 1, start =>
    if denominator ≤ value * Nat.pow 10 start then start
    else leadingZeros value denominator fuel (start + 1)

/-- The power of ten just above the number, for a number that is not zero. -/
def magnitude (b : Binary) : Int :=
  if b.denominator ≤ b.value then (Text.ofNat (b.value / b.denominator)).length
  else 1 - (leadingZeros b.value b.denominator 330 1 : Int)

/-- The nearest of the number's neighbours with `count` digits that rounds to it,
the upper one on a tie. -/
def withDigits? (b : Binary) (count : Nat) : Option Scaled :=
  let exponent := b.magnitude - count
  let unit := Nat.pow 10 exponent.toNat * b.denominator
  let number := b.value * Nat.pow 10 (-exponent).toNat
  let below : Scaled := ⟨number / unit, exponent⟩
  let above : Scaled := ⟨number / unit + 1, exponent⟩
  if 2 * number < (2 * (number / unit) + 1) * unit then
    if b.admits below then some below else if b.admits above then some above else none
  else if b.admits above then some above else if b.admits below then some below else none

/-- The shortest decimal form that reads back as the number. -/
def shortest (b : Binary) : Scaled :=
  if b.significand = 0 then ⟨0, 0⟩
  else ((List.range' 1 17).findSome? b.withDigits?).getD ⟨0, 0⟩

end Binary

namespace Scaled

/-- The digits without zeros at their end, and how many of these there were. -/
def stripZeros : Nat → Text → Text
  | 0, t => t
  | n + 1, t => if t.getLast? = some '0' then stripZeros n t.dropLast else t

/-- Positional notation: no exponent, and no point when no digit follows it. -/
def positional (s : Scaled) : Text :=
  let digits := Text.ofNat s.digits
  if 0 ≤ s.exponent then digits ++ List.replicate s.exponent.toNat '0'
  else
    let places := (-s.exponent).toNat
    let padded := List.replicate (places + 1 - digits.length) '0' ++ digits
    let whole := padded.take (padded.length - places)
    let fraction := stripZeros places (padded.drop (padded.length - places))
    if fraction = [] then whole else whole ++ '.' :: fraction

end Scaled

/-- The written form of a number: its shortest digits in positional notation. -/
def writeFloat (x : Float) : Text :=
  let bits := x.toBits.toNat
  if x.isNaN then "NaN"
  else
    let magnitude : Text :=
      if x.isInf then "inf" else (Binary.ofBits bits).shortest.positional
    if Binary.signBit ≤ bits then '-' :: magnitude else magnitude

end TicketSearch
