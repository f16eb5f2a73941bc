/-
Reading records from JSON.

A record is read from an object by the names of its slots, or from an array by their
order.  Members that no slot has a name for are ignored; a slot that is filled twice, also
under two of its names, is a fault, and so is an array with more items than slots.
-/
import TicketSearch.Json

namespace TicketSearch

namespace Json

/-- The text of a string. -/
def text? : Json → Option Text
  | string text => text
  | _ => none

/-- A value that may be null, which counts as missing. -/
def optional? {α : Type} (read : Json → Option α) : Json → Option (Option α)
  | null => some none
  | value => (read value).map some

/-- A list of values. -/
def list? {α : Type} (read : Json → Option α) : Json → Option (List α)
  | array items => items.mapM read
  | _ => none

/--
The part of a number's digits that fits into 64 bits with the digits before it, and the
digits from the first that does not fit.
-/
def absorb (value : Nat) : Text → Nat × Text
  | [] => (value, [])
  | d :: ds =>
    let next := 10 * value + (d.toNat - 48)
    if next < UInt64.size then absorb next ds else (value, d :: ds)

/-- A number divided by a power of ten, at most 308 places at a time. -/
def scaleDown (x : Float) (places : Nat) : Float :=
  if places ≤ 308 then x / Float.ofScientific 1 false places
  else if x == 0 then x
  else scaleDown (x / Float.ofScientific 1 false 308) (places - 308)
termination_by places

/--
The binary64 number of a numeral: as many digits as fit into 64 bits are scaled once by a
power of ten, and later digits of the fraction do not count.  None when the number is
beyond the range.
-/
def scale? (n : Numeral) : Option Float :=
  let (value, skipped) := absorb 0 n.whole
  let (value, ignored) := absorb value n.fraction
  let exponent : Int := n.exponent + skipped.length - (n.fraction.length - ignored.length : Nat)
  let significand := value.toUInt64.toFloat
  let magnitude : Option Float :=
    if exponent < 0 then some (scaleDown significand exponent.natAbs)
    else if exponent ≤ 308 then
      let scaled := significand * Float.ofScientific 1 false exponent.natAbs
      if scaled.isInf then none else some scaled
    else if value = 0 then some 0
    else none
  magnitude.map fun x => if n.negative then -x else x

/-- The binary64 number that a JSON number stands for. -/
def float? : Json → Option Float
  | number n => scale? n
  | _ => none

end Json

/-- A slot of a record: its names, and how a JSON value fills it. -/
structure Slot (α : Type) where
  /-- The names of the slot in an object. -/
  names : List Text
  /-- Fills the slot; none when the value does not fit. -/
  fill : α → Json → Option α

namespace Slot

variable {α : Type}

/-- Fills slots from the members of an object; `filled` are the slots that are no longer free. -/
def readMembers (slots : List (Slot α)) (filled : List Nat) (record : α) :
    List (Option Text × Json) → Option α
  | [] => some record
  | (none, _) :: _ => none
  | (some key, value) :: rest =>
    match slots.findIdx? fun slot => slot.names.contains key with
    | none => readMembers slots filled record rest
    | some i =>
      if filled.contains i then none
      else
        match (slots[i]?).bind fun slot => slot.fill record value with
        | some next => readMembers slots (i :: filled) next rest
        | none => none

/-- Fills slots in order from the items of an array. -/
def readItems (record : α) : List (Slot α) → List Json → Option α
  | _, [] => some record
  | [], _ :: _ => none
  | slot :: slots, value :: values =>
    match slot.fill record value with
    | some next => readItems next slots values
    | none => none

/-- Reads a record that starts out as `record`. -/
def read? (slots : List (Slot α)) (record : α) : Json → Option α
  | .object members => readMembers slots [] record members
  | .array items => readItems record slots items
  | _ => none

end Slot

end TicketSearch
