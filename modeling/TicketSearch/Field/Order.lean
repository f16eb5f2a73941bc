/-
The order of the values of ordinal fields.

A field with a table of values is ordered by the table.  Other values are in natural
order: names that differ only in the number they end in are ordered by that number, so
that `Sprint 2` comes before `Sprint 10`, and all others by their lower-case text.
-/
import TicketSearch.Field
import TicketSearch.Decimal

namespace TicketSearch

/-- A name taken apart into the lower-case text before a number at its end, and that number. -/
structure NumberedName where
  /-- The text before the digits, without blanks around it, in lower case. -/
  stem : Text
  /-- The number at the end, when it has digits and fits into 64 bits. -/
  number : Option Nat

namespace NumberedName

/-- The digits at the end of a text. -/
def digitsAtEnd (t : Text) : Text :=
  (t.reverse.takeWhile Char.isDigit).reverse

/-- Takes a name apart. -/
def of (name : Text) : NumberedName :=
  let trimmed := Text.trim name
  let digits := digitsAtEnd trimmed
  if digits = [] then ⟨Text.lower trimmed, none⟩
  else
    ⟨Text.lower (Text.trimEnd (trimmed.take (trimmed.length - digits.length))),
      if digitsValue digits < UInt64.size then some (digitsValue digits) else none⟩

end NumberedName

/-- Natural order: by the numbers at the end when all else agrees, otherwise by lower-case text. -/
def naturalOrder (left right : Text) : Ordering :=
  let a := NumberedName.of left
  let b := NumberedName.of right
  match a.number, b.number with
  | some m, some n =>
    if a.stem = b.stem then compare m n
    else compare (Text.lower (Text.trim left)) (Text.lower (Text.trim right))
  | _, _ => compare (Text.lower (Text.trim left)) (Text.lower (Text.trim right))

/-- The place of a value in a table, without regard to blanks at the ends and to ASCII case. -/
def rank? (table : List Text) (value : Text) : Option Nat :=
  table.findIdx? fun candidate => Text.sameIgnoringAsciiCase candidate (Text.trim value)

/-- Orders two values of a field; `none` when the field has a table and a value is not in it. -/
def Field.order? (f : Field) (left right : Text) : Option Ordering :=
  match f.source with
  | .table values => do
    let l ← rank? values left
    let r ← rank? values right
    return compare l r
  | .roster _ | .unlimited => some (naturalOrder left right)

end TicketSearch
