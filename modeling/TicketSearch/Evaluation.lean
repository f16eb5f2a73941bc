/-
Evaluating a query on a row.

Evaluation always has an answer.  A field and a literal that cannot be compared do not
match, nor does an operator that the kind of the field has no meaning for; an empty field
fails every comparison, `!=` too, and is in no list.
-/
import TicketSearch.Query
import TicketSearch.Field.Order
import TicketSearch.Ticket

namespace TicketSearch

/-- The order of two numbers; none when one of them is NaN. -/
def compareFloats? (x y : Float) : Option Ordering :=
  if x == y then some .eq
  else if x < y then some .lt
  else if y < x then some .gt
  else none

/-- The day that a literal means for equality: the day it names, or the day of its instant. -/
def Literal.meantDay? (value : Literal) (now : Instant) : Option Date :=
  value.day?.or ((value.instant? now).map Instant.date)

/-- Whether a cell equals a literal; none when the two cannot be compared. -/
def equal? (field : Field) (actual : Cell) (value : Literal) (now : Instant) : Option Bool :=
  match field.kind, actual with
  | .enum, .text text | .text, .text text => some (Text.sameValue text value.text)
  | .ordinal, .text text =>
    match field.order? text value.text with
    | some ordering => some (ordering == .eq)
    | none => some (Text.sameValue text value.text)
  | .numeric, .number x => value.number?.map (x == ·)
  | .date, .date instant => (value.meantDay? now).map (instant.date == ·)
  | .list, .list items => some (items.any (Text.sameValue · value.text))
  | _, _ => none

/--
How a cell is ordered relative to a literal; none when there is no such order.  A literal
that names a day is compared with the day of the cell, any other with its instant.
-/
def order? (field : Field) (actual : Cell) (value : Literal) (now : Instant) : Option Ordering :=
  match field.kind, actual with
  | .ordinal, .text text => field.order? text value.text
  | .numeric, .number x => value.number?.bind (compareFloats? x)
  | .date, .date instant =>
    match value.day? with
    | some day => some (compare instant.date day)
    | none => (value.instant? now).map (compare instant)
  | _, _ => none

/-- Whether a comparison holds of a cell. -/
def holds (field : Field) (op : Comparison) (actual : Cell) (value : Literal) (now : Instant) :
    Bool :=
  !actual.isEmpty &&
    match op with
    | .eq => equal? field actual value now == some true
    | .notEq => equal? field actual value now == some false
    | _ => (order? field actual value now).any op.accepts

namespace Query

/-- Whether a row satisfies a query; relative dates count back from `now`. -/
def eval (row : Row) (now : Instant) : Query → Bool
  | all => true
  | compare field op value => holds field op (row field) value now
  | member field negated values =>
    (!(row field).isEmpty && values.any fun value =>
      equal? field (row field) value now == some true)
      != negated
  | empty field negated => (row field).isEmpty != negated
  | and left right => left.eval row now && right.eval row now
  | or left right => left.eval row now || right.eval row now
  | not inner => !inner.eval row now

/-- The items whose rows satisfy a query, in order. -/
def keep {α : Type} (q : Query) (row : α → Row) (items : List α) (now : Instant) : List α :=
  items.filter fun item => q.eval (row item) now

/-- The tickets that satisfy a query, in order. -/
def select (q : Query) (tickets : List Ticket) (now : Instant) : List Ticket :=
  q.keep Ticket.row tickets now

end Query

end TicketSearch
