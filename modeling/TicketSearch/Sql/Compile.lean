/-
Queries as SQL conditions.

The condition of a query follows its evaluation: every predicate is guarded by the
presence of its field, so that it is false, not unknown, where the column is null.
Relative dates become instants.  Two things cannot be said in SQL: an order of sprints,
which is natural order, and a literal that is no number or date where one is needed.
-/
import TicketSearch.Query
import TicketSearch.Field.Order
import TicketSearch.Sql.Condition

namespace TicketSearch

namespace Sql

/-- Why a query cannot be said in SQL. -/
inductive CompileError
  /-- An operator on a field. -/
  | unsupported (field : Field) (op : Operator)
  /-- A literal that does not denote what the field holds. -/
  | invalidValue (field : Field) (value : Literal)
  deriving DecidableEq

/-- The wording of an error. -/
def CompileError.message : CompileError → Text
  | unsupported field op =>
    "operator " ++ op.symbol ++ " on field " ++ field.name ++ " has no SQL translation"
  | invalidValue field value =>
    "value " ++ value.write ++ " is not valid for field " ++ field.name

/-- The text that a column in lower case is compared with. -/
def loweredText (value : Literal) : Text :=
  Text.lower (Text.trim value.text)

/-- The condition that a field is empty. -/
def absent (field : Field) : Condition :=
  match field.kind with
  | .enum | .ordinal | .text => .or (.isNull field) (.isBlank field)
  | .list => .or (.isNull field) (.hasNoItems field)
  | .numeric | .date => .isNull field

/-- The condition that a field is not empty. -/
def present (field : Field) : Condition :=
  .not (absent field)

/-- The lower case of a column compared with a literal. -/
def compareLowered (field : Field) (op : Comparison) (value : Literal) : Condition :=
  .compare (.lowered field) op (.text (loweredText value))

/-- An instant in a column compared with another. -/
def compareInstant (field : Field) (op : Comparison) (instant : Instant) : Condition :=
  .compare (.column field) op (.timestamp instant)

/-- The condition that an instant lies in a day. -/
def sameDay (field : Field) (day : Date) : Condition :=
  .and (compareInstant field .gtEq (Instant.startOfDay day))
    (compareInstant field .lt (Instant.startOfNextDay day))

/-- An instant in a column compared with a whole day. -/
def compareDay (field : Field) (op : Comparison) (day : Date) : Condition :=
  match op with
  | .eq => sameDay field day
  | .notEq => .not (sameDay field day)
  | .gt => compareInstant field .gtEq (Instant.startOfNextDay day)
  | .gtEq => compareInstant field .gtEq (Instant.startOfDay day)
  | .lt => compareInstant field .lt (Instant.startOfDay day)
  | .ltEq => compareInstant field .lt (Instant.startOfNextDay day)

/-- The number that a literal denotes. -/
def numberOf (field : Field) (value : Literal) : Except CompileError Float :=
  match value.number? with
  | some x => .ok x
  | none => .error (.invalidValue field value)

/-- The instant that a literal denotes. -/
def instantOf (field : Field) (value : Literal) (now : Instant) : Except CompileError Instant :=
  match value.instant? now with
  | some i => .ok i
  | none => .error (.invalidValue field value)

/-- An order on an ordinal field, as the values of its table that stand in that order. -/
def compareRank (field : Field) (op : Comparison) (value : Literal) :
    Except CompileError Condition :=
  match field.source with
  | .table values =>
    let fitting := values.filter fun candidate => (field.order? candidate value.text).any op.accepts
    .ok (if fitting.isEmpty then .constant false else .oneOf (.lowered field) (fitting.map .text))
  | .roster _ | .unlimited => .error (.unsupported field (.compare op))

/-- A comparison on a date field; a literal that names a day stands for the whole of it. -/
def compareDate (field : Field) (op : Comparison) (value : Literal) (now : Instant) :
    Except CompileError Condition :=
  match value.day? with
  | some day => .ok (compareDay field op day)
  | none => do
    let instant ← instantOf field value now
    return match op with
      | .eq => sameDay field instant.date
      | .notEq => .not (sameDay field instant.date)
      | _ => compareInstant field op instant

/-- A comparison, for a field that is not empty. -/
def compileCompare (field : Field) (op : Comparison) (value : Literal) (now : Instant) :
    Except CompileError Condition :=
  match field.kind with
  | .enum | .text =>
    .ok (if op.isOrdering then .constant false else compareLowered field op value)
  | .list =>
    .ok (if op.isOrdering then .constant false
      else if op = .notEq then .not (.hasItem field [loweredText value])
      else .hasItem field [loweredText value])
  | .ordinal =>
    if op.isOrdering then compareRank field op value else .ok (compareLowered field op value)
  | .numeric => (numberOf field value).map fun x => .compare (.column field) op (.number x)
  | .date => compareDate field op value now

/-- The conditions joined by `OR` from the left; never true without one. -/
def anyOf : List Condition → Condition
  | [] => .constant false
  | c :: cs => cs.foldl .or c

/-- The condition that an instant lies in the day that a literal names or falls on. -/
def compileDay (field : Field) (now : Instant) (value : Literal) :
    Except CompileError Condition := do
  let instant ← instantOf field value now
  return sameDay field (value.day?.getD instant.date)

/-- Membership, for a field that is not empty. -/
def compileMember (field : Field) (values : List Literal) (now : Instant) :
    Except CompileError Condition :=
  match field.kind with
  | .enum | .text | .ordinal =>
    .ok (.oneOf (.lowered field) (values.map fun v => .text (loweredText v)))
  | .numeric => do
    let numbers ← values.mapM (numberOf field)
    return .oneOf (.column field) (numbers.map .number)
  | .date => (values.mapM (compileDay field now)).map anyOf
  | .list => .ok (.hasItem field (values.map loweredText))

/-- The condition of a query. -/
def compile (now : Instant) : Query → Except CompileError Condition
  | .all => .ok (.constant true)
  | .compare field op value => do
    let leaf ← compileCompare field op value now
    return .and (present field) leaf
  | .member field negated values => do
    let leaf ← compileMember field values now
    let hit := Condition.and (present field) leaf
    return if negated then .not hit else hit
  | .empty field negated => .ok (if negated then .not (absent field) else absent field)
  | .and left right => do
    let l ← compile now left
    let r ← compile now right
    return .and l r
  | .or left right => do
    let l ← compile now left
    let r ← compile now right
    return .or l r
  | .not inner => do
    let c ← compile now inner
    return .not c

/-- The statement that selects the tickets that satisfy a query. -/
def statement (table : Text) (now : Instant) (q : Query) : Except CompileError Text :=
  (compile now q).map (Condition.select table)

end Sql

end TicketSearch
