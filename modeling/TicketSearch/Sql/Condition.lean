/-
SQL conditions on the table of tickets, and their text.

A row of the table is a ticket: text columns for text, `double precision` for story
points, `timestamptz` for dates, and an array of text for labels.  A `Condition` is the
tree of what stands after `WHERE`; its text is PostgreSQL.

An operand of `AND`, `OR` and `NOT` stands in parentheses, unless it is a constant, a
comparison, an `IN` or an `IS NULL`, or it is the left operand of its own connective.
-/
import TicketSearch.Field
import TicketSearch.Decimal.Shortest
import TicketSearch.Calendar.Written

namespace TicketSearch

/-- The column of a field. -/
def Field.column : Field → Text
  | .storyPoints => "story_points"
  | .dueDate => "due_date"
  | f => f.name

namespace Sql

/-- A constant in a condition. -/
inductive Value
  | text (t : Text)
  | number (x : Float)
  | timestamp (i : Instant)
  deriving DecidableEq

/-- What stands on the left of a comparison. -/
inductive Operand
  | column (field : Field)
  /-- The lower case of a column. -/
  | lowered (field : Field)
  deriving DecidableEq

/-- A condition on a row. -/
inductive Condition
  | constant (b : Bool)
  /-- The column has no value. -/
  | isNull (field : Field)
  /-- The column holds nothing but spaces. -/
  | isBlank (field : Field)
  /-- The array in the column has no items. -/
  | hasNoItems (field : Field)
  /-- The lower case of an item of the array in the column is one of some texts. -/
  | hasItem (field : Field) (values : List Text)
  | compare (operand : Operand) (op : Comparison) (value : Value)
  | oneOf (operand : Operand) (values : List Value)
  | and (left right : Condition)
  | or (left right : Condition)
  | not (inner : Condition)
  deriving DecidableEq

/-- The name of a table or column, in double quotes; a double quote in it is written twice. -/
def writeName (name : Text) : Text :=
  '"' :: name.flatMap (fun c => if c = '"' then ['"', '"'] else [c]) ++ ['"']

/-- A character of a text constant, with a backslash where it needs one. -/
def escapeChar (c : Char) : Text :=
  match [('\\', '\\'), ('"', '"'), ('\x27', '\x27'), ('\x00', '0'), ('\x08', 'b'), ('\t', 't'),
    ('\x1a', 'z'), ('\n', 'n'), ('\r', 'r')].lookup c with
  | some letter => ['\\', letter]
  | none => [c]

/-- A text constant; one with a backslash is marked as holding escapes. -/
def writeText (t : Text) : Text :=
  let escaped := t.flatMap escapeChar
  (if escaped.contains '\\' then "E'" else "'") ++ escaped ++ "'"

/-- Parts of a list, separated by commas. -/
def commaSeparated : List Text → Text
  | [] => []
  | [part] => part
  | part :: parts => part ++ ", " ++ commaSeparated parts

/-- The text of a constant. -/
def Value.write : Value → Text
  | text t => writeText t
  | number x => writeFloat x
  | timestamp i => writeText i.write

/-- The text of what stands on the left of a comparison. -/
def Operand.write : Operand → Text
  | column f => writeName f.column
  | lowered f => "LOWER(" ++ writeName f.column ++ ")"

/-- How a comparison is written. -/
def comparisonSign : Comparison → Text
  | .notEq => "<>"
  | op => op.symbol

namespace Condition

/-- The connectives that bring their operands into parentheses. -/
inductive Connective
  | and
  | or
  | not
  deriving DecidableEq

/-- Whether a condition stands in parentheses as an operand; `left` tells
whether it is the left one. -/
def needsParens (outer : Connective) (left : Bool) : Condition → Bool
  | constant _ | compare .. | oneOf .. | isNull _ => false
  | and _ _ => !(left && outer == .and)
  | or _ _ => !(left && outer == .or)
  | not _ | isBlank _ | hasNoItems _ | hasItem .. => true

/-- A text in parentheses, if they are needed. -/
def parenthesize (needed : Bool) (t : Text) : Text :=
  if needed then "(" ++ t ++ ")" else t

/-- The text of a condition. -/
def write : Condition → Text
  | constant b => if b then "TRUE" else "FALSE"
  | isNull f => writeName f.column ++ " IS NULL"
  | isBlank f => "TRIM(" ++ writeName f.column ++ ") = ''"
  | hasNoItems f => "cardinality(" ++ writeName f.column ++ ") = 0"
  | hasItem f values =>
    "EXISTS (SELECT 1 FROM unnest(" ++ writeName f.column ++ ") AS label WHERE LOWER(label) IN (" ++
      commaSeparated (values.map writeText) ++ "))"
  | compare operand op value => operand.write ++ ' ' :: comparisonSign op ++ ' ' :: value.write
  | oneOf operand values =>
    if values.isEmpty then "1 = 2"
    else operand.write ++ " IN (" ++ commaSeparated (values.map Value.write) ++ ")"
  | and left right =>
    parenthesize (left.needsParens .and true) left.write ++ " AND " ++
      parenthesize (right.needsParens .and false) right.write
  | or left right =>
    parenthesize (left.needsParens .or true) left.write ++ " OR " ++
      parenthesize (right.needsParens .or false) right.write
  | not inner => "NOT " ++ parenthesize (inner.needsParens .not false) inner.write

/-- The statement that selects the rows of a table that satisfy the condition. -/
def select (table : Text) (c : Condition) : Text :=
  "SELECT * FROM " ++ writeName table ++ " WHERE " ++ c.write

end Condition

end Sql

end TicketSearch
