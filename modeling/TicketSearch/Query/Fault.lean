/-
What can be wrong with a query.

A `Fault` is the cause of a rejection; `Fault.message` is the one place where causes are
put into words.  A `ParseError` adds the byte offset at which the fault is reported, if
there is one.
-/
import TicketSearch.Token
import TicketSearch.Field

namespace TicketSearch

/-- Why a query is rejected. -/
inductive Fault
  /-- A pair of parentheses without anything between. -/
  | emptyGroup
  /-- An `IN` list without a value. -/
  | emptyValueList
  /-- A name in the place of a field that no field has. -/
  | unknownField (name : Text)
  /-- A quote that is never closed, in the place of a field. -/
  | unterminatedString
  /-- A character that starts no token, in the place of a field. -/
  | unexpectedCharacter (found : Found)
  /-- A comparison sign that is none of the six. -/
  | unknownOperator (sign : Text)
  /-- `EMPTY` after an operator that asks for an order. -/
  | emptyCompared (op : Comparison)
  | invalidNumber (text : Text)
  | invalidDate (text : Text)
  | invalidRelativeDate (text : Text)
  | fieldExpected (found : Found)
  | operatorExpected (fieldName : Text) (found : Found)
  | inExpected (found : Found)
  | listExpected (found : Found)
  | emptyExpected (found : Found)
  /-- No value after an operator or a comma, or at the start of a list. -/
  | valueExpected (after : Option Text) (found : Found)
  | listEndExpected (found : Found)
  | groupEndExpected (found : Found)
  | connectiveExpected (found : Found)
  /-- A closing parenthesis that closes nothing. -/
  | nothingToClose (found : Found)
  deriving DecidableEq

/-- The wording of a fault. -/
def Fault.message : Fault → Text
  | emptyGroup => "Empty parentheses"
  | emptyValueList => "IN list must contain at least one value"
  | unknownField name => "Unknown field '" ++ name ++ "'"
  | unterminatedString => "Unterminated string literal"
  | unexpectedCharacter found => "Unexpected character " ++ found.describe
  | unknownOperator sign => "Unknown operator '" ++ sign ++ "'"
  | emptyCompared op => "EMPTY cannot be compared with '" ++ op.symbol ++ "'"
  | invalidNumber text => "Invalid number '" ++ text ++ "'"
  | invalidDate text => "Invalid date '" ++ text ++ "'"
  | invalidRelativeDate text => "Invalid relative date '" ++ text ++ "'"
  | fieldExpected found => "Expected a field name, found " ++ found.describe
  | operatorExpected fieldName found =>
    "Expected an operator after '" ++ fieldName ++ "', found " ++ found.describe
  | inExpected found => "Expected IN after NOT, found " ++ found.describe
  | listExpected found => "Expected '(' after IN, found " ++ found.describe
  | emptyExpected found => "Expected EMPTY after IS, found " ++ found.describe
  | valueExpected none found => "Expected a value, found " ++ found.describe
  | valueExpected (some after) found =>
    "Expected a value after '" ++ after ++ "', found " ++ found.describe
  | listEndExpected found => "Expected ',' or ')' in IN list, found " ++ found.describe
  | groupEndExpected found => "Missing closing parenthesis, found " ++ found.describe
  | connectiveExpected found => "Expected AND or OR before " ++ found.describe
  | nothingToClose found => "Unexpected " ++ found.describe

/-- A fault and the byte offset at which it is reported; none when the tokens ran out. -/
structure ParseError where
  /-- What is wrong. -/
  fault : Fault
  /-- Where it is reported. -/
  position : Option Nat
  deriving DecidableEq

end TicketSearch
