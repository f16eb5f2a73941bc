/-
Queries as trees, and their canonical text.

The canonical text names fields by their canonical names, writes keywords in upper case
and puts every `AND` and `OR` in parentheses.
-/
import TicketSearch.Literal
import TicketSearch.Field

namespace TicketSearch

/-- A query. -/
inductive Query
  /-- The empty query, which every ticket satisfies. -/
  | all
  /-- A field compared with a value. -/
  | compare (field : Field) (op : Comparison) (value : Literal)
  /-- A field is one, or if `negated` none, of some values. -/
  | member (field : Field) (negated : Bool) (values : List Literal)
  /-- A field has no value, or if `negated` has one. -/
  | empty (field : Field) (negated : Bool)
  | and (left right : Query)
  | or (left right : Query)
  | not (inner : Query)
  deriving DecidableEq

namespace Query

/-- The values of a list, separated by commas. -/
def writeValues : List Literal → Text
  | [] => []
  | [value] => value.write
  | value :: values => value.write ++ ", " ++ writeValues values

/-- The canonical text. -/
def write : Query → Text
  | all => []
  | compare field op value => field.name ++ ' ' :: op.symbol ++ ' ' :: value.write
  | member field negated values =>
    field.name ++ (if negated then " NOT IN (" else " IN (") ++ writeValues values ++ ")"
  | empty field negated => field.name ++ (if negated then " IS NOT EMPTY" else " IS EMPTY")
  | and left right => "(" ++ left.write ++ " AND " ++ right.write ++ ")"
  | or left right => "(" ++ left.write ++ " OR " ++ right.write ++ ")"
  | not inner => "NOT " ++ inner.write

/-- The field and the operator of every predicate, from left to right. -/
def predicates : Query → List (Field × Operator)
  | all => []
  | compare field op _ => [(field, .compare op)]
  | member field negated _ => [(field, if negated then .noneOf else .oneOf)]
  | empty field negated => [(field, if negated then .isNotEmpty else .isEmpty)]
  | and left right | or left right => left.predicates ++ right.predicates
  | not inner => inner.predicates

/-- The predicates whose operator is not offered for their field, from left to right. -/
def mismatches (q : Query) : List (Field × Operator) :=
  q.predicates.filter fun p => !p.1.supports p.2

/-- How a mismatch is reported. -/
def describeMismatch (p : Field × Operator) : Text :=
  "operator " ++ p.2.symbol ++ " is not supported for field " ++ p.1.name

/-- Whether two queries are the same; numbers are compared as numbers. -/
def same : Query → Query → Bool
  | all, all => true
  | compare f op v, compare g op' w => f == g && op == op' && v.same w
  | member f n vs, member g m ws =>
    f == g && n == m && vs.length == ws.length && (vs.zip ws).all fun p => p.1.same p.2
  | empty f n, empty g m => f == g && n == m
  | and l r, and l' r' => l.same l' && r.same r'
  | or l r, or l' r' => l.same l' && r.same r'
  | not q, not q' => q.same q'
  | _, _ => false

end Query

end TicketSearch
