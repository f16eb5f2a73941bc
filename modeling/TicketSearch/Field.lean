/-
The fields of a ticket that a query can name, and the operators of the query language.

A `Field` is one of fourteen; its canonical name, aliases, kind of value and source of
suggestions are functions on it.  A name is resolved without regard to ASCII case, and no
two fields share a name.
-/
import TicketSearch.Text.Case

namespace TicketSearch

/-- What the values of a field are, which decides how they are compared. -/
inductive ValueKind
  /-- One of a closed set without an order. -/
  | enum
  /-- One of an ordered set. -/
  | ordinal
  /-- A number. -/
  | numeric
  /-- An instant, compared by day with absolute dates. -/
  | date
  /-- A list of texts, of which any one may match. -/
  | list
  /-- Free text. -/
  | text
  deriving DecidableEq

/-- A list of values that comes from the tickets at hand. -/
inductive Roster
  | statuses
  | users
  | sprints
  | labels
  deriving DecidableEq

/-- Where the values to suggest for a field come from. -/
inductive ValueSource
  /-- A fixed table; for ordinal fields it is in ascending order. -/
  | table (values : List Text)
  /-- The tickets at hand. -/
  | roster (roster : Roster)
  /-- Nowhere: any value may occur. -/
  | unlimited
  deriving DecidableEq

/-- The six operators that compare a field with one value. -/
inductive Comparison
  | eq
  | notEq
  | gt
  | lt
  | gtEq
  | ltEq
  deriving DecidableEq

namespace Comparison

/-- How the operator is typed. -/
def symbol : Comparison → Text
  | eq => "="
  | notEq => "!="
  | gt => ">"
  | lt => "<"
  | gtEq => ">="
  | ltEq => "<="

/-- The operators in the order in which they are offered. -/
def all : List Comparison := [eq, notEq, gt, lt, gtEq, ltEq]

/-- The operator that is typed so. -/
def ofSymbol? (t : Text) : Option Comparison :=
  all.find? fun op => op.symbol == t

/-- Whether the operator holds of two values that compare so, the field's value on the left. -/
def accepts : Comparison → Ordering → Bool
  | eq, o => o == .eq
  | notEq, o => o != .eq
  | gt, o => o == .gt
  | lt, o => o == .lt
  | gtEq, o => o != .lt
  | ltEq, o => o != .gt

/-- Whether the operator asks for an order. -/
def isOrdering : Comparison → Bool
  | eq | notEq => false
  | gt | lt | gtEq | ltEq => true

end Comparison

/-- An operator of the query language. -/
inductive Operator
  /-- The field compared with one value. -/
  | compare (op : Comparison)
  /-- The field is one of some values. -/
  | oneOf
  /-- The field is none of some values. -/
  | noneOf
  /-- The field has no value. -/
  | isEmpty
  /-- The field has a value. -/
  | isNotEmpty
  deriving DecidableEq

namespace Operator

/-- All operators, in the order in which they are offered. -/
def all : List Operator :=
  Comparison.all.map compare ++ [oneOf, noneOf, isEmpty, isNotEmpty]

/-- How the operator is typed. -/
def symbol : Operator → Text
  | compare op => op.symbol
  | oneOf => "IN"
  | noneOf => "NOT IN"
  | isEmpty => "IS EMPTY"
  | isNotEmpty => "IS NOT EMPTY"

/-- Whether the operator asks for an order. -/
def isOrdering : Operator → Bool
  | compare op => op.isOrdering
  | _ => false

end Operator

/-- A field of a ticket. -/
inductive Field
  | status
  | priority
  | type
  | resolution
  | assignee
  | reporter
  | sprint
  | storyPoints
  | labels
  | title
  | description
  | created
  | updated
  | dueDate
  deriving DecidableEq

namespace Field

/-- The fields in the order in which they are offered. -/
def all : List Field :=
  [status, priority, type, resolution, assignee, reporter, sprint, storyPoints, labels, title,
    description, created, updated, dueDate]

/-- The canonical name. -/
def name : Field → Text
  | status => "status"
  | priority => "priority"
  | type => "type"
  | resolution => "resolution"
  | assignee => "assignee"
  | reporter => "reporter"
  | sprint => "sprint"
  | storyPoints => "storyPoints"
  | labels => "labels"
  | title => "title"
  | description => "description"
  | created => "created"
  | updated => "updated"
  | dueDate => "dueDate"

/-- The other names that the field answers to. -/
def aliases : Field → List Text
  | type => ["issuetype"]
  | storyPoints => ["points"]
  | labels => ["label"]
  | title => ["summary"]
  | dueDate => ["due"]
  | _ => []

/-- Every name of the field, the canonical one first. -/
def names (f : Field) : List Text :=
  f.name :: f.aliases

/-- What the values of the field are. -/
def kind : Field → ValueKind
  | status | type | resolution => .enum
  | priority | sprint => .ordinal
  | storyPoints => .numeric
  | created | updated | dueDate => .date
  | labels => .list
  | assignee | reporter | title | description => .text

/-- Where the field's values come from. -/
def source : Field → ValueSource
  | status => .roster .statuses
  | priority => .table ["lowest", "low", "medium", "high", "highest"]
  | type => .table ["bug", "task", "story", "epic", "subtask"]
  | resolution => .table ["done", "fixed", "won't fix", "duplicate", "cannot reproduce"]
  | assignee | reporter => .roster .users
  | sprint => .roster .sprints
  | labels => .roster .labels
  | storyPoints | title | description | created | updated | dueDate => .unlimited

/-- The fixed values of the field, if it has a table of them. -/
def tableValues (f : Field) : List Text :=
  match f.source with
  | .table values => values
  | .roster _ | .unlimited => []

/-- The operators offered for the field; queries may use the others too. -/
def operators (f : Field) : List Operator :=
  match f.kind with
  | .enum => [.compare .eq, .compare .notEq, .oneOf, .noneOf]
  | .ordinal | .numeric | .date => Operator.all
  | .list | .text => [.compare .eq, .compare .notEq, .oneOf, .noneOf, .isEmpty, .isNotEmpty]

/-- Whether an operator is offered for the field. -/
def supports (f : Field) (op : Operator) : Bool :=
  f.operators.contains op

/-- The field with a name, without regard to ASCII case. -/
def resolve? (name : Text) : Option Field :=
  all.find? fun f => f.names.any (Text.sameIgnoringAsciiCase · name)

end Field

end TicketSearch
