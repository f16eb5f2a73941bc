/-
The filter that is in effect.

A filter is a query and the text it was parsed from.  A text that does not parse never
replaces the filter in effect.
-/
import TicketSearch.Query.Parser
import TicketSearch.Evaluation

namespace TicketSearch

/-- A query and its text. -/
structure Filter where
  /-- The text. -/
  source : Text
  /-- The query. -/
  query : Query
  deriving DecidableEq

namespace Filter

/-- The filter that keeps every ticket. -/
def all : Filter := ⟨[], .all⟩

/-- The filter that a text denotes. -/
def parse (source : Text) : Except ParseError Filter :=
  (Query.parse source).map (Filter.mk source)

/--
What entering a text answers, its filter or what is wrong with it, and the filter in effect
afterwards: its own, or the one before if it does not parse.
-/
def apply (current : Filter) (source : Text) : Except ParseError Filter × Filter :=
  match parse source with
  | .ok next => (.ok next, next)
  | .error error => (.error error, current)

/-- The tickets that the filter keeps, in order. -/
def select (f : Filter) (tickets : List Ticket) (now : Instant) : List Ticket :=
  f.query.select tickets now

/-- The reports of predicates whose operator is not offered for their field. -/
def warnings (f : Filter) : List Text :=
  f.query.mismatches.map Query.describeMismatch

end Filter

end TicketSearch
