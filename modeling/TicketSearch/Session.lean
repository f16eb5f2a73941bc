/-
A list of tickets under a filter, and what can happen to it.

A session holds the filter in effect, the tickets at hand and the moment of evaluation,
and a change replaces one of the three.  A text that does not parse changes nothing.
-/
import TicketSearch.Filter

namespace TicketSearch

/-- A list of tickets under a filter. -/
structure Session where
  /-- The filter in effect. -/
  filter : Filter
  /-- The tickets at hand. -/
  tickets : List Ticket
  /-- The moment of evaluation. -/
  now : Instant

/-- What can happen to a session. -/
inductive Change
  /-- A text is entered as a query. -/
  | enter (source : Text)
  /-- The filter is dropped. -/
  | clear
  /-- Another moment becomes the moment of evaluation. -/
  | moveTo (now : Instant)
  /-- Other tickets take the place of those at hand. -/
  | replace (tickets : List Ticket)

namespace Session

/-- A session in which no filter has been set. -/
def start (tickets : List Ticket) (now : Instant) : Session := ⟨.all, tickets, now⟩

/-- The tickets that the filter in effect keeps, in order. -/
def kept (s : Session) : List Ticket :=
  s.filter.select s.tickets s.now

/-- The session after a change. -/
def after (s : Session) : Change → Session
  | .enter source => { s with filter := (s.filter.apply source).2 }
  | .clear => { s with filter := .all }
  | .moveTo now => { s with now := now }
  | .replace tickets => { s with tickets := tickets }

/-- The session after a number of changes. -/
def afterAll (s : Session) (changes : List Change) : Session :=
  changes.foldl after s

end Session

end TicketSearch
