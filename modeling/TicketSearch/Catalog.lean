/-
The values to suggest for fields whose values come from the tickets at hand.

A catalog is read from a file or collected from tickets.  A collected list holds each
value once, without regard to case and as it is first spelled, and is sorted: sprints in
natural order, the others by their lower-case text.  Natural order is not an order on all
names, so that many sprints may end up in any order, or there may be no catalog at all.
-/
import TicketSearch.Field.Order
import TicketSearch.Sorting
import TicketSearch.Ticket

namespace TicketSearch

/-- The values of each roster. -/
structure Catalog where
  statuses : List Text
  users : List Text
  sprints : List Text
  labels : List Text
  deriving DecidableEq

namespace Catalog

/-- The catalog without values. -/
def blank : Catalog := ⟨[], [], [], []⟩

/-- The values of a roster. -/
def values (c : Catalog) : Roster → List Text
  | .statuses => c.statuses
  | .users => c.users
  | .sprints => c.sprints
  | .labels => c.labels

/-- The values whose lower case is none of `seen`, each once. -/
def firstSpellings (seen : List Text) : List Text → List Text
  | [] => []
  | value :: rest =>
    if seen.contains (Text.lower value) then firstSpellings seen rest
    else value :: firstSpellings (Text.lower value :: seen) rest

/-- The values that are not blank, trimmed, each once, sorted by their lower case. -/
def distinct (values : List Text) : List Text :=
  let trimmed := (values.map Text.trim).filter fun value => !value.isEmpty
  insertionSort (fun a b => compare (Text.lower a) (Text.lower b) == .lt)
    (firstSpellings [] trimmed)

/-- The values that occur on tickets, when sorting the sprints comes to what insertion gives. -/
def ofTickets (tickets : List Ticket) : Catalog where
  statuses := distinct (tickets.filterMap Ticket.status)
  users := distinct (tickets.flatMap fun t => t.assignee.toList ++ t.reporter.toList)
  sprints :=
    insertionSort (fun a b => naturalOrder a b == .lt) (distinct (tickets.filterMap Ticket.sprint))
  labels := distinct (tickets.flatMap Ticket.labels)

/-- The sprints on tickets, not yet in natural order. -/
def sprintNames (tickets : List Ticket) : List Text :=
  distinct (tickets.filterMap Ticket.sprint)

/-- What collecting the values on tickets may come to; none where sorting the sprints breaks off. -/
def Collecting (tickets : List Ticket) (outcome : Option Catalog) : Prop :=
  ∃ sorted, Sorting (fun a b => naturalOrder a b == .lt) (sprintNames tickets) sorted ∧
    outcome = sorted.map fun sprints => { ofTickets tickets with sprints := sprints }

/-- Collects the values on tickets, and breaks off where it is not certain what they come to. -/
def collect? (tickets : List Ticket) : Option Catalog :=
  (sort? (fun a b => naturalOrder a b == .lt) (sprintNames tickets)).map fun sprints =>
    { ofTickets tickets with sprints := sprints }

/-- A slot for a list of texts. -/
def slot (name : Text) (set : Catalog → List Text → Catalog) : Slot Catalog :=
  ⟨[name], fun c value => (Json.list? Json.text? value).map (set c)⟩

/-- The slots of a catalog, in the order of its array form. -/
def slots : List (Slot Catalog) :=
  [slot "statuses" fun c v => { c with statuses := v },
    slot "users" fun c v => { c with users := v },
    slot "sprints" fun c v => { c with sprints := v },
    slot "labels" fun c v => { c with labels := v }]

/-- Reads a catalog. -/
def ofJson? (j : Json) : Option Catalog :=
  Slot.read? slots blank j

/-- Reads a file that holds a catalog. -/
def ofText? (content : Text) : Option Catalog :=
  (Json.read? content).bind ofJson?

end Catalog

end TicketSearch
