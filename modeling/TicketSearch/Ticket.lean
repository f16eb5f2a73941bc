/-
Tickets, and the value that a field has on one.

The evaluator sees a ticket as a row: a function from fields to cells.  Anything else that
can be seen so can be searched too.
-/
import TicketSearch.Field
import TicketSearch.Calendar.Written
import TicketSearch.Json.Record

namespace TicketSearch

/-- The value of a field on a ticket. -/
inductive Cell
  | missing
  | text (value : Text)
  | number (value : Float)
  | date (value : Instant)
  | list (values : List Text)
  deriving DecidableEq

/-- Missing values, blank texts and lists without items are empty. -/
def Cell.isEmpty : Cell → Bool
  | missing => true
  | text value => (Text.trim value).isEmpty
  | list values => values.isEmpty
  | number _ | date _ => false

/-- What a query is evaluated on. -/
abbrev Row := Field → Cell

/-- A ticket. -/
structure Ticket where
  id : Option Text
  title : Option Text
  description : Option Text
  status : Option Text
  priority : Option Text
  type : Option Text
  resolution : Option Text
  assignee : Option Text
  reporter : Option Text
  sprint : Option Text
  storyPoints : Option Float
  labels : List Text
  created : Option Instant
  updated : Option Instant
  dueDate : Option Instant
  deriving DecidableEq

namespace Ticket

/-- The ticket of which nothing is known. -/
def blank : Ticket :=
  ⟨none, none, none, none, none, none, none, none, none, none, none, [], none, none, none⟩

/-- The cell of a text that may be missing. -/
def textCell (value : Option Text) : Cell :=
  value.elim .missing .text

/-- The cell of an instant that may be missing. -/
def dateCell (value : Option Instant) : Cell :=
  value.elim .missing .date

/-- The value of each field. -/
def row (t : Ticket) : Row
  | .status => textCell t.status
  | .priority => textCell t.priority
  | .type => textCell t.type
  | .resolution => textCell t.resolution
  | .assignee => textCell t.assignee
  | .reporter => textCell t.reporter
  | .sprint => textCell t.sprint
  | .storyPoints => t.storyPoints.elim .missing .number
  | .labels => .list t.labels
  | .title => textCell t.title
  | .description => textCell t.description
  | .created => dateCell t.created
  | .updated => dateCell t.updated
  | .dueDate => dateCell t.dueDate

/-- An instant in the relaxed written form. -/
def instantOfJson? (j : Json) : Option Instant :=
  j.text?.bind (Instant.read? .relaxed)

/-- A label is a record with a name, which it must have. -/
def labelOfJson? (j : Json) : Option Text :=
  (Slot.read? [⟨["name"], fun _ value => value.text?.map some⟩] (none : Option Text) j).join

/-- A slot for a text that may be missing. -/
def textSlot (names : List Text) (set : Ticket → Option Text → Ticket) : Slot Ticket :=
  ⟨names, fun t value => (Json.optional? Json.text? value).map (set t)⟩

/-- A slot for an instant that may be missing. -/
def instantSlot (name : Text) (set : Ticket → Option Instant → Ticket) : Slot Ticket :=
  ⟨[name], fun t value => (Json.optional? instantOfJson? value).map (set t)⟩

/-- The slots of a ticket, in the order of its array form. -/
def slots : List (Slot Ticket) :=
  [textSlot ["id"] fun t v => { t with id := v },
    textSlot ["title"] fun t v => { t with title := v },
    textSlot ["description"] fun t v => { t with description := v },
    textSlot ["status"] fun t v => { t with status := v },
    textSlot ["priority"] fun t v => { t with priority := v },
    textSlot ["type"] fun t v => { t with type := v },
    textSlot ["resolution"] fun t v => { t with resolution := v },
    textSlot ["assignee", "assigneeId"] fun t v => { t with assignee := v },
    textSlot ["reporter", "reporterId"] fun t v => { t with reporter := v },
    textSlot ["sprint"] fun t v => { t with sprint := v },
    ⟨["storyPoints"], fun t value =>
      (Json.optional? Json.float? value).map fun v => { t with storyPoints := v }⟩,
    ⟨["labels"],
      fun t value => (Json.list? labelOfJson? value).map fun v => { t with labels := v }⟩,
    instantSlot "created" fun t v => { t with created := v },
    instantSlot "updated" fun t v => { t with updated := v },
    instantSlot "dueDate" fun t v => { t with dueDate := v }]

/-- Reads a ticket. -/
def ofJson? (j : Json) : Option Ticket :=
  Slot.read? slots blank j

/-- Reads a file of tickets: a JSON array of them. -/
def listOfText? (content : Text) : Option (List Ticket) :=
  (Json.read? content).bind (Json.list? ofJson?)

end Ticket

end TicketSearch
