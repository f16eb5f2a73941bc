/-
The command line: from arguments, files and standard input to output and exit code.

With a query the tickets that satisfy it are listed; without one the prompt answers the
lines of standard input.  Nothing here touches the system: the contents of files and the
lines of input are given.
-/
import TicketSearch.Catalog
import TicketSearch.Prompt

namespace TicketSearch

/-- The arguments of the command line. -/
structure Arguments where
  /-- The file of tickets. -/
  tickets : Option Text
  /-- The file of values to suggest. -/
  values : Option Text
  /-- The moment of evaluation. -/
  now : Option Instant
  /-- The query to run once. -/
  query : Option Text
  deriving DecidableEq

/-- What is found under the name of a file. -/
inductive FileContent
  | missing
  /-- The bytes are no UTF-8. -/
  | notText
  | text (content : Text)
  deriving DecidableEq

/-- Why the command line fails. -/
inductive Failure
  /-- The arguments make no sense. -/
  | usage
  | ticketsUnreadable (file : Text) (content : FileContent)
  | ticketsMalformed (file : Text)
  | valuesUnreadable (file : Text) (content : FileContent)
  | valuesMalformed (file : Text)
  /-- Sorting the sprints on the tickets breaks off. -/
  | sprintsUnsortable
  /-- The query does not parse. -/
  | badQuery (source : Text) (error : ParseError)
  deriving DecidableEq

/-- What the command line writes and how it ends. -/
structure Outcome where
  /-- The exit code. -/
  code : Nat
  /-- What goes to standard output. -/
  output : Text
  /-- What goes to standard error. -/
  errors : Text
  deriving DecidableEq

namespace Arguments

/-- No arguments. -/
def blank : Arguments := ⟨none, none, none, none⟩

/-- Sets an option; none when there is no such option, it is set already or the
value does not fit. -/
def set? (a : Arguments) (option value : Text) : Option Arguments :=
  if option = "--tickets" ∧ a.tickets = none then some { a with tickets := some value }
  else if option = "--values" ∧ a.values = none then some { a with values := some value }
  else if option = "--now" ∧ a.now = none then
    (Instant.read? .relaxed value).map fun now => { a with now := some now }
  else none

/-- Sets the query; none when there is one already. -/
def setQuery? (a : Arguments) (value : Text) : Option Arguments :=
  if a.query = none then some { a with query := some value } else none

/-- Whether an argument is an option or a mark, and not a value. -/
def isOption : Text → Bool
  | '-' :: _ :: _ => true
  | _ => false

/-- Reads arguments; all after `--` are queries.  An option's value follows it
or an equals sign in it. -/
def read? (a : Arguments) : List Text → Option Arguments
  | [] => some a
  | argument :: rest =>
    if argument = "--" then rest.foldlM setQuery? a
    else if isOption argument then
      let name := argument.takeWhile (· != '=')
      match argument.dropWhile (· != '='), rest with
      | _ :: value, rest => (a.set? name value).bind fun a => read? a rest
      | [], value :: rest =>
        if isOption value then none else (a.set? name value).bind fun a => read? a rest
      | [], [] => none
    else (a.setQuery? argument).bind fun a => read? a rest

end Arguments

/-- Why the content of a file cannot be read. -/
def FileContent.fault : FileContent → Text
  | missing => "No such file or directory (os error 2)"
  | notText | text _ => "stream did not contain valid UTF-8"

/-- The wording of a failure, and of its cause if it has one. -/
def Failure.describe : Failure → Text × Option Text
  | usage => ("invalid arguments", none)
  | ticketsUnreadable file content => ("failed to read tickets from " ++ file, some content.fault)
  | ticketsMalformed file =>
    ("failed to parse tickets in " ++ file, some "not a JSON array of tickets")
  | valuesUnreadable file content =>
    ("cannot read " ++ file ++ ": " ++ content.fault, some content.fault)
  | valuesMalformed file =>
    ("cannot parse " ++ file ++ ": not a JSON catalog of values",
      some "not a JSON catalog of values")
  | sprintsUnsortable =>
    ("user-provided comparison function does not correctly implement a total order", none)
  | badQuery source error => (renderError source error, none)

/-- The exit code of a failure. -/
def Failure.code : Failure → Nat
  | usage => 2
  | sprintsUnsortable => 101
  | ticketsUnreadable .. | ticketsMalformed _ | valuesUnreadable .. | valuesMalformed _
  | badQuery .. => 1

/-- The outcome of a failure; one that nothing reports has its message alone. -/
def Failure.outcome (f : Failure) : Outcome :=
  let (message, cause) := f.describe
  let start : Text := if f = .sprintsUnsortable then [] else "Error: "
  let reason : Text :=
    match cause with
    | some cause => "\n\nCaused by:\n    " ++ cause
    | none => []
  ⟨f.code, [], start ++ message ++ reason ++ "\n"⟩

/-- Lines, each with its end. -/
def unlines (lines : List Text) : Text :=
  lines.flatMap (· ++ ['\n'])

/-- A line without a carriage return at its end. -/
def dropReturn (line : Text) : Text :=
  if line.getLast? = some '\r' then line.dropLast else line

/--
The lines of an input that starts with the line `current`, reversed.  What comes after the
last line feed counts as a line only if there is something.
-/
def linesFrom (current : Text) : Text → List Text
  | [] => if current = [] then [] else [current.reverse]
  | c :: cs =>
    if c = '\n' then dropReturn current.reverse :: linesFrom [] cs
    else linesFrom (c :: current) cs

/-- The lines of an input. -/
def inputLines (input : Text) : List Text :=
  linesFrom [] input

/-- The tickets of a file. -/
def loadTickets (file : Text) (content : FileContent) : Except Failure (List Ticket) :=
  match content with
  | .text t => (Ticket.listOfText? t).elim (.error (.ticketsMalformed file)) .ok
  | .missing | .notText => .error (.ticketsUnreadable file content)

/-- The catalog of a file. -/
def loadCatalog (file : Text) (content : FileContent) : Except Failure Catalog :=
  match content with
  | .text t => (Catalog.ofText? t).elim (.error (.valuesMalformed file)) .ok
  | .missing | .notText => .error (.valuesUnreadable file content)

/-- The catalog of the values on tickets. -/
def collectCatalog (tickets : List Ticket) : Except Failure Catalog :=
  (Catalog.collect? tickets).elim (.error .sprintsUnsortable) .ok

/-- Runs the command line on arguments that make sense. -/
def Arguments.run (a : Arguments) (contentOf : Text → FileContent) (input : Text) (now : Instant) :
    Except Failure Outcome := do
  let tickets ← a.tickets.elim (.ok []) fun file => loadTickets file (contentOf file)
  let _ ← a.values.elim (collectCatalog tickets) fun file => loadCatalog file (contentOf file)
  match a.query with
  | some source =>
    match Filter.parse source with
    | .error error => .error (.badQuery source error)
    | .ok filter =>
      .ok ⟨0, unlines (ticketLines (filter.select tickets now)),
        unlines (filter.warnings.map warningLine)⟩
  | none =>
    .ok ⟨0,
      unlines (greeting tickets :: (transcript (.start tickets now) (inputLines input)).flatten),
      []⟩

/-- Runs the command line; `clock` is the moment of evaluation when none is given. -/
def runCommandLine (arguments : List Text) (contentOf : Text → FileContent) (input : Text)
    (clock : Instant) : Outcome :=
  match Arguments.blank.read? arguments with
  | none => Failure.usage.outcome
  | some a =>
    match a.run contentOf input (a.now.getD clock) with
    | .ok outcome => outcome
    | .error failure => failure.outcome

end TicketSearch
