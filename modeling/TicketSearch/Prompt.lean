/-
The prompt: one line in, some lines out.

A line that starts with a colon is a command; any other line is a query, which becomes
the filter in effect when it parses.  Nothing else outlives a line.
-/
import TicketSearch.Display
import TicketSearch.Session
import TicketSearch.Sql.Compile

namespace TicketSearch

/-- The lines of the answer to `:help`. -/
def helpLines : List Text :=
  ["Enter a query to filter the loaded tickets, e.g.",
    "  priority >= high AND type = bug",
    "  labels IN (frontend, \"needs review\") AND created > -14d",
    "  assignee IS EMPTY OR NOT status = done",
    "",
    "Commands:",
    "  :tokens <query>   show the token stream",
    "  :ast <query>      show the parsed query in canonical form",
    "  :sql <query>      show the PostgreSQL translation",
    "  :clear            drop the active filter",
    "  :help             show this help",
    "  :quit             exit",
    "",
    "Press TAB to complete fields, operators and values."]

/-- What a line asks for. -/
inductive Command
  /-- Nothing: the line is blank. -/
  | idle
  | quit
  | help
  | clear
  | tokens (query : Text)
  | canonical (query : Text)
  | sql (query : Text)
  /-- A command that does not exist. -/
  | unknown (name : Text)
  | query (source : Text)
  deriving DecidableEq

namespace Command

/-- What a line asks for.  A command's name ends at the first space. -/
def ofLine (line : Text) : Command :=
  let line := Text.trim line
  let name := line.takeWhile (· != ' ')
  let rest := line.drop (name.length + 1)
  if line = [] then idle
  else if name = ":quit" ∨ name = ":q" then quit
  else if name = ":help" then help
  else if name = ":clear" then clear
  else if name = ":tokens" then tokens rest
  else if name = ":ast" then canonical rest
  else if name = ":sql" then sql rest
  else if name.head? = some ':' then unknown name
  else query line

end Command

/-- The name of the table that statements are shown for. -/
def defaultTable : Text := "tickets"

/-- The statement for a query, or what is wrong with it. -/
def sqlAnswer (now : Instant) (source : Text) : Text :=
  match Query.parse source with
  | .error error => renderError source error
  | .ok query =>
    match Sql.statement defaultTable now query with
    | .error error => error.message
    | .ok statement => statement

/-- The canonical text of a query, or what is wrong with it. -/
def canonicalAnswer (source : Text) : Text :=
  match Query.parse source with
  | .error error => renderError source error
  | .ok query => query.write

/-- The line that tells how many tickets the filter keeps that stays in effect. -/
def keepingLine (n : Nat) : Text :=
  "keeping previous filter (" ++ Text.ofNat n ++ " tickets)"

/-- The lines that answer a query: the warnings and the tickets it keeps, or
what is wrong with it. -/
def queryAnswer (s : Session) (source : Text) : List Text :=
  let (answer, filter) := s.filter.apply source
  let kept := filter.select s.tickets s.now
  match answer with
  | .ok next => next.warnings.map warningLine ++ ticketLines kept
  | .error error => [renderError source error, keepingLine kept.length]

/-- The lines that answer a command; none when it ends the prompt. -/
def answer? (s : Session) : Command → Option (List Text)
  | .quit => none
  | .idle => some []
  | .help => some helpLines
  | .clear => some (ticketLines (s.after .clear).kept)
  | .tokens source => some ((Token.stream source).map tokenLine)
  | .canonical source => some [canonicalAnswer source]
  | .sql source => some [sqlAnswer s.now source]
  | .unknown name => some ["unknown command " ++ name ++ ", try :help"]
  | .query source => some (queryAnswer s source)

/-- What a command changes in the session, if anything. -/
def Command.change? : Command → Option Change
  | clear => some .clear
  | query source => some (.enter source)
  | _ => none

/-- The lines that answer each line of input, up to the one that ends the prompt. -/
def transcript (s : Session) : List Text → List (List Text)
  | [] => []
  | line :: lines =>
    let command := Command.ofLine line
    match answer? s command with
    | some answer => answer :: transcript (command.change?.elim s s.after) lines
    | none => []

/-- The line that greets. -/
def greeting (tickets : List Ticket) : Text :=
  Text.ofNat tickets.length ++ " tickets loaded. Type :help for help."

end TicketSearch
