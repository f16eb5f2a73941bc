/-
What is shown to someone at a terminal.

Errors come with a caret under the place they are reported at, tokens in the colours of
their classes, and tickets and tokens in columns.
-/
import TicketSearch.Query.Parser
import TicketSearch.Ticket

namespace TicketSearch

/--
A message about a query.  With a position the query comes first and then a line with a
caret under that byte offset; an offset that is not between two characters counts as the
start.
-/
def renderMessage (query message : Text) (position : Option Nat) : Text :=
  match position with
  | some p =>
    let column := ((Text.before? query p).getD []).length
    query ++ '\n' :: List.replicate column ' ' ++ "^\nerror: " ++ message
  | none => "error: " ++ message

/-- A parse error as it is shown. -/
def renderError (query : Text) (error : ParseError) : Text :=
  renderMessage query error.fault.message error.position

/-- The terminal colour of a class of tokens. -/
def TokenClass.colour? : TokenClass → Option Text
  | field => some "36"
  | operator => some "33"
  | keyword => some "1;35"
  | literal => some "32"
  | error => some "4;31"
  | punctuation | plain => none

/-- A text between the escapes that switch a colour on and off. -/
def paint (colour : Option Text) (t : Text) : Text :=
  match colour with
  | some code => "\x1b[" ++ code ++ "m" ++ t ++ "\x1b[0m"
  | none => t

/-- The text from a byte offset on, with its tokens in their colours. -/
def paintTokens (source : Text) (offset : Nat) : List Token → Text
  | [] => (Text.after? source offset).getD []
  | t :: ts =>
    (Text.between? source offset t.start).getD [] ++
      paint t.kind.tokenClass.colour? ((Text.between? source t.start t.stop).getD []) ++
      paintTokens source t.stop ts

/-- A query with its tokens in their colours. -/
def highlight (source : Text) : Text :=
  paintTokens source 0 (Token.stream source)

/-- A hint as it is shown, dimmed. -/
def highlightHint (hint : Text) : Text :=
  paint (some "2") hint

/-- The line of a listing for a token. -/
def tokenLine (t : Token) : Text :=
  Text.padLeft 3 (Text.ofNat t.start) ++ ".." ++ Text.padRight 3 (Text.ofNat t.stop) ++ ' ' ::
    Text.padRight 13 t.kind.label ++ ' ' :: t.text

/-- The line of a listing for a ticket. -/
def ticketLine (t : Ticket) : Text :=
  Text.padRight 10 (t.id.getD "-") ++ ' ' :: Text.padRight 8 (t.type.getD "-") ++ ' ' ::
    Text.padRight 12 (t.status.getD "-") ++ ' ' :: Text.padRight 8 (t.priority.getD "-") ++ ' ' ::
    t.title.getD []

/-- A number of tickets, in parentheses. -/
def countLine (n : Nat) : Text :=
  "(" ++ Text.ofNat n ++ " tickets)"

/-- The lines of a listing of tickets. -/
def ticketLines (tickets : List Ticket) : List Text :=
  tickets.map ticketLine ++ [countLine tickets.length]

/-- The line of a warning. -/
def warningLine (warning : Text) : Text :=
  "warning: " ++ warning

end TicketSearch
