/-
Lexemes: the shortest texts that carry meaning in a query.

A bare word is a longest run of word characters, and what it is - date, number, relative
date, keyword or plain word - is decided by its text alone.  Everything else is a
parenthesis, a comma, a comparison sign, a quoted text or a single character that starts
nothing.
-/
import TicketSearch.Token
import TicketSearch.Text.Letter
import TicketSearch.Calendar.Instant

namespace TicketSearch

/-- Whether a character can stand in a bare word. -/
def isWordChar (c : Char) : Bool :=
  isLetter c || isNumeral c || c == '_' || c == '-' || c == '.' || c == '@' || c == '/'

namespace Lexeme

/-- Whether a bare word starts with this character before that text; a dash
needs a digit after it. -/
def startsWord (c : Char) (rest : Text) : Bool :=
  isLetter c || c == '_' || c.isDigit || (c == '-' && rest.head?.any Char.isDigit)

/-- Whether a text has the shape `YYYY-MM-DD`. -/
def isDateShaped : Text → Bool
  | [y1, y2, y3, y4, '-', m1, m2, '-', d1, d2] => [y1, y2, y3, y4, m1, m2, d1, d2].all Char.isDigit
  | _ => false

/-- Whether a text is digits, or digits, a point and digits. -/
def isUnsignedNumber (t : Text) : Bool :=
  !(t.takeWhile Char.isDigit).isEmpty &&
    match t.dropWhile Char.isDigit with
    | [] => true
    | '.' :: fraction => !fraction.isEmpty && fraction.all Char.isDigit
    | _ => false

/-- Whether a text is a number, with or without a minus sign. -/
def isNumberShaped : Text → Bool
  | '-' :: t => isUnsignedNumber t
  | t => isUnsignedNumber t

/-- Whether a text is a minus sign, digits and the letter of a unit. -/
def isRelativeShaped : Text → Bool
  | '-' :: t =>
    !t.dropLast.isEmpty && t.dropLast.all Char.isDigit &&
      (t.getLast?.bind DateUnit.ofLetter?).isSome
  | _ => false

/-- The keywords, in lower case. -/
def keywords : List (Text × TokenKind) :=
  [("and", .andWord), ("or", .orWord), ("not", .notWord), ("in", .inWord), ("is", .isWord),
    ("empty", .emptyWord), ("null", .emptyWord)]

/-- The kind of a bare word, told from its text. -/
def wordKind (t : Text) : TokenKind :=
  if isDateShaped t then .date
  else if isNumberShaped t then .number
  else if isRelativeShaped t then .relativeDate
  else (keywords.lookup (Text.asciiLower t)).getD .value

/-- A comparison sign that may have an equals sign after it. -/
def withEquals (alone : TokenKind) (c : Char) : Text → TokenKind × Text
  | '=' :: _ => (.operator, [c, '='])
  | _ => (alone, [c])

/-- A quoted text: up to the next quote, or all of the rest when there is none. -/
def quoted (rest : Text) : TokenKind × Text :=
  match rest.dropWhile (· != '"') with
  | [] => (.unknown, '"' :: rest)
  | _ :: _ => (.string, '"' :: rest.takeWhile (· != '"') ++ ['"'])

/-- The lexeme at the start of a text: its kind and its own text. -/
def scan (c : Char) (rest : Text) : TokenKind × Text :=
  if c = '(' then (.openParen, [c])
  else if c = ')' then (.closeParen, [c])
  else if c = ',' then (.comma, [c])
  else if c = '=' then (.operator, [c])
  else if c = '<' ∨ c = '>' then withEquals .operator c rest
  else if c = '!' then withEquals .unknown c rest
  else if c = '"' then quoted rest
  else if startsWord c rest then
    (wordKind (c :: rest.takeWhile isWordChar), c :: rest.takeWhile isWordChar)
  else (.unknown, [c])

end Lexeme

end TicketSearch
