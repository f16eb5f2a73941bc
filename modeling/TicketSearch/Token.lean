/-
Tokens of the query language.

A token holds its kind, its text and the byte offsets between which it stands.  The
classes of `TokenClass` are what a highlighter tells apart.
-/
import TicketSearch.Text

namespace TicketSearch

/-- The kinds of tokens. -/
inductive TokenKind
  /-- The name of a field where a field is expected. -/
  | field
  /-- A comparison sign. -/
  | operator
  | andWord
  | orWord
  | notWord
  | inWord
  | isWord
  /-- `EMPTY` or `NULL`. -/
  | emptyWord
  /-- A text in double quotes, quotes included. -/
  | string
  | number
  /-- `YYYY-MM-DD`. -/
  | date
  /-- `-7d` and the like. -/
  | relativeDate
  /-- Any other bare word. -/
  | value
  | openParen
  | closeParen
  | comma
  /-- A character that starts no token, or a quote that is never closed. -/
  | unknown
  | endOfInput
  deriving DecidableEq

/-- What a highlighter tells apart. -/
inductive TokenClass
  | field
  | operator
  | keyword
  | literal
  | punctuation
  | error
  | plain
  deriving DecidableEq

namespace TokenKind

/-- All kinds. -/
def all : List TokenKind :=
  [field, operator, andWord, orWord, notWord, inWord, isWord, emptyWord, string, number, date,
    relativeDate, value, openParen, closeParen, comma, unknown, endOfInput]

/-- The name of a kind in a listing of tokens. -/
def label : TokenKind → Text
  | field => "FIELD"
  | operator => "OPERATOR"
  | andWord => "AND"
  | orWord => "OR"
  | notWord => "NOT"
  | inWord => "IN"
  | isWord => "IS"
  | emptyWord => "EMPTY"
  | string => "STRING"
  | number => "NUMBER"
  | date => "DATE"
  | relativeDate => "RELATIVE_DATE"
  | value => "VALUE"
  | openParen => "LPAREN"
  | closeParen => "RPAREN"
  | comma => "COMMA"
  | unknown => "UNKNOWN"
  | endOfInput => "EOF"

/-- Whether a token of this kind can stand as a value. -/
def isValue : TokenKind → Bool
  | string | number | date | relativeDate | value | field => true
  | _ => false

/-- The class of a kind. -/
def tokenClass : TokenKind → TokenClass
  | field => .field
  | operator | inWord | isWord => .operator
  | andWord | orWord | notWord => .keyword
  | emptyWord | string | number | date | relativeDate | value => .literal
  | openParen | closeParen | comma => .punctuation
  | unknown => .error
  | endOfInput => .plain

end TokenKind

/-- A token with the byte offsets between which it stands. -/
structure Token where
  /-- What the token is. -/
  kind : TokenKind
  /-- The text of the token. -/
  text : Text
  /-- The byte offset at which the token starts. -/
  start : Nat
  /-- The byte offset after the token. -/
  stop : Nat
  deriving DecidableEq

/-- What stands at a place where something else was expected. -/
inductive Found
  /-- Nothing more. -/
  | nothing
  /-- A token with this text. -/
  | lexeme (text : Text)
  deriving DecidableEq

/-- How a message names what was found. -/
def Found.describe : Found → Text
  | nothing => "end of input"
  | lexeme text => '\x27' :: text ++ ['\x27']

/-- What is found where a token stands. -/
def Token.found (t : Token) : Found :=
  if t.kind = .endOfInput then .nothing else .lexeme t.text

end TicketSearch
