/-
Parsing a query.

From the weakest to the strongest binding a query is an `OR` of `AND`s of operands; an
operand is a predicate, a query in parentheses or `NOT` and an operand.  `AND` and `OR`
group to the left, and nothing stands for a missing connective.

The parser reads one token at a time.  Its state is the phase of the predicate being
read, what is pending at the present depth of parentheses - the left operands of an `OR`
and an `AND`, and a number of `NOT`s - and the same for every parenthesis still open.  So
a list of tokens can be continued to a query exactly when reading it leaves a state.

A rejected token is left unread when it was only looked at, so that reading can go on
from what is left.
-/
import TicketSearch.Query
import TicketSearch.Query.Fault
import TicketSearch.Token.Stream

namespace TicketSearch

/-- What is pending to the left of an operand, at one depth of parentheses. -/
structure Level where
  /-- The left operand of a pending `OR`. -/
  alternatives : Option Query
  /-- The left operand of a pending `AND`. -/
  conjuncts : Option Query
  /-- The number of pending `NOT`s. -/
  negations : Nat
  deriving DecidableEq

namespace Level

/-- Nothing is pending. -/
def fresh : Level := ⟨none, none, 0⟩

/-- A query under a number of `NOT`s. -/
def negate : Nat → Query → Query
  | 0, q => q
  | n + 1, q => .not (negate n q)

/-- The `AND` chain that an operand completes. -/
def chain (l : Level) (operand : Query) : Query :=
  match l.conjuncts with
  | none => negate l.negations operand
  | some left => .and left (negate l.negations operand)

/-- The `OR` chain that an `AND` chain completes. -/
def total (l : Level) (chain : Query) : Query :=
  match l.alternatives with
  | none => chain
  | some left => .or left chain

end Level

/-- How far the operand being read has come. -/
inductive Phase
  /-- Nothing has been read at all. -/
  | start
  /-- An operand is due. -/
  | operand
  /-- An operand is due, just after the parenthesis at this offset. -/
  | group (paren : Nat)
  /-- After the name of a field. -/
  | afterField (field : Field) (name : Text)
  /-- After a comparison sign. -/
  | afterOperator (field : Field) (op : Comparison)
  /-- After a field and `NOT`. -/
  | afterNot (field : Field)
  /-- After `IN`, which stands at this offset. -/
  | afterIn (field : Field) (negated : Bool) (inWord : Nat)
  /-- After the parenthesis that opens a list. -/
  | listStart (field : Field) (negated : Bool) (inWord : Nat)
  /-- After a comma in a list; the values so far are in order. -/
  | listValue (field : Field) (negated : Bool) (values : List Literal) (comma : Text)
  /-- After a value in a list. -/
  | listNext (field : Field) (negated : Bool) (values : List Literal)
  /-- After `IS`. -/
  | afterIs (field : Field)
  /-- After `IS NOT`. -/
  | afterIsNot (field : Field)
  /-- An operand is complete, and with it this `AND` chain. -/
  | complete (chain : Query)
  deriving DecidableEq

/-- The state of the parser between two tokens. -/
structure ParserState where
  /-- How far the present operand has come. -/
  phase : Phase
  /-- What is pending at the present depth. -/
  level : Level
  /-- What is pending outside each open parenthesis, the innermost first. -/
  outer : List Level
  deriving DecidableEq

/-- What reading one token leads to. -/
inductive Step
  /-- The token is read. -/
  | shift (next : ParserState)
  /-- The token ends the query and is left unread. -/
  | accept (query : Query)
  /-- The query is rejected; `read` tells whether the token counts as read. -/
  | reject (error : ParseError) (read : Bool)

/-- The literal that a token denotes, for a token that can stand as a value. -/
def Token.literal (t : Token) : Except Fault Literal :=
  match t.kind with
  | .string =>
    match t.text with
    | '"' :: rest => .ok (.quoted (if rest.getLast? = some '"' then rest.dropLast else t.text))
    | _ => .ok (.quoted t.text)
  | .number =>
    match readFloat? t.text with
    | some x => .ok (.number x t.text)
    | none => .error (.invalidNumber t.text)
  | .date =>
    match Date.read? t.text with
    | some d => .ok (.date d)
    | none => .error (.invalidDate t.text)
  | .relativeDate =>
    match RelativeDate.read? t.text with
    | some r => .ok (.relative r)
    | none => .error (.invalidRelativeDate t.text)
  | _ => .ok (.word t.text)

namespace ParserState

/-- Nothing has been read. -/
def initial : ParserState := ⟨.start, .fresh, []⟩

/-- The fault of finding anything that does not fit the state. -/
def expected (s : ParserState) (found : Found) : Fault :=
  match s.phase with
  | .start | .operand | .group _ => .fieldExpected found
  | .afterField _ name => .operatorExpected name found
  | .afterOperator _ op => .valueExpected (some op.symbol) found
  | .afterNot _ => .inExpected found
  | .afterIn .. => .listExpected found
  | .listStart .. => .valueExpected none found
  | .listValue _ _ _ comma => .valueExpected (some comma) found
  | .listNext .. => .listEndExpected found
  | .afterIs _ | .afterIsNot _ => .emptyExpected found
  | .complete _ => if s.outer = [] then .connectiveExpected found else .groupEndExpected found

/-- Rejects a token that does not fit and leaves it unread. -/
def refuse (s : ParserState) (t : Token) : Step :=
  .reject ⟨s.expected t.found, some t.start⟩ false

/-- Goes on to another phase at the same depth. -/
def go (s : ParserState) (phase : Phase) : Step :=
  .shift { s with phase := phase }

/-- Completes an operand. -/
def finishOperand (s : ParserState) (operand : Query) : Step :=
  s.go (.complete (s.level.chain operand))

/-- Reads a value, if the token can stand as one. -/
def withValue (s : ParserState) (t : Token) (next : Literal → Step) : Step :=
  if t.kind.isValue then
    match t.literal with
    | .ok value => next value
    | .error fault => .reject ⟨fault, some t.start⟩ true
  else s.refuse t

/-- Reads a token where an operand is due. -/
def stepOperand (s : ParserState) (t : Token) : Step :=
  match t.kind with
  | .notWord => .shift ⟨.operand, { s.level with negations := s.level.negations + 1 }, s.outer⟩
  | .openParen => .shift ⟨.group t.start, .fresh, s.level :: s.outer⟩
  | .field =>
    match Field.resolve? t.text with
    | some field => s.go (.afterField field t.text)
    | none => .reject ⟨.unknownField t.text, some t.start⟩ true
  | .value => .reject ⟨.unknownField t.text, some t.start⟩ false
  | .unknown =>
    if t.text.head? = some '"' then .reject ⟨.unterminatedString, some t.start⟩ false
    else .reject ⟨.unexpectedCharacter t.found, some t.start⟩ false
  | _ => s.refuse t

/-- Reads a token after the name of a field. -/
def stepField (s : ParserState) (t : Token) (field : Field) : Step :=
  match t.kind with
  | .operator =>
    match Comparison.ofSymbol? t.text with
    | some op => s.go (.afterOperator field op)
    | none => .reject ⟨.unknownOperator t.text, some t.start⟩ true
  | .inWord => s.go (.afterIn field false t.start)
  | .notWord => s.go (.afterNot field)
  | .isWord => s.go (.afterIs field)
  | _ => s.refuse t

/-- Reads a token after a comparison sign. -/
def stepOperator (s : ParserState) (t : Token) (field : Field) (op : Comparison) : Step :=
  if t.kind = .emptyWord then
    match op with
    | .eq => s.finishOperand (.empty field false)
    | .notEq => s.finishOperand (.empty field true)
    | _ => .reject ⟨.emptyCompared op, some t.start⟩ true
  else s.withValue t fun value => s.finishOperand (.compare field op value)

/-- Reads a token after a complete operand. -/
def stepComplete (s : ParserState) (t : Token) (chain : Query) : Step :=
  match t.kind, s.outer with
  | .andWord, _ => .shift ⟨.operand, ⟨s.level.alternatives, some chain, 0⟩, s.outer⟩
  | .orWord, _ => .shift ⟨.operand, ⟨some (s.level.total chain), none, 0⟩, s.outer⟩
  | .closeParen, level :: outer =>
    .shift ⟨.complete (level.chain (s.level.total chain)), level, outer⟩
  | .closeParen, [] => .reject ⟨.nothingToClose t.found, some t.start⟩ false
  | .endOfInput, [] => .accept (s.level.total chain)
  | _, _ => s.refuse t

/-- Reads one token. -/
def step (s : ParserState) (t : Token) : Step :=
  match s.phase with
  | .start => if t.kind = .endOfInput then .accept .all else s.stepOperand t
  | .operand => s.stepOperand t
  | .group paren =>
    if t.kind = .closeParen then .reject ⟨.emptyGroup, some paren⟩ false else s.stepOperand t
  | .afterField field _ => s.stepField t field
  | .afterOperator field op => s.stepOperator t field op
  | .afterNot field =>
    if t.kind = .inWord then s.go (.afterIn field true t.start) else s.refuse t
  | .afterIn field negated inWord =>
    if t.kind = .openParen then s.go (.listStart field negated inWord) else s.refuse t
  | .listStart field negated inWord =>
    if t.kind = .closeParen then .reject ⟨.emptyValueList, some inWord⟩ false
    else s.withValue t fun value => s.go (.listNext field negated [value])
  | .listValue field negated values _ =>
    s.withValue t fun value => s.go (.listNext field negated (values ++ [value]))
  | .listNext field negated values =>
    if t.kind = .closeParen then s.finishOperand (.member field negated values)
    else if t.kind = .comma then s.go (.listValue field negated values t.text)
    else s.refuse t
  | .afterIs field =>
    if t.kind = .notWord then s.go (.afterIsNot field)
    else if t.kind = .emptyWord then s.finishOperand (.empty field false)
    else s.refuse t
  | .afterIsNot field =>
    if t.kind = .emptyWord then s.finishOperand (.empty field true) else s.refuse t
  | .complete chain => s.stepComplete t chain

/-- The answer when the tokens run out. -/
def finish (s : ParserState) : Except ParseError Query :=
  match s.phase, s.outer with
  | .start, _ => .ok .all
  | .complete chain, [] => .ok (s.level.total chain)
  | _, _ => .error ⟨s.expected .nothing, none⟩

/-- Reads tokens up to the end of a query or the first fault; also gives the tokens left unread. -/
def run (s : ParserState) : List Token → Except ParseError Query × List Token
  | [] => (s.finish, [])
  | t :: ts =>
    match s.step t with
    | .shift next => run next ts
    | .accept query => (.ok query, t :: ts)
    | .reject error read => (.error error, if read then ts else t :: ts)

end ParserState

namespace Query

/-- Parses the query at the start of a list of tokens; also gives the tokens left unread. -/
def parseTokens (tokens : List Token) : Except ParseError Query × List Token :=
  ParserState.initial.run tokens

/-- Parses a query. -/
def parse (source : Text) : Except ParseError Query :=
  (parseTokens (Token.stream source)).1

end Query

end TicketSearch
