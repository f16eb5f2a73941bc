/-
What is being typed at a cursor, and what to suggest for it.

The tokens before the cursor are walked with a small automaton that never fails, so that
it also answers for queries that do not parse yet.  `Context.at?` tells what the cursor
is on; `Context.suggest` lists the suggestions that fit what is typed so far, and
`Context.splice` puts one of them into the query.
-/
import TicketSearch.Catalog
import TicketSearch.Token.Stream

namespace TicketSearch

/-- What is being typed. -/
inductive ContextKind
  | field
  | operator
  | value
  /-- `AND` or `OR`. -/
  | keyword
  deriving DecidableEq

/-- The place that the tokens before the cursor lead to; the field in scope is none
when its name is unknown. -/
inductive Place
  /-- A field is due. -/
  | field
  /-- After a field. -/
  | operator (field : Option Field)
  /-- After a field and the `NOT` at this offset. -/
  | afterNot (field : Option Field) (notWord : Nat)
  /-- After a field, the `IS` at this offset and perhaps `NOT`. -/
  | afterIs (field : Option Field) (isWord : Nat)
  /-- After a comparison sign. -/
  | value (field : Option Field)
  /-- After `IN`. -/
  | afterIn (field : Option Field)
  /-- In a list where a value is due. -/
  | listValue (field : Option Field)
  /-- In a list after a value. -/
  | listNext (field : Option Field)
  /-- After a complete predicate. -/
  | keyword
  deriving DecidableEq

namespace Place

/-- The place after a token in a list. -/
def stepList (here : Place) (f : Option Field) (kind : TokenKind) : Place :=
  if kind = .unknown then here
  else if kind = .comma then .listValue f
  else if kind = .closeParen then .keyword
  else if here = .listValue f && (kind.isValue || kind == .emptyWord) then .listNext f
  else here

/-- The place after a token outside a list that is neither `AND` nor `OR`. -/
def stepPredicate (here : Place) (t : Token) : Place :=
  match here, t.kind with
  | _, .unknown => here
  | .field, .field | .field, .value => .operator (Field.resolve? t.text)
  | .field, .notWord | .field, .openParen => .field
  | .operator f, .operator => .value f
  | .operator f, .inWord => .afterIn f
  | .operator f, .notWord => .afterNot f t.start
  | .operator f, .isWord => .afterIs f t.start
  | .afterNot f _, .inWord => .afterIn f
  | .afterIs f isWord, .notWord => .afterIs f isWord
  | .afterIn f, .openParen => .listValue f
  | .keyword, .notWord => .field
  | _, _ => .keyword

/-- The place after a token. -/
def step (here : Place) (t : Token) : Place :=
  match here with
  | .listValue f | .listNext f => here.stepList f t.kind
  | _ => if t.kind = .andWord ∨ t.kind = .orWord then .field else here.stepPredicate t

end Place

/-- What is being typed at a cursor. -/
structure Context where
  /-- What it is. -/
  kind : ContextKind
  /-- What is typed of it so far, up to the cursor. -/
  typed : Text
  /-- The byte offset at which it starts. -/
  position : Nat
  /-- The field in scope of an operator or a value. -/
  field : Option Field
  deriving DecidableEq

/-- A suggestion: how it is shown, and what is put into the query. -/
structure Suggestion where
  /-- How it is shown. -/
  label : Text
  /-- What is put into the query. -/
  replacement : Text
  deriving DecidableEq

namespace Suggestion

/-- A suggestion that is put into the query as it is shown. -/
def plain (text : Text) : Suggestion := ⟨text, text⟩

end Suggestion

namespace Context

/--
Whether a cursor just after a token is still on it.  Marks, closed quotes and comparison
signs are complete once typed, but `<` and `>` may still grow.
-/
def isOpenAtEnd (t : Token) : Bool :=
  match t.kind with
  | .openParen | .closeParen | .comma => false
  | .operator => t.text == "<" || t.text == ">"
  | .string => decide (Text.byteLength t.text < 2)
  | _ => true

/-- Whether the cursor is on a token. -/
def isUnder (cursor : Nat) (t : Token) : Bool :=
  t.kind != .endOfInput && decide (t.start < cursor) &&
    (decide (cursor < t.stop) || (cursor == t.stop && isOpenAtEnd t))

/-- The tokens before the one under the cursor, and the offset at which that one starts. -/
def split (tokens : List Token) (cursor : Nat) : List Token × Nat :=
  match tokens.findIdx? (isUnder cursor) with
  | some i => (tokens.take i, (tokens[i]?).elim cursor Token.start)
  | none => (tokens.takeWhile fun t => t.kind != .endOfInput && decide (t.stop ≤ cursor), cursor)

/-- The context of a place, for what starts at `start`; none where only a comma or a
parenthesis can follow. -/
def ofPlace? (source : Text) (start cursor : Nat) (place : Place) : Option Context :=
  let context (kind : ContextKind) (position : Nat) (field : Option Field) : Option Context :=
    some ⟨kind, (Text.between? source position cursor).getD [], position, field⟩
  match place with
  | .field => context .field start none
  | .operator field => context .operator start field
  | .afterNot field keyword | .afterIs field keyword => context .operator keyword field
  | .value field | .afterIn field | .listValue field => context .value start field
  | .listNext _ => none
  | .keyword => context .keyword start none

/-- What is being typed at a cursor; none also for a cursor past the end or inside a character. -/
def at? (source : Text) (cursor : Nat) : Option Context :=
  if (Text.splitAtByte? cursor source).isSome then
    let (before, start) := split (Token.stream source) cursor
    ofPlace? source start cursor (before.foldl Place.step .field)
  else none

/-- The query with what is typed replaced; the query itself when that is not part of it. -/
def splice (c : Context) (source replacement : Text) : Text :=
  match Text.before? source c.position,
    Text.after? source (c.position + Text.byteLength c.typed) with
  | some head, some tail => head ++ replacement ++ tail
  | _, _ => source

/--
An operator as typed, in upper case, with blanks at the start removed and every other run
of blanks made one space.  `started` tells whether something stands before, `gap` whether
blanks do.
-/
def normalizeOperator (started gap : Bool) : Text → Text
  | [] => if started && gap then [' '] else []
  | c :: cs =>
    if isBlank c then normalizeOperator started true cs
    else (if started && gap then [' '] else []) ++ c.toUpper :: normalizeOperator true false cs

/-- Whether a value can be written without quotes: it is one token, and that can
stand as a value. -/
def isBareValue (value : Text) : Bool :=
  match Token.stream value with
  | [t, _] => t.kind.isValue && t.kind != .string && t.stop - t.start == Text.byteLength value
  | _ => false

/-- The values to choose from for a field. -/
def candidates (catalog : Catalog) (field : Field) : List Text :=
  match field.source with
  | .table values => values
  | .roster roster => catalog.values roster
  | .unlimited => []

/-- The suggestion of a value, in quotes where a quote is typed or the value needs them. -/
def suggestValue (quoted : Bool) (value : Text) : Suggestion :=
  ⟨value, if quoted || !isBareValue value then '"' :: value ++ ['"'] else value⟩

/-- The suggestions that fit what is typed so far. -/
def suggest (c : Context) (catalog : Catalog) : List Suggestion :=
  match c.kind with
  | .field =>
    (Field.all.filter fun f =>
        f.names.any fun name => (Text.lower c.typed).isPrefixOf (Text.lower name)).map
      fun f => .plain f.name
  | .operator =>
    ((c.field.elim Operator.all Field.operators).filter fun op =>
      (normalizeOperator false false c.typed).isPrefixOf op.symbol).map fun op => .plain op.symbol
  | .value =>
    let typed := Text.lower (c.typed.dropWhile (· == '"'))
    ((c.field.elim [] (candidates catalog)).filter fun value =>
        typed.isPrefixOf (Text.lower value)).map
      (suggestValue (c.typed.head? == some '"'))
  | .keyword =>
    ((["AND", "OR"] : List Text).filter fun keyword =>
        (Text.asciiUpper c.typed).isPrefixOf keyword).map
      Suggestion.plain

end Context

/-- Where a completion at a cursor starts, and the suggestions for it. -/
def completionsAt (source : Text) (cursor : Nat) (catalog : Catalog) : Nat × List Suggestion :=
  match Context.at? source cursor with
  | some context => (context.position, context.suggest catalog)
  | none => (cursor, [])

/--
What is left to type of the only suggestion, shown while the cursor is at the end of the
query and what is typed agrees with the suggestion up to ASCII case.
-/
def hintAt? (source : Text) (cursor : Nat) (catalog : Catalog) : Option Text := do
  if cursor < Text.byteLength source then none
  let context ← Context.at? source cursor
  match context.suggest catalog with
  | [only] => do
    let (head, rest) ← Text.splitAtByte? (Text.byteLength context.typed) only.replacement
    if !context.typed.isEmpty && Text.sameIgnoringAsciiCase head context.typed && !rest.isEmpty
    then some rest
    else none
  | _ => none

end TicketSearch
