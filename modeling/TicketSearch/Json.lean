/-
JSON values, and reading them from text.

Reading goes in two passes, as for queries: the text is cut into lexemes, and these are
put together one at a time with a stack of the arrays and objects still open.  Numbers
keep their digits, since how they become binary depends on who asks.  A string may hold
escapes that are no character, a surrogate without its partner; such a string is kept as
`none`, and is a fault only where a text is asked for.
-/
import TicketSearch.Decimal

namespace TicketSearch

/-- A JSON value. -/
inductive Json
  | null
  | bool (b : Bool)
  | number (n : Numeral)
  /-- A string, or `none` for one that is no text. -/
  | string (text : Option Text)
  | array (items : List Json)
  /-- The members in order, with repetitions. -/
  | object (members : List (Option Text × Json))

namespace Json

/-- A lexeme of JSON text. -/
inductive Lexeme
  | openBracket
  | closeBracket
  | openBrace
  | closeBrace
  | colon
  | comma
  /-- A value that is no array and no object. -/
  | scalar (value : Json)

/-- A part of a string: a character, or the code unit of an escape. -/
inductive Piece
  | char (c : Char)
  | unit (n : Nat)

/-- The value of a hexadecimal digit. -/
def hexDigit? (c : Char) : Option Nat :=
  if c.isDigit then some (c.toNat - 48)
  else if 'a' ≤ c.toLower ∧ c.toLower ≤ 'f' then some (c.toLower.toNat - 87)
  else none

/-- The value of four hexadecimal digits. -/
def hexUnit? (a b c d : Char) : Option Nat := do
  return 4096 * (← hexDigit? a) + 256 * (← hexDigit? b) + 16 * (← hexDigit? c) + (← hexDigit? d)

/-- The character that a letter after a backslash stands for. -/
def escaped? (c : Char) : Option Char :=
  [('"', '"'), ('\\', '\\'), ('/', '/'), ('b', '\x08'), ('f', '\x0c'), ('n', '\n'), ('r', '\r'),
    ('t', '\t')].lookup c

/-- The parts of a string up to its closing quote, and the number of characters up to there. -/
def readPieces? : Text → Option (List Piece × Nat)
  | [] => none
  | '"' :: _ => some ([], 1)
  | '\\' :: 'u' :: a :: b :: c :: d :: rest => do
    let n ← hexUnit? a b c d
    let (pieces, length) ← readPieces? rest
    return (.unit n :: pieces, length + 6)
  | '\\' :: e :: rest => do
    let c ← escaped? e
    let (pieces, length) ← readPieces? rest
    return (.char c :: pieces, length + 2)
  | c :: rest =>
    if c.toNat < 32 ∨ c = '\\' then none
    else do
      let (pieces, length) ← readPieces? rest
      return (.char c :: pieces, length + 1)

/-- The text of a string; code units from escapes must be characters or pairs of surrogates. -/
def joinPieces? : List Piece → Option Text
  | [] => some []
  | .char c :: rest => (joinPieces? rest).map (c :: ·)
  | .unit n :: rest =>
    if n < 0xD800 ∨ 0xDFFF < n then (joinPieces? rest).map (Char.ofNat n :: ·)
    else
      match rest with
      | .unit m :: rest =>
        if n < 0xDC00 ∧ 0xDC00 ≤ m ∧ m ≤ 0xDFFF then
          (joinPieces? rest).map (Char.ofNat (0x10000 + 1024 * (n - 0xD800) + (m - 0xDC00)) :: ·)
        else none
      | _ => none

/-- The digits of a fraction, if there is a point, and the rest; a point needs a digit. -/
def takeFraction? : Text → Option (Text × Text)
  | '.' :: t =>
    let digits := t.takeWhile Char.isDigit
    if digits = [] then none else some (digits, t.drop digits.length)
  | t => some ([], t)

/-- The exponent, if there is one, and the rest. -/
def takeExponent? : Text → Option (Int × Text)
  | [] => some (0, [])
  | c :: t =>
    if c = 'e' ∨ c = 'E' then
      let (negative, body) := splitSign t
      let digits := body.takeWhile Char.isDigit
      if digits = [] then none
      else
        some (if negative then -(digitsValue digits : Int) else digitsValue digits,
          body.drop digits.length)
    else some (0, c :: t)

/-- A number at the start of a text, and the rest.  No zero stands before another digit. -/
def takeNumber? (t : Text) : Option (Numeral × Text) := do
  let negative := t.head? = some '-'
  let body := if negative then t.drop 1 else t
  let whole := if body.head? = some '0' then ['0'] else body.takeWhile Char.isDigit
  if whole = [] then none
  let (fraction, rest) ← takeFraction? (body.drop whole.length)
  let (exponent, rest) ← takeExponent? rest
  return (⟨negative, whole, fraction, exponent⟩, rest)

/-- The words of JSON. -/
def words : List (Text × Json) :=
  [("null", .null), ("true", .bool true), ("false", .bool false)]

/-- The marks of JSON. -/
def mark? (c : Char) : Option Lexeme :=
  match c with
  | '[' => some .openBracket
  | ']' => some .closeBracket
  | '{' => some .openBrace
  | '}' => some .closeBrace
  | ':' => some .colon
  | ',' => some .comma
  | _ => none

/-- The lexeme at the start of a text, and how many characters after the first belong to it. -/
def scan? (c : Char) (rest : Text) : Option (Lexeme × Nat) :=
  match mark? c with
  | some mark => some (mark, 0)
  | none =>
    if c = '"' then
      (readPieces? rest).map fun (pieces, length) =>
        (.scalar (.string (joinPieces? pieces)), length)
    else if c = '-' ∨ c.isDigit then
      (takeNumber? (c :: rest)).map fun (n, after) =>
        (.scalar (.number n), rest.length - after.length)
    else
      (words.find? fun word => word.1.isPrefixOf (c :: rest)).map fun word =>
        (.scalar word.2, word.1.length - 1)

/-- White space between lexemes. -/
def isGap (c : Char) : Bool :=
  c == ' ' || c == '\t' || c == '\n' || c == '\r'

/-- The lexemes of a text, of which the first `skip` characters belong to the lexeme before. -/
def lexemes? : Nat → Text → Option (List Lexeme)
  | _, [] => some []
  | skip + 1, _ :: cs => lexemes? skip cs
  | 0, c :: cs =>
    if isGap c then lexemes? 0 cs
    else
      match scan? c cs with
      | none => none
      | some (lexeme, length) => (lexemes? length cs).map (lexeme :: ·)

/-- An array or object that is still open, with what it holds so far, the last first. -/
inductive Frame
  | array (items : List Json)
  | object (members : List (Option Text × Json))
  /-- An object with a member whose value is due. -/
  | member (members : List (Option Text × Json)) (key : Option Text)

/-- What may come next. -/
inductive Due
  | value
  /-- A value, or the end of the array just opened. -/
  | valueOrEnd
  | key
  /-- A key, or the end of the object just opened. -/
  | keyOrEnd
  | colon (key : Option Text)
  | commaOrEnd
  /-- The text holds this value and nothing more may come. -/
  | nothing (value : Json)

/-- Puts a finished value where it belongs. -/
def put? (value : Json) : List Frame → Option (Due × List Frame)
  | [] => some (.nothing value, [])
  | .array items :: frames => some (.commaOrEnd, .array (value :: items) :: frames)
  | .member members key :: frames => some (.commaOrEnd, .object ((key, value) :: members) :: frames)
  | .object _ :: _ => none

/-- Reads a lexeme that starts a value. -/
def begin? (lexeme : Lexeme) (frames : List Frame) : Option (Due × List Frame) :=
  match lexeme with
  | .openBracket => some (.valueOrEnd, .array [] :: frames)
  | .openBrace => some (.keyOrEnd, .object [] :: frames)
  | .scalar value => put? value frames
  | _ => none

/-- Reads one lexeme. -/
def step? (due : Due) (frames : List Frame) (lexeme : Lexeme) : Option (Due × List Frame) :=
  match due, lexeme, frames with
  | .valueOrEnd, .closeBracket, .array items :: frames => put? (.array items.reverse) frames
  | .value, lexeme, frames | .valueOrEnd, lexeme, frames => begin? lexeme frames
  | .keyOrEnd, .closeBrace, .object members :: frames => put? (.object members.reverse) frames
  | .key, .scalar (.string key), frames | .keyOrEnd, .scalar (.string key), frames =>
    some (.colon key, frames)
  | .colon key, .colon, .object members :: frames => some (.value, .member members key :: frames)
  | .commaOrEnd, .comma, .array items :: frames => some (.value, .array items :: frames)
  | .commaOrEnd, .comma, .object members :: frames => some (.key, .object members :: frames)
  | .commaOrEnd, .closeBracket, .array items :: frames => put? (.array items.reverse) frames
  | .commaOrEnd, .closeBrace, .object members :: frames => put? (.object members.reverse) frames
  | _, _, _ => none

/-- Reads lexemes to the end, which must come after one whole value. -/
def build? (due : Due) (frames : List Frame) : List Lexeme → Option Json
  | [] =>
    match due with
    | .nothing value => some value
    | _ => none
  | lexeme :: rest =>
    match step? due frames lexeme with
    | some (due, frames) => build? due frames rest
    | none => none

/-- Reads a whole text as one JSON value. -/
def read? (t : Text) : Option Json :=
  (lexemes? 0 t).bind (build? .value [])

end Json

end TicketSearch
