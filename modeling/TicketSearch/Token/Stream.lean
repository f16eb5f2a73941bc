/-
The tokens of a query.

Tokenizing goes in two passes.  The first cuts the text into lexemes and skips blanks; it
knows no context.  The second marks as fields the plain words that name a field at a
place where a field is expected: at the start, after `AND`, `OR` and `NOT`, and after an
opening parenthesis that does not belong to `IN`.  A token for the end of the input comes
last.
-/
import TicketSearch.Token.Lexeme
import TicketSearch.Field

namespace TicketSearch

namespace Token

/--
The tokens of a text that starts at a byte offset, of which the first `skip` characters
belong to the token before.
-/
def lexemesFrom (offset : Nat) : Nat → Text → List Token
  | _, [] => []
  | skip + 1, c :: cs => lexemesFrom (offset + c.utf8Size) skip cs
  | 0, c :: cs =>
    if isBlank c then lexemesFrom (offset + c.utf8Size) 0 cs
    else
      let lexeme := Lexeme.scan c cs
      ⟨lexeme.1, lexeme.2, offset, offset + Text.byteLength lexeme.2⟩ ::
        lexemesFrom (offset + c.utf8Size) (lexeme.2.length - 1) cs

/-- Whether a field is expected after a token; `afterIn` tells whether `IN` comes before it. -/
def expectsFieldAfter (afterIn : Bool) : TokenKind → Bool
  | .andWord | .orWord | .notWord => true
  | .openParen => !afterIn
  | _ => false

/-- A token as it counts where a field is, or is not, expected. -/
def markField (expected : Bool) (t : Token) : Token :=
  if expected && t.kind == .value && (Field.resolve? t.text).isSome then { t with kind := .field }
  else t

/-- Marks the fields among the tokens. -/
def markFields (expected afterIn : Bool) : List Token → List Token
  | [] => []
  | t :: ts =>
    let token := markField expected t
    token :: markFields (expectsFieldAfter afterIn token.kind) (token.kind == .inWord) ts

/-- The tokens of a query, the end of the input included. -/
def stream (source : Text) : List Token :=
  markFields true false (lexemesFrom 0 0 source) ++
    [⟨.endOfInput, [], Text.byteLength source, Text.byteLength source⟩]

end Token

end TicketSearch
