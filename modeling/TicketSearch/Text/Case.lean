/-
Lower case, and comparing texts without regard to case.

There are two foldings.  `asciiLower` changes A to Z only: keywords and field names are
compared with it.  `lower` is the full Unicode lower case: values are compared with it.
It works character by character but for two rules: a dotted capital I becomes two
characters, and a capital sigma becomes the final form when a cased letter comes before
it and none after it, characters that case ignores not counted.
-/
import TicketSearch.Text.CaseTable

namespace TicketSearch

/-- Whether a character has the Cased property. -/
def isCased (c : Char) : Bool :=
  if c.toNat < 128 then c.isAlpha else inRanges casedRanges c.toNat

/-- Whether case rules look past a character. -/
def isCaseIgnorable (c : Char) : Bool :=
  inRanges caseIgnorableRanges c.toNat

/-- The lower case of a character on its own. -/
def lowerChar (c : Char) : Text :=
  if c.toNat < 128 then [c.toLower]
  else if c.toNat = 0x130 then ['i', Char.ofNat 0x307]
  else
    match lowerRuns.find? fun run =>
      decide (run.first ≤ c.toNat) && decide (c.toNat ≤ run.last) &&
        (c.toNat - run.first) % run.step == 0 with
    | some run => [Char.ofNat (c.toNat + run.distance).toNat]
    | none => [c]

namespace Text

/-- Whether the first character that case does not ignore is cased. -/
def leadsToCased (t : Text) : Bool :=
  match t.dropWhile isCaseIgnorable with
  | [] => false
  | c :: _ => isCased c

/--
The lower case of a text that stands after other text; `cased` tells whether the last
character there that case does not ignore is cased.
-/
def lowerAfter (cased : Bool) : Text → Text
  | [] => []
  | c :: cs =>
    (if c = 'Σ' then (if cased && !leadsToCased cs then ['ς'] else ['σ']) else lowerChar c) ++
      lowerAfter (if isCaseIgnorable c then cased else isCased c) cs

/-- The lower case of a text. -/
def lower (t : Text) : Text :=
  lowerAfter false t

/-- The text with A to Z in lower case. -/
def asciiLower (t : Text) : Text :=
  t.map Char.toLower

/-- The text with a to z in upper case. -/
def asciiUpper (t : Text) : Text :=
  t.map Char.toUpper

/-- Whether two texts differ at most in the case of ASCII letters. -/
def sameIgnoringAsciiCase (s t : Text) : Bool :=
  asciiLower s == asciiLower t

/-- Whether two values count as equal: up to blanks at the ends and to case. -/
def sameValue (s t : Text) : Bool :=
  sameIgnoringAsciiCase (trim s) (trim t) || lower (trim s) == lower (trim t)

end Text

end TicketSearch
