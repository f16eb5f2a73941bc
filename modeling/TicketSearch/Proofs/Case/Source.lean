/-
The tokens of a source in lower case.

The lexer asks of a character whether it is one of its signs, a blank, a digit or a letter,
and of a word which shape it has and whether it is a keyword.  None of this depends on case,
and no letter has more bytes than its lower case.  So a source in lower case has the same
tokens at the same places, with their texts in lower case (`Token.stream_asciiLower`).
-/
import TicketSearch.Proofs.Case.Reading
import TicketSearch.Proofs.Case.Words
import TicketSearch.Proofs.Writing.Literal

namespace TicketSearch

open Text (asciiLower)

/-! ### Characters -/

@[simp] theorem isLetter_toLower (c : Char) : isLetter c.toLower = isLetter c :=
  apply_toLower (fun _ => isLetter_of_isAlpha) c

@[simp] theorem isWordChar_toLower (c : Char) : isWordChar c.toLower = isWordChar c :=
  apply_toLower (fun _ => Lexeme.isWordChar_of_isAlpha) c

@[simp] theorem utf8Size_toLower (c : Char) : c.toLower.utf8Size = c.utf8Size := by
  refine apply_toLower (a := 1) (fun d hd => ?_) c
  have halpha := (isAlpha_iff d).mp hd
  rw [Char.utf8Size_eq_one_iff, UInt32.le_iff_toNat_le]
  show d.toNat ≤ 127
  omega

@[simp] theorem Text.byteLength_asciiLower (t : Text) :
    byteLength (asciiLower t) = byteLength t := by
  induction t with
  | nil => rfl
  | cons c t ih => rw [asciiLower_cons, byteLength_cons, byteLength_cons, utf8Size_toLower, ih]

namespace Lexeme

/-! ### Words -/

/-- Letters of ASCII make up a word. -/
theorem isWord_of_letters {t : Text} (hne : t ≠ []) (h : ∀ c ∈ t, c.isAlpha = true) : IsWord t := by
  constructor
  · obtain ⟨c, cs, rfl⟩ := List.exists_cons_of_ne_nil hne
    refine ⟨c, cs, rfl, ?_⟩
    unfold startsWord
    rw [isLetter_of_isAlpha (h c List.mem_cons_self)]
    rfl
  · exact fun d hd => isWordChar_of_isAlpha (h d hd)

@[simp] theorem isDateShaped_asciiLower (t : Text) :
    isDateShaped (asciiLower t) = isDateShaped t := by
  refine Text.apply_asciiLower (fun u hu => ?_) t
  obtain ⟨year, month, day, hdigits, rfl⟩ := exists_dateText hu
  unfold dateText
  simp only [List.mem_append, List.mem_cons]
  rintro c (hc | rfl | hc | rfl | hc)
  · exact not_isAlpha_of_isDigit (hdigits.year_digits c hc)
  · rfl
  · exact not_isAlpha_of_isDigit (hdigits.month_digits c hc)
  · rfl
  · exact not_isAlpha_of_isDigit (hdigits.day_digits c hc)

@[simp] theorem isNumberShaped_asciiLower (t : Text) :
    isNumberShaped (asciiLower t) = isNumberShaped t := by
  have hunsigned : ∀ u, isUnsignedNumber u = true → ∀ c ∈ u, c.isAlpha = false := by
    intro u hu c hc
    rcases (unsigned_chars hu).2 c hc with hdigit | rfl
    · exact not_isAlpha_of_isDigit hdigit
    · rfl
  refine Text.apply_asciiLower (fun u hu => ?_) t
  rcases exists_unsigned hu with hu | ⟨u, rfl, hu⟩
  · exact hunsigned u hu
  · exact List.forall_mem_cons.mpr ⟨rfl, hunsigned u hu⟩

theorem isRelativeShaped_cons (c : Char) (t : Text) :
    isRelativeShaped (c :: t) =
      (c == '-' && (!t.dropLast.isEmpty && t.dropLast.all Char.isDigit &&
        (t.getLast?.bind DateUnit.ofLetter?).isSome)) := by
  by_cases h : c = '-'
  · rw [h]
    rfl
  · rw [beq_false_of_ne h, isRelativeShaped]
    · rfl
    · simp [h]

@[simp] theorem isRelativeShaped_asciiLower (t : Text) :
    isRelativeShaped (asciiLower t) = isRelativeShaped t := by
  cases t with
  | nil => rfl
  | cons c t =>
      have hdash : (c.toLower == '-') = (c == '-') := beq_toLower rfl c
      have hempty : (asciiLower t.dropLast).isEmpty = t.dropLast.isEmpty := List.isEmpty_map
      simp only [Text.asciiLower_cons, isRelativeShaped_cons, hdash, Text.getLast?_asciiLower,
        Text.dropLast_asciiLower, Text.all_isDigit_asciiLower, hempty, Option.bind_map,
        Function.comp_def, DateUnit.ofLetter?_toLower]

@[simp] theorem wordKind_asciiLower (t : Text) : wordKind (asciiLower t) = wordKind t := by
  simp only [wordKind, isDateShaped_asciiLower, isNumberShaped_asciiLower,
    isRelativeShaped_asciiLower, Text.asciiLower_asciiLower]

/-! ### Lexemes -/

@[simp] theorem startsWord_asciiLower (c : Char) (rest : Text) :
    startsWord c.toLower (asciiLower rest) = startsWord c rest := by
  have hdash : (c.toLower == '-') = (c == '-') := beq_toLower rfl c
  have hline : (c.toLower == '_') = (c == '_') := beq_toLower rfl c
  simp only [startsWord, isLetter_toLower, hline, isDigit_toLower, hdash, Text.head?_asciiLower,
    Option.any_map]

theorem withEquals_cons_eq (alone : TokenKind) (c d : Char) (rest : Text) :
    withEquals alone c (d :: rest) = if d = '=' then (.operator, [c, '=']) else (alone, [c]) := by
  split_ifs with h
  · rw [h]
    rfl
  · rw [withEquals]
    simp [h]

@[simp] theorem withEquals_asciiLower (alone : TokenKind) (c : Char) (rest : Text) :
    withEquals alone c.toLower (asciiLower rest) =
      Prod.map id asciiLower (withEquals alone c rest) := by
  cases rest with
  | nil => rfl
  | cons d rest =>
      simp only [Text.asciiLower_cons, withEquals_cons_eq, toLower_eq_iff, Char.reduceIsAlpha]
      split_ifs <;> rfl

@[simp] theorem quoted_asciiLower (rest : Text) :
    quoted (asciiLower rest) = Prod.map id asciiLower (quoted rest) := by
  have hquote : ∀ c : Char, (c.toLower != '"') = (c != '"') := by
    intro c
    rw [bne, bne, beq_toLower rfl]
  have hdrop := Text.dropWhile_asciiLower (p := (· != '"')) hquote rest
  have htake := Text.takeWhile_asciiLower (p := (· != '"')) hquote rest
  unfold quoted
  rw [hdrop, htake]
  cases rest.dropWhile (· != '"') with
  | nil => rfl
  | cons d more => simp [asciiLower]

/-- **The lexeme at the start of a text in lower case** is that of the text, in lower case. -/
theorem scan_asciiLower (c : Char) (rest : Text) :
    scan c.toLower (asciiLower rest) = Prod.map id asciiLower (scan c rest) := by
  have htake := Text.takeWhile_asciiLower isWordChar_toLower rest
  have hword := wordKind_asciiLower (c :: rest.takeWhile isWordChar)
  rw [Text.asciiLower_cons] at hword
  simp only [scan, toLower_eq_iff, Char.reduceIsAlpha, withEquals_asciiLower, quoted_asciiLower,
    startsWord_asciiLower, htake, hword]
  split_ifs <;> rfl

end Lexeme

@[simp] theorem Field.resolve?_asciiLower (name : Text) :
    resolve? (asciiLower name) = resolve? name := by
  simp only [resolve?, Text.sameIgnoringAsciiCase, Text.asciiLower_asciiLower]

namespace Token

/-- A token with its text in lower case. -/
def lowerText (t : Token) : Token :=
  { t with text := asciiLower t.text }

theorem lexemesFrom_asciiLower (o skip : Nat) (s : Text) :
    lexemesFrom o skip (asciiLower s) = (lexemesFrom o skip s).map lowerText := by
  induction s generalizing o skip with
  | nil => cases skip <;> rfl
  | cons c s ih =>
      cases skip with
      | succ skip =>
          show lexemesFrom (o + c.toLower.utf8Size) skip (asciiLower s) = _
          rw [utf8Size_toLower, ih]
          rfl
      | zero =>
          rw [Text.asciiLower_cons]
          by_cases hblank : isBlank c = true
          · rw [lexemesFrom_blank hblank, lexemesFrom_blank ((isBlank_toLower c).trans hblank),
              utf8Size_toLower, ih]
          · have hc : isBlank c = false := eq_false_of_ne_true hblank
            rw [lexemesFrom_scan hc, lexemesFrom_scan ((isBlank_toLower c).trans hc),
              Lexeme.scan_asciiLower, utf8Size_toLower, List.map_cons, ← ih]
            simp [lowerText]

@[simp] theorem markField_lowerText (expected : Bool) (t : Token) :
    markField expected t.lowerText = (markField expected t).lowerText := by
  simp only [markField, lowerText, Field.resolve?_asciiLower]
  split_ifs <;> rfl

theorem markFields_lowerText (expected afterIn : Bool) (ts : List Token) :
    markFields expected afterIn (ts.map lowerText) =
      (markFields expected afterIn ts).map lowerText := by
  induction ts generalizing expected afterIn with
  | nil => rfl
  | cons t ts ih =>
      simp only [List.map_cons, markFields, markField_lowerText, ih]
      rfl

/-- **A source in lower case has the same tokens at the same places**, in lower case. -/
theorem stream_asciiLower (source : Text) :
    stream (asciiLower source) = (stream source).map lowerText := by
  unfold stream
  rw [lexemesFrom_asciiLower, markFields_lowerText, Text.byteLength_asciiLower, List.map_append]
  rfl

end Token

end TicketSearch
