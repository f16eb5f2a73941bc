/-
Fields are marked where the parser reads them.

The lexer decides by the tokens before a name whether it marks the name as a field.  All that it
keeps of them are two flags: whether a field is expected, and whether the last token is `IN`, so
that a parenthesis opens a list and not a group.  The parser keeps a phase.  The flags are a
function of the phase, `Phase.flags`, and every transition keeps them so (`track_of_shift`);
hence they agree at every token that the parser comes to (`kind_eq_field_iff_of_shiftAll`).

They say more than the phase in one place.  Behind the `NOT` of an operator, too, the flags expect
a field where the parser expects `IN` or `EMPTY`.  A name there is marked, and rejected.
-/
import TicketSearch.Proofs.Completion.Typing
import TicketSearch.Proofs.Mismatch
import TicketSearch.Proofs.Parsing
import TicketSearch.Proofs.Parsing.Causes
import TicketSearch.Proofs.Parsing.Rejection

namespace TicketSearch

/-! ### The flags of the lexer -/

theorem Field.mem_names_of_resolve? {name : Text} {f : Field} (h : resolve? name = some f) :
    ∃ own ∈ f.names, Text.asciiLower own = Text.asciiLower name := by
  have hnames := List.find?_some h
  obtain ⟨own, hown, hsame⟩ := List.any_eq_true.mp hnames
  exact ⟨own, hown, beq_iff_eq.mp hsame⟩

/-- What starts with a letter is a word. -/
theorem Lexeme.scan_of_isAlpha {c : Char} (hc : c.isAlpha = true) (rest : Text) :
    scan c rest = (wordKind (scan c rest).2, (scan c rest).2) := by
  have hne : ∀ d : Char, d.isAlpha = false → c ≠ d := by
    rintro d hd rfl
    rw [hc] at hd
    cases hd
  have hstarts : startsWord c rest = true := by
    unfold startsWord
    simp [isLetter_of_isAlpha hc]
  have hscan : scan c rest =
      (wordKind (c :: rest.takeWhile isWordChar), c :: rest.takeWhile isWordChar) := by
    unfold scan
    simp [hne '(' rfl, hne ')' rfl, hne ',' rfl, hne '=' rfl, hne '<' rfl, hne '>' rfl, hne '!' rfl,
      hne '"' rfl, hstarts]
  rw [hscan]

namespace Token

variable {source : Text} {raw t : Token} {ts pre post : List Token}

/-- The flags after a token: whether a field is expected, and whether the token is `IN`. -/
def track (flags : Bool × Bool) (t : Token) : Bool × Bool :=
  (expectsFieldAfter flags.2 t.kind, t.kind == .inWord)

/-- The flags after the first tokens of a query. -/
def tracked (tokens : List Token) : Bool × Bool :=
  tokens.foldl track (true, false)

theorem exists_of_markFields_eq {e a : Bool} (h : markFields e a ts = pre ++ t :: post) :
    ∃ raw ∈ ts, t = markField (pre.foldl track (e, a)).1 raw := by
  induction pre generalizing e a ts with
  | nil =>
      cases ts with
      | nil => cases h
      | cons raw ts => exact ⟨raw, List.mem_cons_self, (List.cons.inj h).1.symm⟩
  | cons u pre ih =>
      cases ts with
      | nil => cases h
      | cons raw ts =>
          obtain ⟨hu, hrest⟩ := List.cons.inj h
          rw [hu] at hrest
          obtain ⟨raw', hmem, ht⟩ := ih hrest
          exact ⟨raw', List.mem_cons_of_mem _ hmem, ht⟩

/-- A lexeme that starts with a letter is a word. -/
theorem kind_of_isAlpha {o skip : Nat} {s : Text} (h : raw ∈ lexemesFrom o skip s) {c : Char}
    (hhead : raw.text.head? = some c) (hc : c.isAlpha = true) :
    raw.kind = Lexeme.wordKind raw.text := by
  induction s generalizing o skip with
  | nil => cases skip <;> cases h
  | cons d s ih =>
      cases skip with
      | succ skip => exact ih h
      | zero =>
          by_cases hblank : isBlank d = true
          · rw [lexemesFrom_blank hblank] at h
            exact ih h
          · rw [lexemesFrom_scan (eq_false_of_ne_true hblank)] at h
            rcases List.mem_cons.mp h with rfl | hmem
            · obtain ⟨l, r, hl, _⟩ := Lexeme.exists_scan_eq d s
              have hd : d = c := by
                rw [hl] at hhead
                exact Option.some.inj hhead
              have hword := Lexeme.scan_of_isAlpha (hd ▸ hc) s
              exact congrArg Prod.fst hword
            · exact ih hmem

/-- A lexeme that names a field is a plain word. -/
theorem kind_of_resolves {o skip : Nat} {s : Text} (h : raw ∈ lexemesFrom o skip s)
    (hknown : (Field.resolve? raw.text).isSome) : raw.kind = .value := by
  have hnames : ∀ f : Field, ∀ own ∈ f.names, own ≠ [] ∧ Lexeme.wordKind own = .value := by
    intro f
    cases f <;> decide
  obtain ⟨f, hf⟩ := Option.isSome_iff_exists.mp hknown
  obtain ⟨own, hown, hsame⟩ := Field.mem_names_of_resolve? hf
  obtain ⟨hne, hkind⟩ := hnames f own hown
  have hletters : Text.Letters raw.text :=
    (Field.letters_of_mem_names hown).of_isPrefix ⟨[], by rw [List.append_nil, hsame]⟩
  have hsome : raw.text ≠ [] := by
    intro hnil
    rw [hnil] at hsame
    exact hne (List.map_eq_nil_iff.mp hsame)
  obtain ⟨c, cs, hcons⟩ := List.exists_cons_of_ne_nil hsome
  have halpha : c.isAlpha = true := hletters c (hcons ▸ List.mem_cons_self)
  rw [kind_of_isAlpha h (by rw [hcons]; rfl) halpha, ← Lexeme.wordKind_asciiLower, ← hsame,
    Lexeme.wordKind_asciiLower, hkind]

theorem kind_ne_field_of_mem {o skip : Nat} {s : Text} (h : raw ∈ lexemesFrom o skip s) :
    raw.kind ≠ .field := by
  intro hfield
  obtain ⟨r, hscans⟩ := scans_of_mem h (by rw [hfield]; decide)
  exact hscans.kind_ne_field hfield

/-- Exactly the names of fields are marked that stand where the flags expect a field. -/
theorem kind_eq_field_iff (h : stream source = pre ++ t :: post) :
    t.kind = .field ↔ (tracked pre).1 = true ∧ (Field.resolve? t.text).isSome := by
  obtain rfl | ⟨more, hmarked⟩ := cases_of_stream_eq h
  · have hnone : (Field.resolve? []).isSome = false := by decide
    refine iff_of_false TokenKind.noConfusion ?_
    rintro ⟨_, hknown⟩
    exact Bool.false_ne_true (hnone.symm.trans hknown)
  · obtain ⟨raw, hraw, ht⟩ := exists_of_markFields_eq hmarked
    change t = markField (tracked pre).1 raw at ht
    rw [ht, markField_kind, markField_text]
    unfold markedKind
    constructor
    · intro hfield
      split_ifs at hfield with hmarked
      · rw [Bool.and_eq_true, Bool.and_eq_true] at hmarked
        exact ⟨hmarked.1.1, hmarked.2⟩
      · exact absurd hfield (kind_ne_field_of_mem hraw)
    · rintro ⟨hexpected, hknown⟩
      have hvalue := kind_of_resolves hraw hknown
      rw [if_pos (by simp [hexpected, hvalue, hknown])]

end Token

/-! ### The flags are those of the phase -/

namespace Phase

/-- Behind the `NOT` of an operator. -/
def Negating : Phase → Prop
  | afterNot _ | afterIsNot _ => True
  | _ => False

/-- The flags of the lexer in a phase. -/
def flags : Phase → Bool × Bool
  | start | operand | group _ | afterNot _ | afterIsNot _ => (true, false)
  | afterIn .. => (false, true)
  | _ => (false, false)

variable {p p' : Phase} {t : Token} {q : Query}

theorem flags_fst_iff : p.flags.1 = true ↔ p.Due ∨ p.Negating := by
  cases p <;> simp [flags, Due, Negating]

theorem flags_of_due (h : p.Due) : p.flags = (true, false) := by
  cases p with
  | start | operand | group paren => rfl
  | _ => exact h.elim

theorem track_of_isValue (h : t.kind.isValue = true) (flags : Bool × Bool) :
    Token.track flags t = (false, false) := by
  unfold Token.track
  cases hkind : t.kind <;> first | rfl | (rw [hkind] at h; cases h)

theorem track_of_advances (h : p.Advances t p') : Token.track p.flags t = p'.flags := by
  cases h with
  | firstValue kind _ | nextValue kind _ => exact track_of_isValue kind _
  | field _ kind _ | operator kind _ => simp [Token.track, Token.expectsFieldAfter, kind, flags]
  | inWord kind | notWord kind | isWord kind | inAfterNot kind | listOpens kind | comma kind
  | notAfterIs kind =>
      simp [Token.track, Token.expectsFieldAfter, kind, flags]

theorem track_of_finishes (h : p.Finishes t q) : Token.track p.flags t = (false, false) := by
  cases h with
  | value kind _ => exact track_of_isValue kind _
  | equalsEmpty kind | differsFromEmpty kind | listCloses kind | isEmpty kind | isNotEmpty kind =>
      simp [Token.track, Token.expectsFieldAfter, kind]

end Phase

namespace ParserState

variable {s s' : ParserState} {t : Token} {ts : List Token}

/-- **Every transition keeps the flags in step with the phase.** -/
theorem track_of_shift (h : Shift s t s') : Token.track s.phase.flags t = s'.phase.flags := by
  cases h with
  | not due kind => simp [Token.track, Token.expectsFieldAfter, kind, Phase.flags]
  | @group p l o t due kind =>
      show Token.track p.flags t = (true, false)
      rw [Phase.flags_of_due due]
      simp [Token.track, Token.expectsFieldAfter, kind]
  | advance h => exact Phase.track_of_advances h
  | finish h => exact Phase.track_of_finishes h
  | and kind | or kind | close kind =>
      simp [Token.track, Token.expectsFieldAfter, kind, Phase.flags]

theorem foldl_track_of_shiftAll (h : s.shiftAll ts = some s') :
    ts.foldl Token.track s.phase.flags = s'.phase.flags := by
  induction ts generalizing s with
  | nil =>
      cases h
      rfl
  | cons t ts ih =>
      obtain ⟨next, hshift, hrest⟩ := shiftAll_cons_eq_some_iff.mp h
      rw [List.foldl_cons, track_of_shift hshift]
      exact ih hrest

/-- Behind the `NOT` of an operator a name is not read. -/
theorem Shift.kind_ne_field (h : Shift s t s') (hphase : s.phase.Negating) : t.kind ≠ .field := by
  cases h with
  | not due kind | group due kind => simp [kind]
  | and kind | or kind | close kind => simp [kind]
  | advance h =>
      cases h with
      | inAfterNot kind => simp [kind]
      | field due kind known =>
          rename_i p l o f
          cases p with
          | afterNot _ | afterIsNot _ => exact due.elim
          | _ => exact hphase.elim
      | _ => exact hphase.elim
  | finish h =>
      cases h with
      | isNotEmpty kind => simp [kind]
      | _ => exact hphase.elim

end ParserState

namespace Query

open ParserState

variable {source : Text} {pre post : List Token} {t : Token} {s : ParserState}

/--
At every token that the parser comes to, the names of fields are marked where a field is due and
behind the `NOT` of an operator.
-/
theorem kind_eq_field_iff_of_shiftAll (hstream : Token.stream source = pre ++ t :: post)
    (hread : initial.shiftAll pre = some s) :
    t.kind = .field ↔ (Field.resolve? t.text).isSome ∧ (s.phase.Due ∨ s.phase.Negating) := by
  have hflags : Token.tracked pre = s.phase.flags := foldl_track_of_shiftAll hread
  rw [Token.kind_eq_field_iff hstream, hflags, Phase.flags_fst_iff, and_comm]

end Query

end TicketSearch
