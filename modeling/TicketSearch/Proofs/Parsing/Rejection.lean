/-
Where a query that is rejected is said to be wrong.

An error is reported at the token that is rejected, and that is the first token with which
the query cannot go on: what stands before it is viable, and with it nothing is.  There are
two exceptions, for pairs of parentheses without anything between.  An empty group is
reported at its opening parenthesis and an empty list at its `IN`, which are still viable;
what is not is the closing parenthesis.  The parser remembers the two offsets in its phase
until the next token is read, which is the invariant `Remembers`.

A token starts between two characters of the query, so that the caret of a message stands
under its first character.
-/
import TicketSearch.Display
import TicketSearch.Proofs.Completion.Replacement
import TicketSearch.Proofs.Parsing.Causes
import TicketSearch.Proofs.Parsing.Viability

namespace TicketSearch

namespace Fault

/-- Whether a fault is a pair of parentheses without anything between. -/
def IsEmptyPair (fault : Fault) : Prop :=
  fault = emptyGroup ∨ fault = emptyValueList

/-- The second letter of a message, which tells those of empty pairs from all others. -/
def secondLetter : Fault → Char
  | emptyGroup => 'm'
  | emptyValueList => 'N'
  | emptyCompared _ => 'M'
  | groupEndExpected _ => 'i'
  | fieldExpected _ | operatorExpected _ _ | inExpected _ | listExpected _ | emptyExpected _
  | valueExpected _ _ | listEndExpected _ | connectiveExpected _ => 'x'
  | unknownField _ | unterminatedString | unexpectedCharacter _ | unknownOperator _
  | invalidNumber _ | invalidDate _ | invalidRelativeDate _ | nothingToClose _ => 'n'

theorem message_secondLetter (fault : Fault) : fault.message[1]? = some fault.secondLetter := by
  cases fault with
  | valueExpected after found => cases after <;> rfl
  | _ => rfl

/-- No other fault is worded like an empty pair. -/
theorem eq_of_message {fault pair : Fault} (hpair : pair.IsEmptyPair)
    (h : fault.message = pair.message) : fault = pair := by
  have hletter : fault.secondLetter = pair.secondLetter := by
    rw [← Option.some.injEq, ← message_secondLetter, ← message_secondLetter, h]
  rcases hpair with rfl | rfl
  · cases fault with
    | emptyGroup => rfl
    | _ => simp [secondLetter] at hletter
  · cases fault with
    | emptyValueList => rfl
    | _ => simp [secondLetter] at hletter

end Fault

namespace ParserState

variable {s s' : ParserState} {t : Token} {ts : List Token} {e : ParseError} {read : Bool}

/-! ### Rejected tokens -/

/-- The rejections of the parser. -/
inductive Rejects : ParserState → Token → ParseError → Prop
  | emptyGroup {paren : Nat} {l : Level} {o : List Level} {t : Token}
      (kind : t.kind = .closeParen) :
      Rejects ⟨.group paren, l, o⟩ t ⟨.emptyGroup, some paren⟩
  | emptyValueList {f : Field} {negated : Bool} {inWord : Nat} {l : Level}
      {o : List Level} {t : Token}
      (kind : t.kind = .closeParen) :
      Rejects ⟨.listStart f negated inWord, l, o⟩ t ⟨.emptyValueList, some inWord⟩
  | here {s : ParserState} {t : Token} {fault : Fault} (other : ¬fault.IsEmptyPair) :
      Rejects s t ⟨fault, some t.start⟩

/-- What is found in place of what was expected is not an empty pair. -/
theorem expected_not_isEmptyPair (s : ParserState) (found : Found) :
    ¬(s.expected found).IsEmptyPair := by
  have hexpected := expected_isExpectation s found
  rintro (h | h) <;> (rw [h] at hexpected; exact hexpected)

/-- A token that does not denote a literal is not an empty pair. -/
theorem literal_not_isEmptyPair {fault : Fault} (h : t.literal = .error fault) :
    ¬fault.IsEmptyPair := by
  unfold Fault.IsEmptyPair
  rcases literal_error_cases h with ⟨_, _, rfl⟩ | ⟨_, _, rfl⟩ | ⟨_, _, rfl⟩ <;> simp

/-- Every rejection is one of these. -/
theorem rejects_of_step (h : s.step t = .reject e read) : Rejects s t e := by
  cases faults_of_step h with
  | emptyGroup kind => exact .emptyGroup kind
  | emptyValueList kind => exact .emptyValueList kind
  | unexpected => exact .here (expected_not_isEmptyPair s t.found)
  | unreadable _ literal => exact .here (literal_not_isEmptyPair literal)
  | _ => exact .here (by simp [Fault.IsEmptyPair])

/-! ### What the parser remembers of the tokens it has read -/

/-- The tokens that a phase remembers the offset of are the last that have been read. -/
def Remembers (read : List Token) : Phase → Prop
  | .group paren => ∃ before t, read = before ++ [t] ∧ t.kind = .openParen ∧ t.start = paren
  | .afterIn _ _ inWord => ∃ before t, read = before ++ [t] ∧ t.kind = .inWord ∧ t.start = inWord
  | .listStart _ _ inWord =>
    ∃ before t paren, read = before ++ [t, paren] ∧ t.kind = .inWord ∧ paren.kind = .openParen ∧
      t.start = inWord
  | _ => True

theorem Remembers.shift {read : List Token} (h : Remembers read s.phase) (hshift : Shift s t s') :
    Remembers (read ++ [t]) s'.phase := by
  cases hshift with
  | group due kind => exact ⟨read, t, rfl, kind, rfl⟩
  | advance hadvance =>
      cases hadvance with
      | inWord kind => exact ⟨read, t, rfl, kind, rfl⟩
      | inAfterNot kind => exact ⟨read, t, rfl, kind, rfl⟩
      | listOpens kind =>
          obtain ⟨before, word, rfl, hword, hstart⟩ := h
          exact ⟨before, word, t, List.append_assoc before [word] [t], hword, kind, hstart⟩
      | field due kind known => exact trivial
      | operator kind known => exact trivial
      | notWord kind => exact trivial
      | isWord kind => exact trivial
      | firstValue kind readable => exact trivial
      | nextValue kind readable => exact trivial
      | comma kind => exact trivial
      | notAfterIs kind => exact trivial
  | not due kind => exact trivial
  | finish hfinish => exact trivial
  | and kind => exact trivial
  | or kind => exact trivial
  | close kind => exact trivial

theorem Remembers.shiftAll {read : List Token} (h : Remembers read s.phase)
    (hts : s.shiftAll ts = some s') : Remembers (read ++ ts) s'.phase := by
  induction ts generalizing s read with
  | nil =>
      cases hts
      rw [List.append_nil]
      exact h
  | cons t ts ih =>
      obtain ⟨next, hshift, hrest⟩ := shiftAll_cons_eq_some_iff.mp hts
      have hnext := ih (h.shift hshift) hrest
      rwa [List.append_assoc] at hnext

/-- A run that fails has read some tokens when it rejects one; the end of the
input at the latest. -/
theorem exists_reject_of_run {eof : Token} (heof : eof.kind = .endOfInput)
    (h : (s.run (ts ++ [eof])).1 = .error e) :
    ∃ before t after s' read, ts ++ [eof] = before ++ t :: after ∧ s.shiftAll before = some s' ∧
      s'.step t = .reject e read := by
  induction ts generalizing s with
  | nil =>
      rw [List.nil_append, run] at h
      split at h
      · next next hstep => exact absurd heof (shift_of_step hstep).kind_ne.1
      · cases h
      · next e' read hstep =>
          cases h
          exact ⟨[], eof, [], s, read, rfl, rfl, hstep⟩
  | cons t ts ih =>
      rw [List.cons_append, run] at h
      split at h
      · next next hstep =>
          obtain ⟨before, u, after, s', read, heq, hs', hreject⟩ := ih h
          refine ⟨t :: before, u, after, s', read, ?_, ?_, hreject⟩
          · rw [List.cons_append, heq, List.cons_append]
          · exact shiftAll_cons_eq_some_iff.mpr ⟨next, shift_of_step hstep, hs'⟩
      · cases h
      · next e' read hstep =>
          cases h
          exact ⟨[], t, ts ++ [eof], s, read, rfl, rfl, hstep⟩

end ParserState

/-! ### Where tokens start -/

namespace Token

/-- A token of a query starts between two of its characters, or where it ends. -/
theorem exists_split_of_mem_stream {s : Text} {t : Token} (h : t ∈ stream s) :
    ∃ a b, s = a ++ b ∧ Text.byteLength a = t.start := by
  rcases List.mem_append.mp h with hmem | hend
  · obtain ⟨raw, hraw, b, rfl⟩ := exists_of_mem_markFields hmem
    obtain ⟨before, after, hsplit⟩ := List.append_of_mem hraw
    obtain ⟨first, last, hs, hstart, _⟩ := exists_reads_before hsplit
    refine ⟨first, last, hs, ?_⟩
    rw [markField_start, ← hstart, Nat.zero_add]
  · cases List.mem_singleton.mp hend
    exact ⟨s, [], (List.append_nil s).symm, rfl⟩

end Token

namespace Query

open ParserState

/-- The caret of an error stands under the character at which the error is reported. -/
theorem renderError_eq {first last : Text} {e : ParseError} {p : Nat}
    (hposition : e.position = some p) (hp : Text.byteLength first = p) :
    renderError (first ++ last) e =
      first ++ last ++ '\n' :: List.replicate first.length ' ' ++ "^\nerror: " ++
        e.fault.message := by
  have hbefore : Text.before? (first ++ last) p = some first := by
    unfold Text.before?
    rw [← hp, Text.splitAtByte?_append]
    rfl
  unfold renderError renderMessage
  rw [hposition]
  simp only [hbefore, Option.getD_some]

/-- What is wrong with tokens that stand around the one that an error is reported at. -/
structure Blames (e : ParseError) (before : List Token) (t : Token) (after : List Token) :
    Prop where
  position : e.position = some t.start
  viable : Viable before
  impossible : e.fault.message ≠ "Empty parentheses" →
    e.fault.message ≠ "IN list must contain at least one value" → ¬Viable (before ++ [t])
  group : e.fault.message = "Empty parentheses" →
    t.kind = .openParen ∧ ∃ close rest, after = close :: rest ∧ close.kind = .closeParen ∧
      Viable (before ++ [t]) ∧ ¬Viable (before ++ [t, close])
  list : e.fault.message = "IN list must contain at least one value" →
    t.kind = .inWord ∧ ∃ paren close rest, after = paren :: close :: rest ∧
      paren.kind = .openParen ∧ close.kind = .closeParen ∧
        Viable (before ++ [t, paren]) ∧ ¬Viable (before ++ [t, paren, close])

/-- The token that is rejected, or the one that opens the empty pair that it closes, is to blame. -/
theorem exists_blames {ts : List Token} {eof : Token} {e : ParseError}
    (heof : eof.kind = .endOfInput) (h : (parseTokens (ts ++ [eof])).1 = .error e) :
    ∃ before t after, ts ++ [eof] = before ++ t :: after ∧ Blames e before t after := by
  obtain ⟨read, u, after, s, left, heq, hread, hreject⟩ := exists_reject_of_run heof h
  have hviable := viable_of_shiftAll hread
  have hdead := not_viable_of_reject hread hreject
  have hremembers : Remembers read s.phase := by
    have hinitial : Remembers [] initial.phase := trivial
    exact hinitial.shiftAll hread
  have hprefix : ∀ before last, read = before ++ last → Viable before := by
    rintro before last rfl
    rw [shiftAll_append] at hread
    obtain ⟨s', hs', _⟩ := Option.bind_eq_some_iff.mp hread
    exact viable_of_shiftAll hs'
  cases rejects_of_step hreject with
  | here other =>
      refine ⟨read, u, after, heq, rfl, hviable, fun _ _ => hdead, ?_, ?_⟩
      · intro hmessage
        exact absurd (Or.inl (Fault.eq_of_message (Or.inl rfl) hmessage)) other
      · intro hmessage
        exact absurd (Or.inr (Fault.eq_of_message (Or.inr rfl) hmessage)) other
  | emptyGroup kind =>
      obtain ⟨before, t, rfl, hkind, rfl⟩ := hremembers
      rw [List.append_assoc] at heq hdead
      refine ⟨before, t, u :: after, heq, rfl, hprefix before [t] rfl, ?_, ?_, ?_⟩
      · intro hmessage
        exact absurd rfl hmessage
      · intro _
        exact ⟨hkind, u, after, rfl, kind, hviable, hdead⟩
      · intro hmessage
        cases Fault.eq_of_message (Or.inr rfl) hmessage
  | emptyValueList kind =>
      obtain ⟨before, t, paren, rfl, hkind, hparen, rfl⟩ := hremembers
      rw [List.append_assoc] at heq hdead
      refine ⟨before, t, paren :: u :: after, heq, rfl, hprefix before [t, paren] rfl, ?_, ?_, ?_⟩
      · intro _ hmessage
        exact absurd rfl hmessage
      · intro hmessage
        cases Fault.eq_of_message (Or.inl rfl) hmessage
      · intro _
        exact ⟨hkind, paren, u, after, rfl, hparen, kind, hviable, hdead⟩

/--
**An error is reported where the query goes wrong.**  It has an offset, at which a token of
the query starts, between two characters.  The tokens before that one can be continued to a
query, and with it they cannot; but an empty group is reported at its opening parenthesis
and an empty list at its `IN`, and there the closing parenthesis is the first token with
which they cannot.  When the error is shown, its caret stands behind as many spaces as there
are characters before the offset.
-/
theorem parse_error (source : Text) (e : ParseError) (h : parse source = .error e) :
    ∃ before t after first last, Token.stream source = before ++ t :: after ∧
      Blames e before t after ∧ source = first ++ last ∧ Text.byteLength first = t.start ∧
        renderError source e =
          source ++ '\n' :: List.replicate first.length ' ' ++ "^\nerror: " ++ e.fault.message := by
  obtain ⟨before, t, after, heq, hblames⟩ := exists_blames rfl h
  have hstream : Token.stream source = before ++ t :: after := heq
  have hmem : t ∈ Token.stream source := by
    rw [hstream]
    exact List.mem_append_right _ List.mem_cons_self
  obtain ⟨first, last, rfl, hstart⟩ := Token.exists_split_of_mem_stream hmem
  exact ⟨before, t, after, first, last, hstream, hblames, rfl, hstart,
    renderError_eq hblames.position hstart⟩

/-- The empty list of a query is reported at its `IN`, behind letters of more than one byte. -/
theorem parse_error_of_empty_list :
    ∃ before t after first last,
      Token.stream "title = \"größer\" AND type IN ()" = before ++ t :: after ∧
      Blames ⟨.emptyValueList, some 28⟩ before t after ∧
      ("title = \"größer\" AND type IN ()" : Text) = first ++ last ∧
      Text.byteLength first = t.start ∧
      renderError "title = \"größer\" AND type IN ()" ⟨.emptyValueList, some 28⟩ =
        "title = \"größer\" AND type IN ()" ++ '\n' :: List.replicate first.length ' ' ++
          "^\nerror: " ++
          Fault.message .emptyValueList :=
  parse_error "title = \"größer\" AND type IN ()" ⟨.emptyValueList, some 28⟩ (by decide +kernel)

end Query

end TicketSearch
