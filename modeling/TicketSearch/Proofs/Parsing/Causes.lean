/-
Why a token is rejected.

`Faults` has a constructor for every cause there is, with what is known of the state and the token
where it arises, and `faults_of_step` says that there is no other.  Proofs about one sort of error
go by cases on `Faults` and never open `step`, as those about what is read go by cases on `Shift`.

An error names its cause by its words only.  Those of an unknown field are told from all others by
one letter, so that the words give back the name (`Fault.eq_of_message_unknownField`).
-/
import TicketSearch.Proofs.Transition

namespace TicketSearch

/-! ### The causes of a rejection -/

/-- Whether a fault says that something else was expected. -/
def Fault.IsExpectation : Fault → Prop
  | fieldExpected _ | operatorExpected _ _ | inExpected _ | listExpected _ | emptyExpected _
  | valueExpected _ _ | listEndExpected _ | groupEndExpected _ | connectiveExpected _ => True
  | _ => False

namespace ParserState

variable {s : ParserState} {t : Token} {l : Level} {o : List Level} {e : ParseError} {read : Bool}

/-- What is wrong with a token in a state, and where that is reported. -/
inductive Faults : ParserState → Token → ParseError → Prop
  | unexpected {s : ParserState} {t : Token} : Faults s t ⟨s.expected t.found, some t.start⟩
  | emptyGroup {paren : Nat} {l : Level} {o : List Level} {t : Token}
      (kind : t.kind = .closeParen) :
      Faults ⟨.group paren, l, o⟩ t ⟨.emptyGroup, some paren⟩
  | emptyValueList {f : Field} {negated : Bool} {inWord : Nat} {l : Level}
      {o : List Level} {t : Token}
      (kind : t.kind = .closeParen) :
      Faults ⟨.listStart f negated inWord, l, o⟩ t ⟨.emptyValueList, some inWord⟩
  /-- A token that is marked as a field. -/
  | markedName {s : ParserState} {t : Token} (due : s.phase.Due) (kind : t.kind = .field)
      (unknown : Field.resolve? t.text = none) : Faults s t ⟨.unknownField t.text, some t.start⟩
  /-- A plain word that is not marked as a field, whatever it names. -/
  | plainName {s : ParserState} {t : Token} (due : s.phase.Due) (kind : t.kind = .value) :
      Faults s t ⟨.unknownField t.text, some t.start⟩
  | openQuote {s : ParserState} {t : Token} (due : s.phase.Due) (kind : t.kind = .unknown)
      (quote : t.text.head? = some '"') : Faults s t ⟨.unterminatedString, some t.start⟩
  | strayCharacter {s : ParserState} {t : Token} (due : s.phase.Due) (kind : t.kind = .unknown)
      (other : t.text.head? ≠ some '"') : Faults s t ⟨.unexpectedCharacter t.found, some t.start⟩
  | unknownOperator {f : Field} {name : Text} {l : Level} {o : List Level} {t : Token}
      (kind : t.kind = .operator) (unknown : Comparison.ofSymbol? t.text = none) :
      Faults ⟨.afterField f name, l, o⟩ t ⟨.unknownOperator t.text, some t.start⟩
  | emptyCompared {f : Field} {op : Comparison} {l : Level} {o : List Level} {t : Token}
      (kind : t.kind = .emptyWord) (ordering : op.isOrdering = true) :
      Faults ⟨.afterOperator f op, l, o⟩ t ⟨.emptyCompared op, some t.start⟩
  /-- A token that can stand as a value and denotes none. -/
  | unreadable {s : ParserState} {t : Token} {fault : Fault} (kind : t.kind.isValue = true)
      (literal : t.literal = .error fault) : Faults s t ⟨fault, some t.start⟩
  | nothingToClose {c : Query} {l : Level} {t : Token} (kind : t.kind = .closeParen) :
      Faults ⟨.complete c, l, []⟩ t ⟨.nothingToClose t.found, some t.start⟩

theorem faults_of_refuse (h : s.refuse t = .reject e read) : Faults s t e := by
  cases h
  exact .unexpected

theorem faults_of_withValue {next : Literal → Step} (hnext : ∀ value, ∃ s', next value = .shift s')
    (h : s.withValue t next = .reject e read) : Faults s t e := by
  unfold withValue at h
  split at h
  · next kind =>
      split at h
      · next value _ =>
          obtain ⟨s', hs'⟩ := hnext value
          rw [hs'] at h
          cases h
      · next fault literal =>
          cases h
          exact .unreadable kind literal
  · exact faults_of_refuse h

theorem faults_of_stepOperand (due : s.phase.Due) (h : s.stepOperand t = .reject e read) :
    Faults s t e := by
  unfold stepOperand at h
  split at h
  · cases h
  · cases h
  · next kind =>
      split at h
      · cases h
      · next unknown =>
          cases h
          exact .markedName due kind unknown
  · next kind =>
      cases h
      exact .plainName due kind
  · next kind =>
      split at h
      · next quote =>
          cases h
          exact .openQuote due kind quote
      · next other =>
          cases h
          exact .strayCharacter due kind other
  · exact faults_of_refuse h

theorem faults_of_stepField {f : Field} {name : Text}
    (h : stepField ⟨.afterField f name, l, o⟩ t f = .reject e read) :
    Faults ⟨.afterField f name, l, o⟩ t e := by
  unfold stepField at h
  split at h
  · next kind =>
      split at h
      · cases h
      · next unknown =>
          cases h
          exact .unknownOperator kind unknown
  · cases h
  · cases h
  · cases h
  · exact faults_of_refuse h

theorem faults_of_stepOperator {f : Field} {op : Comparison}
    (h : stepOperator ⟨.afterOperator f op, l, o⟩ t f op = .reject e read) :
    Faults ⟨.afterOperator f op, l, o⟩ t e := by
  unfold stepOperator at h
  split at h
  · next kind =>
      split at h
      · cases h
      · cases h
      · next hEq hNotEq =>
          cases h
          refine .emptyCompared kind ?_
          cases op with
          | eq => exact absurd rfl hEq
          | notEq => exact absurd rfl hNotEq
          | _ => rfl
  · exact faults_of_withValue (fun value => ⟨_, rfl⟩) h

theorem faults_of_stepComplete {c : Query}
    (h : stepComplete ⟨.complete c, l, o⟩ t c = .reject e read) :
    Faults ⟨.complete c, l, o⟩ t e := by
  unfold stepComplete at h
  split at h
  · cases h
  · cases h
  · cases h
  · next kind houter =>
      obtain rfl : o = [] := houter
      cases h
      exact .nothingToClose kind
  · cases h
  · exact faults_of_refuse h

/-- **Every rejection has one of these causes.** -/
theorem faults_of_step (h : s.step t = .reject e read) : Faults s t e := by
  obtain ⟨p, l, o⟩ := s
  cases p with
  | start =>
      simp only [step] at h
      split at h
      · cases h
      · exact faults_of_stepOperand trivial h
  | operand => exact faults_of_stepOperand trivial h
  | group paren =>
      simp only [step] at h
      split at h
      · next kind =>
          cases h
          exact .emptyGroup kind
      · exact faults_of_stepOperand trivial h
  | afterField f name => exact faults_of_stepField h
  | afterOperator f op => exact faults_of_stepOperator h
  | listStart f negated inWord =>
      simp only [step] at h
      split at h
      · next kind =>
          cases h
          exact .emptyValueList kind
      · exact faults_of_withValue (fun value => ⟨_, rfl⟩) h
  | listValue f negated values comma => exact faults_of_withValue (fun value => ⟨_, rfl⟩) h
  | complete c => exact faults_of_stepComplete h
  | afterNot f | afterIn f negated inWord | afterIsNot f =>
      simp only [step] at h
      split at h
      · cases h
      · exact faults_of_refuse h
  | listNext f negated values | afterIs f =>
      simp only [step] at h
      split at h
      · cases h
      · split at h
        · cases h
        · exact faults_of_refuse h

/-- What is found in place of what was expected is reported so. -/
theorem expected_isExpectation (s : ParserState) (found : Found) :
    (s.expected found).IsExpectation := by
  unfold expected
  split <;> try trivial
  split <;> trivial

/-- A token that can stand as a value denotes none when it is a number, a day or a
span that is not read. -/
theorem literal_error_cases {fault : Fault} (h : t.literal = .error fault) :
    t.kind = .number ∧ readFloat? t.text = none ∧ fault = .invalidNumber t.text ∨
      t.kind = .date ∧ Date.read? t.text = none ∧ fault = .invalidDate t.text ∨
        t.kind = .relativeDate ∧ RelativeDate.read? t.text = none ∧
        fault = .invalidRelativeDate t.text := by
  unfold Token.literal at h
  split at h
  · split at h <;> cases h
  · next kind =>
      split at h
      · cases h
      · next read =>
          cases h
          exact Or.inl ⟨kind, read, rfl⟩
  · next kind =>
      split at h
      · cases h
      · next read =>
          cases h
          exact Or.inr (Or.inl ⟨kind, read, rfl⟩)
  · next kind =>
      split at h
      · cases h
      · next read =>
          cases h
          exact Or.inr (Or.inr ⟨kind, read, rfl⟩)
  · cases h

/-- A name is reported as unknown when it is, or when it is a plain word that is
not marked as a field. -/
theorem Faults.of_unknownField {name : Text} {position : Option Nat}
    (h : Faults s t ⟨.unknownField name, position⟩) :
    name = t.text ∧ (Field.resolve? name = none ∨ s.phase.Due ∧ t.kind = .value) := by
  generalize he : (⟨.unknownField name, position⟩ : ParseError) = e at h
  cases h with
  | markedName due kind unknown =>
      cases he
      exact ⟨rfl, Or.inl unknown⟩
  | plainName due kind =>
      cases he
      exact ⟨rfl, Or.inr ⟨due, kind⟩⟩
  | unexpected =>
      have hexpected := expected_isExpectation s t.found
      rw [← (ParseError.mk.inj he).1] at hexpected
      exact hexpected.elim
  | unreadable kind literal =>
      obtain ⟨rfl, _⟩ := ParseError.mk.inj he
      rcases literal_error_cases literal with ⟨_, _, h⟩ | ⟨_, _, h⟩ | ⟨_, _, h⟩ <;> cases h
  | _ => cases he

end ParserState

/-! ### What the words of an error tell -/

namespace Fault

/-- The ninth letter of a message, which tells those of unknown fields from all others. -/
def ninthLetter : Fault → Char
  | unknownField _ => 'f'
  | unknownOperator _ => 'o'
  | unterminatedString => 'a'
  | unexpectedCharacter _ | nothingToClose _ => 'e'
  | emptyGroup => 'r'
  | emptyValueList => 'm'
  | emptyCompared _ | invalidNumber _ => 'n'
  | invalidDate _ => 'd'
  | invalidRelativeDate _ => 'r'
  | groupEndExpected _ => 'c'
  | fieldExpected _ | operatorExpected _ _ | inExpected _ | listExpected _ | emptyExpected _
  | valueExpected _ _ | listEndExpected _ | connectiveExpected _ => ' '

theorem message_ninthLetter (fault : Fault) : fault.message[8]? = some fault.ninthLetter := by
  cases fault with
  | valueExpected after found => cases after <;> rfl
  | _ => rfl

/-- The words of an unknown field are those of no other fault, and they tell its name. -/
theorem eq_of_message_unknownField {fault : Fault} {name : Text}
    (h : fault.message = (unknownField name).message) : fault = unknownField name := by
  have hletter : fault.ninthLetter = (unknownField name).ninthLetter := by
    rw [← Option.some.injEq, ← message_ninthLetter, ← message_ninthLetter, h]
  cases fault with
  | unknownField other =>
      have hname := List.append_cancel_left (List.append_cancel_right h)
      rw [hname]
  | _ => simp [ninthLetter] at hletter

end Fault

end TicketSearch
