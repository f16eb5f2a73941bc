/-
What one token does to the parser.

`ParserState.step` is a function with a branch for every pair of a phase and a kind of
token.  `Shift` says the same as a relation with one constructor for every transition
there is; `shift_of_step` and `step_of_shift` say that the two agree.  Proofs about what the
parser has read go by cases on `Shift` and never open `step`.

Inside a predicate a transition changes the phase alone, so `Shift` is stated over two
smaller relations: `Advances` for the transitions within a predicate and `Finishes` for
those that complete it.

`shiftAll` reads a list of tokens of which none ends the query; `run_ok_iff` takes a
successful run apart into such a list and the end of the input.
-/
import TicketSearch.Query.Parser

namespace TicketSearch

namespace Phase

/-- An operand is due. -/
def Due : Phase → Prop
  | start | operand | group _ => True
  | _ => False

/-- A token that leads from one phase of a predicate to another. -/
inductive Advances : Phase → Token → Phase → Prop
  | field {p : Phase} {t : Token} {f : Field} (due : p.Due) (kind : t.kind = .field)
      (known : Field.resolve? t.text = some f) : Advances p t (afterField f t.text)
  | operator {f : Field} {name : Text} {t : Token} {op : Comparison} (kind : t.kind = .operator)
      (known : Comparison.ofSymbol? t.text = some op) :
      Advances (afterField f name) t (afterOperator f op)
  | inWord {f : Field} {name : Text} {t : Token} (kind : t.kind = .inWord) :
      Advances (afterField f name) t (afterIn f false t.start)
  | notWord {f : Field} {name : Text} {t : Token} (kind : t.kind = .notWord) :
      Advances (afterField f name) t (afterNot f)
  | isWord {f : Field} {name : Text} {t : Token} (kind : t.kind = .isWord) :
      Advances (afterField f name) t (afterIs f)
  | inAfterNot {f : Field} {t : Token} (kind : t.kind = .inWord) :
      Advances (afterNot f) t (afterIn f true t.start)
  | listOpens {f : Field} {negated : Bool} {inWord : Nat} {t : Token} (kind : t.kind = .openParen) :
      Advances (afterIn f negated inWord) t (listStart f negated inWord)
  | firstValue {f : Field} {negated : Bool} {inWord : Nat} {t : Token} {value : Literal}
      (kind : t.kind.isValue = true) (readable : t.literal = .ok value) :
      Advances (listStart f negated inWord) t (listNext f negated [value])
  | nextValue {f : Field} {negated : Bool} {values : List Literal} {comma : Text} {t : Token}
      {value : Literal} (kind : t.kind.isValue = true) (readable : t.literal = .ok value) :
      Advances (listValue f negated values comma) t (listNext f negated (values ++ [value]))
  | comma {f : Field} {negated : Bool} {values : List Literal} {t : Token}
      (kind : t.kind = .comma) :
      Advances (listNext f negated values) t (listValue f negated values t.text)
  | notAfterIs {f : Field} {t : Token} (kind : t.kind = .notWord) :
      Advances (afterIs f) t (afterIsNot f)

/-- A token that completes a predicate. -/
inductive Finishes : Phase → Token → Query → Prop
  | value {f : Field} {op : Comparison} {t : Token} {value : Literal}
      (kind : t.kind.isValue = true) (readable : t.literal = .ok value) :
      Finishes (afterOperator f op) t (.compare f op value)
  | equalsEmpty {f : Field} {t : Token} (kind : t.kind = .emptyWord) :
      Finishes (afterOperator f .eq) t (.empty f false)
  | differsFromEmpty {f : Field} {t : Token} (kind : t.kind = .emptyWord) :
      Finishes (afterOperator f .notEq) t (.empty f true)
  | listCloses {f : Field} {negated : Bool} {values : List Literal} {t : Token}
      (kind : t.kind = .closeParen) :
      Finishes (listNext f negated values) t (.member f negated values)
  | isEmpty {f : Field} {t : Token} (kind : t.kind = .emptyWord) :
      Finishes (afterIs f) t (.empty f false)
  | isNotEmpty {f : Field} {t : Token} (kind : t.kind = .emptyWord) :
      Finishes (afterIsNot f) t (.empty f true)

end Phase

namespace ParserState

/-- The transitions of the parser. -/
inductive Shift : ParserState → Token → ParserState → Prop
  | not {p : Phase} {l : Level} {o : List Level} {t : Token} (due : p.Due)
      (kind : t.kind = .notWord) :
      Shift ⟨p, l, o⟩ t ⟨.operand, { l with negations := l.negations + 1 }, o⟩
  | group {p : Phase} {l : Level} {o : List Level} {t : Token} (due : p.Due)
      (kind : t.kind = .openParen) :
      Shift ⟨p, l, o⟩ t ⟨.group t.start, .fresh, l :: o⟩
  | advance {p p' : Phase} {l : Level} {o : List Level} {t : Token} (h : p.Advances t p') :
      Shift ⟨p, l, o⟩ t ⟨p', l, o⟩
  | finish {p : Phase} {q : Query} {l : Level} {o : List Level} {t : Token} (h : p.Finishes t q) :
      Shift ⟨p, l, o⟩ t ⟨.complete (l.chain q), l, o⟩
  | and {c : Query} {l : Level} {o : List Level} {t : Token} (kind : t.kind = .andWord) :
      Shift ⟨.complete c, l, o⟩ t ⟨.operand, ⟨l.alternatives, some c, 0⟩, o⟩
  | or {c : Query} {l : Level} {o : List Level} {t : Token} (kind : t.kind = .orWord) :
      Shift ⟨.complete c, l, o⟩ t ⟨.operand, ⟨some (l.total c), none, 0⟩, o⟩
  | close {c : Query} {l outside : Level} {o : List Level} {t : Token}
      (kind : t.kind = .closeParen) :
      Shift ⟨.complete c, l, outside :: o⟩ t ⟨.complete (outside.chain (l.total c)), outside, o⟩

/-! ### Every step is one of the transitions -/

variable {p : Phase} {l : Level} {o : List Level} {t : Token} {s' : ParserState}

theorem shift_of_stepOperand (due : p.Due) (h : stepOperand ⟨p, l, o⟩ t = .shift s') :
    Shift ⟨p, l, o⟩ t s' := by
  simp only [stepOperand, go, refuse] at h
  split at h
  · next kind =>
      cases h
      exact .not due kind
  · next kind =>
      cases h
      exact .group due kind
  · next kind =>
      split at h
      · next f known =>
          cases h
          exact .advance (.field due kind known)
      · cases h
  · cases h
  · split at h <;> cases h
  · cases h

theorem shift_of_stepField {f : Field} {name : Text}
    (h : stepField ⟨.afterField f name, l, o⟩ t f = .shift s') :
    Shift ⟨.afterField f name, l, o⟩ t s' := by
  simp only [stepField, go, refuse] at h
  split at h
  · next kind =>
      split at h
      · next op known =>
          cases h
          exact .advance (.operator kind known)
      · cases h
  · next kind =>
      cases h
      exact .advance (.inWord kind)
  · next kind =>
      cases h
      exact .advance (.notWord kind)
  · next kind =>
      cases h
      exact .advance (.isWord kind)
  · cases h

/-- A value is read only from a token that can stand as one and denotes a literal. -/
theorem withValue_eq_shift {s : ParserState} {next : Literal → Step}
    (h : s.withValue t next = .shift s') :
    ∃ value, t.kind.isValue = true ∧ t.literal = .ok value ∧ next value = .shift s' := by
  simp only [withValue, refuse] at h
  split at h
  · next kind =>
      split at h
      · next value readable => exact ⟨value, kind, readable, h⟩
      · cases h
  · cases h

theorem shift_of_stepOperator {f : Field} {op : Comparison}
    (h : stepOperator ⟨.afterOperator f op, l, o⟩ t f op = .shift s') :
    Shift ⟨.afterOperator f op, l, o⟩ t s' := by
  simp only [stepOperator, finishOperand, go] at h
  split at h
  · next kind =>
      split at h
      · cases h
        exact .finish (.equalsEmpty kind)
      · cases h
        exact .finish (.differsFromEmpty kind)
      · cases h
  · obtain ⟨value, kind, readable, hnext⟩ := withValue_eq_shift h
    cases hnext
    exact .finish (.value kind readable)

theorem shift_of_stepComplete {c : Query}
    (h : stepComplete ⟨.complete c, l, o⟩ t c = .shift s') : Shift ⟨.complete c, l, o⟩ t s' := by
  simp only [stepComplete, refuse] at h
  split at h
  · next kind =>
      cases h
      exact .and kind
  · next kind =>
      cases h
      exact .or kind
  · next kind =>
      cases h
      exact .close kind
  · cases h
  · cases h
  · cases h

theorem shift_of_step {s s' : ParserState} (h : s.step t = .shift s') : Shift s t s' := by
  obtain ⟨p, l, o⟩ := s
  cases p <;> simp only [step, go, finishOperand, refuse] at h
  case start =>
    split at h
    · cases h
    · exact shift_of_stepOperand trivial h
  case operand => exact shift_of_stepOperand trivial h
  case group paren =>
    split at h
    · cases h
    · exact shift_of_stepOperand trivial h
  case afterField f name => exact shift_of_stepField h
  case afterOperator f op => exact shift_of_stepOperator h
  case afterNot f =>
    split at h
    · next kind =>
        cases h
        exact .advance (.inAfterNot kind)
    · cases h
  case afterIn f negated inWord =>
    split at h
    · next kind =>
        cases h
        exact .advance (.listOpens kind)
    · cases h
  case listStart f negated inWord =>
    split at h
    · cases h
    · obtain ⟨value, kind, readable, hnext⟩ := withValue_eq_shift h
      cases hnext
      exact .advance (.firstValue kind readable)
  case listValue f negated values comma =>
    obtain ⟨value, kind, readable, hnext⟩ := withValue_eq_shift h
    cases hnext
    exact .advance (.nextValue kind readable)
  case listNext f negated values =>
    split at h
    · next kind =>
        cases h
        exact .finish (.listCloses kind)
    · split at h
      · next kind =>
          cases h
          exact .advance (.comma kind)
      · cases h
  case afterIs f =>
    split at h
    · next kind =>
        cases h
        exact .advance (.notAfterIs kind)
    · split at h
      · next kind =>
          cases h
          exact .finish (.isEmpty kind)
      · cases h
  case afterIsNot f =>
    split at h
    · next kind =>
        cases h
        exact .finish (.isNotEmpty kind)
    · cases h
  case complete c => exact shift_of_stepComplete h

/-! ### Every transition is a step -/

theorem step_of_due (due : p.Due) (hclose : t.kind ≠ .closeParen) (hend : t.kind ≠ .endOfInput) :
    step ⟨p, l, o⟩ t = stepOperand ⟨p, l, o⟩ t := by
  cases p with
  | start => simp only [step, if_neg hend]
  | operand => rfl
  | group paren => simp only [step, if_neg hclose]
  | _ => exact due.elim

theorem step_of_advances {p' : Phase} (h : p.Advances t p') :
    step ⟨p, l, o⟩ t = .shift ⟨p', l, o⟩ := by
  cases h with
  | field due kind known =>
      rw [step_of_due due (by rw [kind]; decide) (by rw [kind]; decide)]
      simp only [stepOperand, kind, known, go]
  | operator kind known => simp only [step, stepField, kind, known, go]
  | firstValue kind readable =>
      have hclose : t.kind ≠ .closeParen := by
        intro hc
        rw [hc] at kind
        exact Bool.false_ne_true kind
      simp only [step, if_neg hclose, withValue, kind, readable, go, if_true]
  | nextValue kind readable => simp only [step, withValue, kind, readable, go, if_true]
  | comma kind => simp [step, kind, go]
  | inWord kind | notWord kind | isWord kind => simp only [step, stepField, kind, go]
  | inAfterNot kind | listOpens kind | notAfterIs kind => simp only [step, kind, go, if_true]

theorem step_of_finishes {q : Query} (h : p.Finishes t q) :
    step ⟨p, l, o⟩ t = .shift ⟨.complete (l.chain q), l, o⟩ := by
  cases h with
  | value kind readable =>
      have hempty : t.kind ≠ .emptyWord := by
        intro hc
        rw [hc] at kind
        exact Bool.false_ne_true kind
      simp only [step, stepOperator, if_neg hempty, withValue, kind, readable, finishOperand, go,
        if_true]
  | equalsEmpty kind | differsFromEmpty kind =>
      simp only [step, stepOperator, kind, finishOperand, go, if_true]
  | listCloses kind | isNotEmpty kind => simp only [step, kind, finishOperand, go, if_true]
  | isEmpty kind => simp [step, kind, finishOperand, go]

theorem step_of_shift {s s' : ParserState} (h : Shift s t s') : s.step t = .shift s' := by
  cases h with
  | not due kind =>
      rw [step_of_due due (by rw [kind]; decide) (by rw [kind]; decide)]
      simp only [stepOperand, kind]
  | group due kind =>
      rw [step_of_due due (by rw [kind]; decide) (by rw [kind]; decide)]
      simp only [stepOperand, kind]
  | advance h => exact step_of_advances h
  | finish h => exact step_of_finishes h
  | and kind | or kind | close kind => simp only [step, stepComplete, kind]

/-- Neither the end of the input nor a character that starts no token is ever read. -/
theorem Shift.kind_ne {s s' : ParserState} (h : Shift s t s') :
    t.kind ≠ .endOfInput ∧ t.kind ≠ .unknown := by
  have hvalue : t.kind.isValue = true → t.kind ≠ .endOfInput ∧ t.kind ≠ .unknown := by
    intro hv
    constructor <;> intro hc <;> rw [hc] at hv <;> exact Bool.false_ne_true hv
  cases h with
  | not _ kind | group _ kind | and kind | or kind | close kind => simp [kind]
  | advance h =>
      cases h with
      | firstValue kind _ | nextValue kind _ => exact hvalue kind
      | field _ kind _ | operator kind _ => simp [kind]
      | inWord kind | notWord kind | isWord kind | inAfterNot kind | listOpens kind | comma kind
      | notAfterIs kind => simp [kind]
  | finish h =>
      cases h with
      | value kind _ => exact hvalue kind
      | equalsEmpty kind | differsFromEmpty kind | listCloses kind | isEmpty kind
      | isNotEmpty kind => simp [kind]

/-! ### The end of a query -/

/-- The query that is complete if the input ends in a state. -/
def total? (s : ParserState) : Option Query :=
  match s.phase, s.outer with
  | .start, _ => some .all
  | .complete c, [] => some (s.level.total c)
  | _, _ => none

theorem stepOperand_ne_accept (s : ParserState) (q : Query) : s.stepOperand t ≠ .accept q := by
  simp only [stepOperand, go, refuse]
  repeat' split
  all_goals simp

theorem withValue_eq_accept {s : ParserState} {next : Literal → Step} {q : Query}
    (h : s.withValue t next = .accept q) : ∃ value, next value = .accept q := by
  simp only [withValue, refuse] at h
  split at h
  · split at h
    · next value _ => exact ⟨value, h⟩
    · cases h
  · cases h

/-- A query is accepted exactly at the end of the input, in a state in which it is complete. -/
theorem step_eq_accept_iff {s : ParserState} {q : Query} :
    s.step t = .accept q ↔ t.kind = .endOfInput ∧ s.total? = some q := by
  obtain ⟨p, l, o⟩ := s
  cases p with
  | start =>
      simp only [step, total?]
      split
      · next h => simp [h]
      · next h => simp [h, stepOperand_ne_accept]
  | operand => simp [step, total?, stepOperand_ne_accept]
  | group paren =>
      simp only [step, total?]
      split <;> simp [stepOperand_ne_accept]
  | afterField f name =>
      simp only [step, stepField, total?, go, refuse]
      repeat' split
      all_goals simp
  | afterOperator f op =>
      simp only [step, stepOperator, total?, finishOperand, go]
      refine ⟨fun h => ?_, fun h => by simp at h⟩
      split at h
      · split at h <;> cases h
      · obtain ⟨value, hnext⟩ := withValue_eq_accept h
        cases hnext
  | listStart f negated inWord =>
      simp only [step, total?, go]
      refine ⟨fun h => ?_, fun h => by simp at h⟩
      split at h
      · cases h
      · obtain ⟨value, hnext⟩ := withValue_eq_accept h
        cases hnext
  | listValue f negated values comma =>
      simp only [step, total?, go]
      refine ⟨fun h => ?_, fun h => by simp at h⟩
      obtain ⟨value, hnext⟩ := withValue_eq_accept h
      cases hnext
  | complete c =>
      simp only [step, stepComplete, total?, refuse]
      cases o <;> cases t.kind <;> simp
  | _ =>
      simp only [step, total?, finishOperand, go, refuse]
      repeat' split
      all_goals simp

/-! ### Reading many tokens -/

/-- The state after some tokens, none of which ends the query or is rejected. -/
def shiftAll : ParserState → List Token → Option ParserState
  | s, [] => some s
  | s, t :: ts =>
    match s.step t with
    | .shift next => next.shiftAll ts
    | _ => none

@[simp] theorem shiftAll_nil (s : ParserState) : s.shiftAll [] = some s := rfl

theorem shiftAll_cons_eq_some_iff {s s'' : ParserState} {ts : List Token} :
    s.shiftAll (t :: ts) = some s'' ↔ ∃ s', Shift s t s' ∧ s'.shiftAll ts = some s'' := by
  rw [shiftAll]
  constructor
  · intro h
    split at h
    · next next hstep => exact ⟨next, shift_of_step hstep, h⟩
    · cases h
  · rintro ⟨s', hshift, h⟩
    rw [step_of_shift hshift]
    exact h

theorem shiftAll_cons {s s' : ParserState} (h : Shift s t s') (ts : List Token) :
    s.shiftAll (t :: ts) = s'.shiftAll ts := by
  rw [shiftAll, step_of_shift h]

theorem shiftAll_append (s : ParserState) (ts us : List Token) :
    s.shiftAll (ts ++ us) = (s.shiftAll ts).bind fun s' => s'.shiftAll us := by
  induction ts generalizing s with
  | nil => rfl
  | cons t ts ih =>
      rw [List.cons_append, shiftAll, shiftAll]
      cases s.step t with
      | shift next => exact ih next
      | accept q => rfl
      | reject e read => rfl

theorem shiftAll_append_of_eq_some {s s' : ParserState} {ts : List Token}
    (h : s.shiftAll ts = some s') (us : List Token) : s.shiftAll (ts ++ us) = s'.shiftAll us := by
  rw [shiftAll_append, h, Option.bind_some]

/-- Every token that is read is one that the lexer knows. -/
theorem known_of_shiftAll {s s' : ParserState} {ts : List Token} (h : s.shiftAll ts = some s') :
    ∀ t ∈ ts, t.kind ≠ .unknown := by
  induction ts generalizing s with
  | nil =>
      intro t ht
      cases ht
  | cons u ts ih =>
      intro t ht
      obtain ⟨next, hshift, hrest⟩ := shiftAll_cons_eq_some_iff.mp h
      rcases List.mem_cons.mp ht with rfl | hmem
      · exact hshift.kind_ne.2
      · exact ih hrest t hmem

theorem run_append_of_shiftAll {s s' : ParserState} {ts : List Token} (h : s.shiftAll ts = some s')
    (us : List Token) : s.run (ts ++ us) = s'.run us := by
  induction ts generalizing s with
  | nil =>
      cases h
      rfl
  | cons t ts ih =>
      obtain ⟨next, hshift, hrest⟩ := shiftAll_cons_eq_some_iff.mp h
      rw [List.cons_append, run, step_of_shift hshift]
      exact ih hrest

/--
A list of tokens of which only the last is an end of input is a query exactly when the
tokens before that one can all be read and lead to a state in which a query is complete.
-/
theorem run_ok_iff {s : ParserState} {ts : List Token} {eof : Token} {q : Query}
    (heof : eof.kind = .endOfInput) (hts : ∀ t ∈ ts, t.kind ≠ .endOfInput) :
    (s.run (ts ++ [eof])).1 = .ok q ↔ ∃ s', s.shiftAll ts = some s' ∧ s'.total? = some q := by
  constructor
  · intro h
    induction ts generalizing s with
    | nil =>
        refine ⟨s, rfl, ?_⟩
        rw [List.nil_append, run] at h
        split at h
        · next next hstep =>
            exact absurd heof (shift_of_step hstep).kind_ne.1
        · next q' hstep =>
            obtain rfl : q' = q := by simpa using h
            exact (step_eq_accept_iff.mp hstep).2
        · simp at h
    | cons t ts ih =>
        rw [List.cons_append, run] at h
        split at h
        · next next hstep =>
            obtain ⟨s', hs', htotal⟩ := ih (fun u hu => hts u (by simp [hu])) h
            exact ⟨s', shiftAll_cons_eq_some_iff.mpr ⟨next, shift_of_step hstep, hs'⟩, htotal⟩
        · next hstep => exact absurd (step_eq_accept_iff.mp hstep).1 (hts t (by simp))
        · simp at h
  · rintro ⟨s', hs', htotal⟩
    rw [run_append_of_shiftAll hs', run, step_eq_accept_iff.mpr ⟨heof, htotal⟩]

end ParserState

end TicketSearch
