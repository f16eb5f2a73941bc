/-
Tokens that are read alike.

Of a token the parser uses the kind, what its text says and where it starts.  A `Likeness`
tells which texts say the same, by a key, which places and which literals correspond, and it
is sound when what the parser asks of two texts with one key has one answer.  Tokens that are
alike then lead through states that are alike, step by step (`alike_step`), and so to answers
that are alike (`alike_run`): queries of one shape, or the same fault at places that
correspond.

The relations follow the parser's state part by part, and so do the lemmas.
-/
import Mathlib.Data.List.Forall2
import TicketSearch.Query.Parser

namespace TicketSearch

/-- Two queries of one shape, whose literals are pairwise alike. -/
inductive Query.Alike (R : Literal → Literal → Prop) : Query → Query → Prop
  | all : Alike R .all .all
  | compare (f : Field) (op : Comparison) {v w : Literal} (value : R v w) :
      Alike R (.compare f op v) (.compare f op w)
  | member (f : Field) (negated : Bool) {vs ws : List Literal} (values : List.Forall₂ R vs ws) :
      Alike R (.member f negated vs) (.member f negated ws)
  | empty (f : Field) (negated : Bool) : Alike R (.empty f negated) (.empty f negated)
  | and {p p' q q' : Query} (left : Alike R p p') (right : Alike R q q') :
      Alike R (.and p q) (.and p' q')
  | or {p p' q q' : Query} (left : Alike R p p') (right : Alike R q q') :
      Alike R (.or p q) (.or p' q')
  | not {q q' : Query} (inner : Alike R q q') : Alike R (.not q) (.not q')

/-- With the same literals they are the same. -/
theorem Query.Alike.eq {p q : Query} (h : Alike Eq p q) : p = q := by
  induction h with
  | all | empty f negated => rfl
  | compare f op value => rw [value]
  | member f negated values =>
      rw [List.forall₂_eq_eq_eq] at values
      rw [values]
  | and _ _ ihl ihr | or _ _ ihl ihr => rw [ihl, ihr]
  | not _ ih => rw [ih]

/-- What is found, with its text changed. -/
def Found.mapText (f : Text → Text) : Found → Found
  | nothing => nothing
  | lexeme text => lexeme (f text)

/-- A fault, with the texts in it changed. -/
def Fault.mapText (f : Text → Text) : Fault → Fault
  | emptyGroup => emptyGroup
  | emptyValueList => emptyValueList
  | unknownField name => unknownField (f name)
  | unterminatedString => unterminatedString
  | unexpectedCharacter found => unexpectedCharacter (found.mapText f)
  | unknownOperator sign => unknownOperator (f sign)
  | emptyCompared op => emptyCompared op
  | invalidNumber text => invalidNumber (f text)
  | invalidDate text => invalidDate (f text)
  | invalidRelativeDate text => invalidRelativeDate (f text)
  | fieldExpected found => fieldExpected (found.mapText f)
  | operatorExpected fieldName found => operatorExpected (f fieldName) (found.mapText f)
  | inExpected found => inExpected (found.mapText f)
  | listExpected found => listExpected (found.mapText f)
  | emptyExpected found => emptyExpected (found.mapText f)
  | valueExpected after found => valueExpected (after.map f) (found.mapText f)
  | listEndExpected found => listEndExpected (found.mapText f)
  | groupEndExpected found => groupEndExpected (found.mapText f)
  | connectiveExpected found => connectiveExpected (found.mapText f)
  | nothingToClose found => nothingToClose (found.mapText f)

theorem Found.mapText_id (found : Found) : found.mapText id = found := by
  cases found <;> rfl

theorem Fault.mapText_id (fault : Fault) : fault.mapText id = fault := by
  cases fault <;> simp [mapText, Found.mapText_id]

/-- What the parser does not tell apart. -/
structure Likeness where
  /-- Texts with the same key say the same. -/
  key : Text → Text
  /-- The places of one source that correspond to those of the other. -/
  place : Nat → Nat → Prop
  /-- The literals that are alike. -/
  literal : Literal → Literal → Prop

namespace Likeness

variable (L : Likeness)

/-! ### Tokens and states that are alike -/

/-- What tokens denote, or what is wrong with them. -/
inductive Denotations : Except Fault Literal → Except Fault Literal → Prop
  | ok {v w : Literal} (literal : L.literal v w) : Denotations (.ok v) (.ok w)
  | error {a b : Fault} (fault : a.mapText L.key = b.mapText L.key) :
      Denotations (.error a) (.error b)

/-- Two tokens that are alike. -/
structure Tokens (t u : Token) : Prop where
  kind : t.kind = u.kind
  text : L.key t.text = L.key u.text
  start : L.place t.start u.start

/-- What the parser asks of texts has one answer for texts with one key. -/
structure IsSound : Prop where
  field : ∀ s t, L.key s = L.key t → Field.resolve? s = Field.resolve? t
  sign : ∀ s t, L.key s = L.key t → Comparison.ofSymbol? s = Comparison.ofSymbol? t
  quote : ∀ s t, L.key s = L.key t → (s.head? = some '"' ↔ t.head? = some '"')
  denotation : ∀ t u : Token, t.kind = u.kind → L.key t.text = L.key u.text →
    L.Denotations t.literal u.literal

/-- Two phases that are alike. -/
inductive Phases : Phase → Phase → Prop
  | start : Phases .start .start
  | operand : Phases .operand .operand
  | group {m n : Nat} (place : L.place m n) : Phases (.group m) (.group n)
  | afterField (f : Field) {s t : Text} (name : L.key s = L.key t) :
      Phases (.afterField f s) (.afterField f t)
  | afterOperator (f : Field) (op : Comparison) : Phases (.afterOperator f op) (.afterOperator f op)
  | afterNot (f : Field) : Phases (.afterNot f) (.afterNot f)
  | afterIn (f : Field) (negated : Bool) {m n : Nat} (place : L.place m n) :
      Phases (.afterIn f negated m) (.afterIn f negated n)
  | listStart (f : Field) (negated : Bool) {m n : Nat} (place : L.place m n) :
      Phases (.listStart f negated m) (.listStart f negated n)
  | listValue (f : Field) (negated : Bool) {vs ws : List Literal} {s t : Text}
      (values : List.Forall₂ L.literal vs ws) (comma : L.key s = L.key t) :
      Phases (.listValue f negated vs s) (.listValue f negated ws t)
  | listNext (f : Field) (negated : Bool) {vs ws : List Literal}
      (values : List.Forall₂ L.literal vs ws) :
      Phases (.listNext f negated vs) (.listNext f negated ws)
  | afterIs (f : Field) : Phases (.afterIs f) (.afterIs f)
  | afterIsNot (f : Field) : Phases (.afterIsNot f) (.afterIsNot f)
  | complete {p q : Query} (chain : p.Alike L.literal q) : Phases (.complete p) (.complete q)

/-- Two depths at which the same is pending. -/
structure Levels (l m : Level) : Prop where
  alternatives : Option.Rel (Query.Alike L.literal) l.alternatives m.alternatives
  conjuncts : Option.Rel (Query.Alike L.literal) l.conjuncts m.conjuncts
  negations : l.negations = m.negations

/-- Two states that are alike. -/
structure States (s t : ParserState) : Prop where
  phase : L.Phases s.phase t.phase
  level : L.Levels s.level t.level
  outer : List.Forall₂ L.Levels s.outer t.outer

/-- The same fault, at places that correspond. -/
structure Errors (a b : ParseError) : Prop where
  fault : a.fault.mapText L.key = b.fault.mapText L.key
  position : Option.Rel L.place a.position b.position

/-- Two steps that are alike. -/
inductive Steps : Step → Step → Prop
  | shift {s t : ParserState} (next : L.States s t) : Steps (.shift s) (.shift t)
  | accept {p q : Query} (query : p.Alike L.literal q) : Steps (.accept p) (.accept q)
  | reject {a b : ParseError} (error : L.Errors a b) (read : Bool) :
      Steps (.reject a read) (.reject b read)

/-- Two answers that are alike. -/
inductive Answers : Except ParseError Query → Except ParseError Query → Prop
  | ok {p q : Query} (query : p.Alike L.literal q) : Answers (.ok p) (.ok q)
  | error {a b : ParseError} (error : L.Errors a b) : Answers (.error a) (.error b)

variable {L}

theorem Answers.exists_error {a b : Except ParseError Query} {e : ParseError} (h : L.Answers a b)
    (ha : a = .error e) : ∃ e', b = .error e' ∧ L.Errors e e' := by
  cases h with
  | ok _ => cases ha
  | error herror =>
      cases ha
      exact ⟨_, rfl, herror⟩

variable {s s' : ParserState} {t t' : Token} {l l' : Level} {p p' q q' : Query}

/-! ### What is pending -/

theorem levels_fresh : L.Levels .fresh .fresh :=
  ⟨.none, .none, rfl⟩

theorem alike_negate (n : Nat) (h : p.Alike L.literal p') :
    (Level.negate n p).Alike L.literal (Level.negate n p') := by
  induction n with
  | zero => exact h
  | succ n ih => exact .not ih

theorem alike_chain (hl : L.Levels l l') (h : p.Alike L.literal p') :
    (l.chain p).Alike L.literal (l'.chain p') := by
  have hnegate := alike_negate l.negations h
  unfold Level.chain
  rw [← hl.negations]
  have hconjuncts := hl.conjuncts
  generalize l.conjuncts = a at hconjuncts ⊢
  generalize l'.conjuncts = b at hconjuncts ⊢
  cases hconjuncts with
  | none => exact hnegate
  | some hleft => exact .and hleft hnegate

theorem alike_total (hl : L.Levels l l') (h : p.Alike L.literal p') :
    (l.total p).Alike L.literal (l'.total p') := by
  unfold Level.total
  have halternatives := hl.alternatives
  generalize l.alternatives = a at halternatives ⊢
  generalize l'.alternatives = b at halternatives ⊢
  cases halternatives with
  | none => exact h
  | some hleft => exact .or hleft h

/-! ### Steps within a predicate -/

theorem found_mapText (ht : L.Tokens t t') : t.found.mapText L.key = t'.found.mapText L.key := by
  unfold Token.found
  rw [← ht.kind]
  split
  · rfl
  · exact congrArg Found.lexeme ht.text

theorem outer_eq_nil_iff (hs : L.States s s') : s.outer = [] ↔ s'.outer = [] := by
  rw [← List.length_eq_zero_iff, ← List.length_eq_zero_iff, hs.outer.length_eq]

theorem expected_mapText (hs : L.States s s') {found found' : Found}
    (hfound : found.mapText L.key = found'.mapText L.key) :
    (s.expected found).mapText L.key = (s'.expected found').mapText L.key := by
  have hphase := hs.phase
  have houter := outer_eq_nil_iff hs
  unfold ParserState.expected
  generalize s.phase = a at hphase ⊢
  generalize s'.phase = b at hphase ⊢
  cases hphase with
  | afterField f hname => simp only [Fault.mapText, hname, hfound]
  | listValue f negated _ hcomma => simp only [Fault.mapText, Option.map_some, hcomma, hfound]
  | complete _ =>
      by_cases hnil : s.outer = []
      · simp only [if_pos hnil, if_pos (houter.mp hnil), Fault.mapText, hfound]
      · simp only [if_neg hnil, if_neg (mt houter.mpr hnil), Fault.mapText, hfound]
  | _ => simp only [Fault.mapText, hfound]

theorem alike_reject {a b : Fault} (hfault : a.mapText L.key = b.mapText L.key)
    (ht : L.Tokens t t') (read : Bool) :
    L.Steps (.reject ⟨a, some t.start⟩ read) (.reject ⟨b, some t'.start⟩ read) :=
  .reject ⟨hfault, .some ht.start⟩ read

theorem alike_reject_at {m n : Nat} (fault : Fault) (hplace : L.place m n) (read : Bool) :
    L.Steps (.reject ⟨fault, some m⟩ read) (.reject ⟨fault, some n⟩ read) := by
  have herror : L.Errors ⟨fault, some m⟩ ⟨fault, some n⟩ := ⟨rfl, .some hplace⟩
  exact .reject herror read

theorem alike_refuse (hs : L.States s s') (ht : L.Tokens t t') :
    L.Steps (s.refuse t) (s'.refuse t') :=
  alike_reject (expected_mapText hs (found_mapText ht)) ht false

theorem alike_go (hs : L.States s s') {a b : Phase} (h : L.Phases a b) :
    L.Steps (s.go a) (s'.go b) :=
  .shift ⟨h, hs.level, hs.outer⟩

theorem alike_finishOperand (hs : L.States s s') (h : p.Alike L.literal p') :
    L.Steps (s.finishOperand p) (s'.finishOperand p') :=
  alike_go hs (.complete (alike_chain hs.level h))

theorem alike_withValue (hL : L.IsSound) (hs : L.States s s') (ht : L.Tokens t t')
    {next next' : Literal → Step} (hnext : ∀ v w, L.literal v w → L.Steps (next v) (next' w)) :
    L.Steps (s.withValue t next) (s'.withValue t' next') := by
  have hdenotation := hL.denotation t t' ht.kind ht.text
  unfold ParserState.withValue
  rw [← ht.kind]
  by_cases hvalue : t.kind.isValue = true
  · rw [if_pos hvalue, if_pos hvalue]
    generalize t.literal = a at hdenotation ⊢
    generalize t'.literal = b at hdenotation ⊢
    cases hdenotation with
    | ok hliteral => exact hnext _ _ hliteral
    | error hfault => exact alike_reject hfault ht true
  · rw [if_neg hvalue, if_neg hvalue]
    exact alike_refuse hs ht

theorem alike_stepField (hL : L.IsSound) (hs : L.States s s') (ht : L.Tokens t t') (f : Field) :
    L.Steps (s.stepField t f) (s'.stepField t' f) := by
  have hrefuse := alike_refuse hs ht
  have hunknown : (Fault.unknownOperator t.text).mapText L.key =
      (Fault.unknownOperator t'.text).mapText L.key := congrArg Fault.unknownOperator ht.text
  unfold ParserState.stepField
  rw [← ht.kind, hL.sign _ _ ht.text]
  generalize t.kind = k
  cases k with
  | operator =>
      cases Comparison.ofSymbol? t'.text with
      | none => exact alike_reject hunknown ht true
      | some op => exact alike_go hs (.afterOperator f op)
  | inWord => exact alike_go hs (.afterIn f false ht.start)
  | notWord => exact alike_go hs (.afterNot f)
  | isWord => exact alike_go hs (.afterIs f)
  | _ => exact hrefuse

theorem alike_stepOperator (hL : L.IsSound) (hs : L.States s s') (ht : L.Tokens t t') (f : Field)
    (op : Comparison) : L.Steps (s.stepOperator t f op) (s'.stepOperator t' f op) := by
  unfold ParserState.stepOperator
  rw [← ht.kind]
  by_cases hempty : t.kind = .emptyWord
  · rw [if_pos hempty, if_pos hempty]
    cases op with
    | eq => exact alike_finishOperand hs (.empty f false)
    | notEq => exact alike_finishOperand hs (.empty f true)
    | _ => exact alike_reject rfl ht true
  · rw [if_neg hempty, if_neg hempty]
    exact alike_withValue hL hs ht fun v w hliteral =>
      alike_finishOperand hs (.compare f op hliteral)

/-! ### Steps between predicates -/

theorem alike_stepOperand (hL : L.IsSound) (hs : L.States s s') (ht : L.Tokens t t') :
    L.Steps (s.stepOperand t) (s'.stepOperand t') := by
  have hrefuse := alike_refuse hs ht
  have hunknown : (Fault.unknownField t.text).mapText L.key =
      (Fault.unknownField t'.text).mapText L.key := congrArg Fault.unknownField ht.text
  have hunexpected : (Fault.unexpectedCharacter t.found).mapText L.key =
      (Fault.unexpectedCharacter t'.found).mapText L.key :=
    congrArg Fault.unexpectedCharacter (found_mapText ht)
  unfold ParserState.stepOperand
  rw [← ht.kind, hL.field _ _ ht.text]
  generalize t.kind = k
  cases k with
  | notWord =>
      refine .shift ⟨.operand, ⟨hs.level.alternatives, hs.level.conjuncts, ?_⟩, hs.outer⟩
      exact congrArg Nat.succ hs.level.negations
  | openParen => exact .shift ⟨.group ht.start, levels_fresh, .cons hs.level hs.outer⟩
  | field =>
      cases Field.resolve? t'.text with
      | none => exact alike_reject hunknown ht true
      | some f => exact alike_go hs (.afterField f ht.text)
  | value => exact alike_reject hunknown ht false
  | unknown =>
      have hquote := hL.quote _ _ ht.text
      by_cases hopen : t.text.head? = some '"'
      · simp only [if_pos hopen, if_pos (hquote.mp hopen)]
        exact alike_reject rfl ht false
      · simp only [if_neg hopen, if_neg (mt hquote.mpr hopen)]
        exact alike_reject hunexpected ht false
  | _ => exact hrefuse

theorem alike_stepComplete (hs : L.States s s') (ht : L.Tokens t t') (h : p.Alike L.literal p') :
    L.Steps (s.stepComplete t p) (s'.stepComplete t' p') := by
  have hrefuse := alike_refuse hs ht
  have htotal := alike_total hs.level h
  have houter := hs.outer
  have hnothing : (Fault.nothingToClose t.found).mapText L.key =
      (Fault.nothingToClose t'.found).mapText L.key :=
        congrArg Fault.nothingToClose (found_mapText ht)
  unfold ParserState.stepComplete
  rw [← ht.kind]
  generalize s.outer = a at houter ⊢
  generalize s'.outer = b at houter ⊢
  generalize t.kind = k
  cases k with
  | andWord => exact .shift ⟨.operand, ⟨hs.level.alternatives, .some h, rfl⟩, houter⟩
  | orWord => exact .shift ⟨.operand, ⟨.some htotal, .none, rfl⟩, houter⟩
  | closeParen =>
      cases houter with
      | nil => exact alike_reject hnothing ht false
      | cons hlevel hrest => exact .shift ⟨.complete (alike_chain hlevel htotal), hlevel, hrest⟩
  | endOfInput =>
      cases houter with
      | nil => exact .accept htotal
      | cons _ _ => exact hrefuse
  | _ => cases houter <;> exact hrefuse

/-! ### Runs -/

/-- **From states that are alike, tokens that are alike lead to states that are alike.** -/
theorem alike_step (hL : L.IsSound) (hs : L.States s s') (ht : L.Tokens t t') :
    L.Steps (s.step t) (s'.step t') := by
  have hphase := hs.phase
  have hrefuse := alike_refuse hs ht
  have hoperand := alike_stepOperand hL hs ht
  unfold ParserState.step
  rw [← ht.kind]
  generalize s.phase = a at hphase ⊢
  generalize s'.phase = b at hphase ⊢
  cases hphase with
  | start =>
      by_cases hend : t.kind = .endOfInput
      · simpa only [if_pos hend] using .accept .all
      · simpa only [if_neg hend] using hoperand
  | operand => exact hoperand
  | group hplace =>
      by_cases hclose : t.kind = .closeParen
      · simpa only [if_pos hclose] using alike_reject_at .emptyGroup hplace false
      · simpa only [if_neg hclose] using hoperand
  | afterField f _ => exact alike_stepField hL hs ht f
  | afterOperator f op => exact alike_stepOperator hL hs ht f op
  | afterNot f =>
      by_cases hin : t.kind = .inWord
      · simpa only [if_pos hin] using alike_go hs (.afterIn f true ht.start)
      · simpa only [if_neg hin] using hrefuse
  | afterIn f negated hplace =>
      by_cases hopen : t.kind = .openParen
      · simpa only [if_pos hopen] using alike_go hs (.listStart f negated hplace)
      · simpa only [if_neg hopen] using hrefuse
  | listStart f negated hplace =>
      by_cases hclose : t.kind = .closeParen
      · simpa only [if_pos hclose] using alike_reject_at .emptyValueList hplace false
      · simp only [if_neg hclose]
        exact alike_withValue hL hs ht fun v w hliteral =>
          alike_go hs (.listNext f negated (.cons hliteral .nil))
  | listValue f negated hvalues _ =>
      refine alike_withValue hL hs ht fun v w hliteral => alike_go hs (.listNext f negated ?_)
      exact List.rel_append hvalues (.cons hliteral .nil)
  | listNext f negated hvalues =>
      by_cases hclose : t.kind = .closeParen
      · simpa only [if_pos hclose] using alike_finishOperand hs (.member f negated hvalues)
      · by_cases hcomma : t.kind = .comma
        · simpa only [if_neg hclose, if_pos hcomma]
            using alike_go hs (.listValue f negated hvalues ht.text)
        · simpa only [if_neg hclose, if_neg hcomma] using hrefuse
  | afterIs f =>
      by_cases hnot : t.kind = .notWord
      · simpa only [if_pos hnot] using alike_go hs (.afterIsNot f)
      · by_cases hempty : t.kind = .emptyWord
        · simpa only [if_neg hnot, if_pos hempty] using alike_finishOperand hs (.empty f false)
        · simpa only [if_neg hnot, if_neg hempty] using hrefuse
  | afterIsNot f =>
      by_cases hempty : t.kind = .emptyWord
      · simpa only [if_pos hempty] using alike_finishOperand hs (.empty f true)
      · simpa only [if_neg hempty] using hrefuse
  | complete hchain => exact alike_stepComplete hs ht hchain

theorem alike_finish (hs : L.States s s') : L.Answers s.finish s'.finish := by
  have hphase := hs.phase
  have houter := hs.outer
  have hexpected :
      L.Answers (.error ⟨s.expected .nothing, none⟩) (.error ⟨s'.expected .nothing, none⟩) :=
    .error ⟨expected_mapText hs rfl, .none⟩
  unfold ParserState.finish
  generalize s.phase = a at hphase ⊢
  generalize s'.phase = b at hphase ⊢
  generalize s.outer = o at houter ⊢
  generalize s'.outer = o' at houter ⊢
  cases hphase with
  | start => exact .ok .all
  | complete hchain =>
      cases houter with
      | nil => exact .ok (alike_total hs.level hchain)
      | cons _ _ => exact hexpected
  | _ => exact hexpected

/-- **Tokens that are alike have answers that are alike.** -/
theorem alike_run (hL : L.IsSound) {ts us : List Token} (hts : List.Forall₂ L.Tokens ts us)
    (hs : L.States s s') : L.Answers (s.run ts).1 (s'.run us).1 := by
  induction hts generalizing s s' with
  | nil => exact alike_finish hs
  | cons ht _ ih =>
      have hstep := alike_step hL hs ht
      unfold ParserState.run
      generalize s.step _ = a at hstep ⊢
      generalize s'.step _ = b at hstep ⊢
      cases hstep with
      | shift hnext => exact ih hnext
      | accept hquery => exact .ok hquery
      | reject herror read => exact .error herror

theorem alike_parseTokens (hL : L.IsSound) {ts us : List Token}
    (hts : List.Forall₂ L.Tokens ts us) :
    L.Answers (Query.parseTokens ts).1 (Query.parseTokens us).1 :=
  alike_run hL hts ⟨.start, levels_fresh, .nil⟩

end Likeness

end TicketSearch
