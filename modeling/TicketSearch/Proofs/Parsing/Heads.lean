/-
The predicates of a query as its source spells them.

In a derivation the predicates stand in order, with connectives and parentheses around them
(`Strung`), and they denote the leaves of the tree one by one (`OrExpr.exists_strung`).  Before
each of their values stands a sign, a comma, or the parenthesis behind `IN`, so that the lexer
expects no field there, whatever comes before the predicate (`Predicate.exists_before_value`).
What is left to be marked are the names at their heads, and a name that is read is always marked.
-/
import TicketSearch.Proofs.Parsing.Marking

namespace TicketSearch

namespace Query

/-- The literals of a query, from left to right. -/
def literals : Query → List Literal
  | all | empty _ _ => []
  | compare _ _ value => [value]
  | member _ _ values => values
  | and left right | or left right => left.literals ++ right.literals
  | not inner => inner.literals

end Query

/-- The tokens that are marked as fields. -/
def Token.fields (tokens : List Token) : List Token :=
  tokens.filter fun t => t.kind == .field

namespace Grammar

variable {ps qs : List Predicate} {ts us : List Token} {p : Predicate} {q leaf : Query}

theorem kind_ne_field_of_terminal {k : TokenKind} (word : Terminal k) (hk : k ≠ .field) :
    word.1.kind ≠ .field := by
  rwa [word.2]

/-! ### The values of a predicate -/

namespace ValueList

/-- Before a value of a list stands its parenthesis or a comma. -/
theorem exists_before_value (l : ValueList) {v : ValueToken} (hv : v ∈ l.values) :
    ∃ before behind, l.tokens = before ++ v.1 :: behind ∧
      ∀ flags : Bool × Bool, flags.2 = true → (before.foldl Token.track flags).1 = false := by
  rcases List.mem_cons.mp hv with rfl | hmem
  · refine ⟨[l.opening.1], restTokens l.rest ++ [l.closing.1], rfl, fun flags hin => ?_⟩
    show Token.expectsFieldAfter flags.2 l.opening.1.kind = false
    rw [hin, l.opening.2]
    rfl
  · obtain ⟨pair, hpair, rfl⟩ := List.mem_map.mp hmem
    obtain ⟨earlier, later, hrest⟩ := List.append_of_mem hpair
    refine ⟨l.opening.1 :: l.first.1 :: (restTokens earlier ++ [pair.1.1]),
      restTokens later ++ [l.closing.1], ?_, fun flags _ => ?_⟩
    · unfold tokens restTokens
      rw [hrest]
      simp
    · rw [List.foldl_cons, List.foldl_cons, List.foldl_append]
      show Token.expectsFieldAfter _ pair.1.1.kind = false
      rw [pair.1.2]
      rfl

theorem kind_ne_field (l : ValueList) (h : ∀ v ∈ l.values, v.1.kind ≠ .field) :
    ∀ t ∈ l.tokens, t.kind ≠ .field := by
  obtain ⟨hfirst, hrest⟩ := List.forall_mem_cons.mp h
  intro t ht
  unfold tokens at ht
  rcases List.mem_cons.mp ht with rfl | ht
  · exact kind_ne_field_of_terminal l.opening (by decide)
  · rcases List.mem_cons.mp ht with rfl | ht
    · exact hfirst
    · rcases List.mem_append.mp ht with ht | hlast
      · obtain ⟨pair, hpair, ht⟩ := List.mem_flatMap.mp ht
        rcases List.mem_cons.mp ht with rfl | ht
        · exact kind_ne_field_of_terminal pair.1 (by decide)
        · rw [List.mem_singleton.mp ht]
          exact hrest _ (List.mem_map_of_mem hpair)
      · rw [List.mem_singleton.mp hlast]
        exact kind_ne_field_of_terminal l.closing (by decide)

end ValueList

namespace Predicate

/-- The values of a predicate, in order. -/
def values : Predicate → List ValueToken
  | compare _ _ value => [value]
  | oneOf _ _ l | noneOf _ _ _ l => l.values
  | equalsEmpty .. | isEmpty .. | isNotEmpty .. => []

/-- **Before a value the lexer expects no field**, whatever comes before the predicate. -/
theorem exists_before_value {v : ValueToken} (hv : v ∈ p.values) :
    ∃ before behind, p.tokens = before ++ v.1 :: behind ∧
      ∀ flags : Bool × Bool, (before.foldl Token.track flags).1 = false := by
  cases p with
  | compare name sign value =>
      obtain rfl := List.mem_singleton.mp hv
      refine ⟨[name.1, sign.1], [], rfl, fun flags => ?_⟩
      show Token.expectsFieldAfter _ sign.1.kind = false
      rw [sign.2]
      rfl
  | oneOf name inWord l =>
      obtain ⟨before, behind, hl, hflags⟩ := l.exists_before_value hv
      refine ⟨name.1 :: inWord.1 :: before, behind, ?_, fun flags => hflags _ ?_⟩
      · show name.1 :: inWord.1 :: l.tokens = _
        rw [hl]
        rfl
      · exact beq_iff_eq.mpr inWord.2
  | noneOf name notWord inWord l =>
      obtain ⟨before, behind, hl, hflags⟩ := l.exists_before_value hv
      refine ⟨name.1 :: notWord.1 :: inWord.1 :: before, behind, ?_, fun flags => hflags _ ?_⟩
      · show name.1 :: notWord.1 :: inWord.1 :: l.tokens = _
        rw [hl]
        rfl
      · exact beq_iff_eq.mpr inWord.2
  | equalsEmpty | isEmpty | isNotEmpty => cases hv

/-- Of the tokens of a predicate with no marked value only the first is marked. -/
theorem fields_tokens (h : ∀ v ∈ p.values, v.1.kind ≠ .field) :
    Token.fields p.tokens = [p.field.1] := by
  have htail : ∀ t ∈ p.tail, t.kind ≠ .field := by
    cases p with
    | compare name sign value => simpa [tail, sign.2] using h value (List.mem_singleton_self value)
    | equalsEmpty name sign word => simp [tail, sign.2.1, word.2]
    | oneOf name inWord l =>
        exact List.forall_mem_cons.mpr
          ⟨kind_ne_field_of_terminal inWord (by decide), l.kind_ne_field h⟩
    | noneOf name notWord inWord l =>
        exact List.forall_mem_cons.mpr ⟨kind_ne_field_of_terminal notWord (by decide),
          List.forall_mem_cons.mpr
            ⟨kind_ne_field_of_terminal inWord (by decide), l.kind_ne_field h⟩⟩
    | isEmpty name isWord word => simp [tail, isWord.2, word.2]
    | isNotEmpty name isWord notWord word => simp [tail, isWord.2, notWord.2, word.2]
  have hnone : Token.fields p.tail = [] :=
    List.filter_eq_nil_iff.mpr fun t ht => by simp [htail t ht]
  unfold Token.fields at hnone ⊢
  unfold tokens
  rw [List.filter_cons_of_pos (by simp [p.field.2]), hnone]

/-- A predicate as it is written stands for a leaf: its name for the field, its
values for the literals. -/
structure Denotes (p : Predicate) (leaf : Query) : Prop where
  query : p.query? = some leaf
  field : ∃ f op, Field.resolve? p.field.1.text = some f ∧ leaf.predicates = [(f, op)]
  literals : p.values.mapM ValueToken.literal? = some leaf.literals

theorem leaves_of_query? (h : p.query? = some leaf) : leaf.leaves = [leaf] ∧ p.Denotes leaf := by
  obtain ⟨f, hf, hq⟩ := Option.bind_eq_some_iff.mp h
  cases p with
  | compare name sign value =>
      obtain ⟨op, hop, hq⟩ := Option.bind_eq_some_iff.mp hq
      obtain ⟨v, hv, hq⟩ := Option.bind_eq_some_iff.mp hq
      obtain rfl : Query.compare f op v = leaf := by simpa using hq
      exact ⟨rfl, h, ⟨f, _, hf, rfl⟩, by simp [values, hv, Query.literals]⟩
  | oneOf name inWord l | noneOf name notWord inWord l =>
      obtain ⟨vs, hvs, rfl⟩ := Option.map_eq_some_iff.mp hq
      exact ⟨rfl, h, ⟨f, _, hf, rfl⟩, hvs⟩
  | equalsEmpty name sign word | isEmpty name isWord word | isNotEmpty name isWord notWord word =>
      obtain rfl := Option.some.inj hq
      exact ⟨rfl, h, ⟨f, _, hf, rfl⟩, rfl⟩

end Predicate

/-! ### Predicates in a row -/

/-- The kinds of the tokens around the predicates of a query. -/
def around : List TokenKind :=
  [.andWord, .orWord, .notWord, .openParen, .closeParen, .endOfInput]

/-- Tokens that are some predicates, in order, with connectives and parentheses around them. -/
inductive Strung : List Predicate → List Token → Prop
  | nil : Strung [] []
  | around {ps : List Predicate} {ts : List Token} {k : TokenKind} (word : Terminal k)
      (kind : k ∈ around)
      (more : Strung ps ts) : Strung ps (word.1 :: ts)
  | predicate {ps : List Predicate} {ts : List Token} (p : Predicate) (more : Strung ps ts) :
      Strung (p :: ps) (p.tokens ++ ts)

namespace Strung

theorem append (h : Strung ps ts) (h' : Strung qs us) : Strung (ps ++ qs) (ts ++ us) := by
  induction h with
  | nil => exact h'
  | around word kind _ ih => exact .around word kind ih
  | predicate p _ ih =>
      rw [List.append_assoc]
      exact .predicate p ih

theorem single (p : Predicate) : Strung [p] p.tokens := by
  have h := predicate p nil
  rwa [List.append_nil] at h

theorem exists_append (h : Strung ps ts) (hp : p ∈ ps) :
    ∃ first last, ts = first ++ (p.tokens ++ last) := by
  induction h with
  | nil => cases hp
  | around word kind _ ih =>
      obtain ⟨first, last, rfl⟩ := ih hp
      exact ⟨word.1 :: first, last, rfl⟩
  | @predicate ps ts p' _ ih =>
      rcases List.mem_cons.mp hp with rfl | hmem
      · exact ⟨[], ts, rfl⟩
      · obtain ⟨first, last, rfl⟩ := ih hmem
        exact ⟨p'.tokens ++ first, last, (List.append_assoc _ _ _).symm⟩

/-- When no value is marked, the marked tokens are the heads of the predicates. -/
theorem fields_eq (h : Strung ps ts) (hvalues : ∀ p ∈ ps, ∀ v ∈ p.values, v.1.kind ≠ .field) :
    Token.fields ts = ps.map fun p => p.field.1 := by
  induction h with
  | nil => rfl
  | around word kind _ ih =>
      have hother := kind_ne_field_of_terminal word (by rintro rfl; exact absurd kind (by decide))
      rw [← ih hvalues]
      exact List.filter_cons_of_neg (by simp [hother])
  | predicate p _ ih =>
      obtain ⟨hp, hrest⟩ := List.forall_mem_cons.mp hvalues
      rw [List.map_cons, ← ih hrest, ← List.singleton_append, ← p.fields_tokens hp]
      exact List.filter_append _ _

end Strung

mutual

theorem OrExpr.exists_strung : ∀ (e : OrExpr) {q : Query}, e.query? = some q →
    ∃ ps, Strung ps e.tokens ∧ List.Forall₂ Predicate.Denotes ps q.leaves
  | .mk first rest, q, h => by
      obtain ⟨left, hleft, hrest⟩ := Option.bind_eq_some_iff.mp h
      obtain ⟨ps, hps, hleaves⟩ := first.exists_strung hleft
      obtain ⟨more, leaves, hmore, hq, hdenotes⟩ := rest.exists_strung hrest
      rw [hq]
      exact ⟨ps ++ more, hps.append hmore, List.rel_append hleaves hdenotes⟩

theorem OrRest.exists_strung : ∀ (r : OrRest) {left q : Query}, r.query? left = some q →
    ∃ ps leaves, Strung ps r.tokens ∧ q.leaves = left.leaves ++ leaves ∧
      List.Forall₂ Predicate.Denotes ps leaves
  | .done, left, q, h => by
      obtain rfl := Option.some.inj h
      exact ⟨[], [], .nil, (List.append_nil _).symm, .nil⟩
  | .more word next rest, left, q, h => by
      obtain ⟨right, hright, hrest⟩ := Option.bind_eq_some_iff.mp h
      obtain ⟨ps, hps, hleaves⟩ := next.exists_strung hright
      obtain ⟨more, leaves, hmore, hq, hdenotes⟩ := rest.exists_strung hrest
      refine ⟨ps ++ more, right.leaves ++ leaves, .around word (by decide) (hps.append hmore), ?_,
        List.rel_append hleaves hdenotes⟩
      rw [hq, Query.leaves, List.append_assoc]

theorem AndExpr.exists_strung : ∀ (e : AndExpr) {q : Query}, e.query? = some q →
    ∃ ps, Strung ps e.tokens ∧ List.Forall₂ Predicate.Denotes ps q.leaves
  | .mk first rest, q, h => by
      obtain ⟨left, hleft, hrest⟩ := Option.bind_eq_some_iff.mp h
      obtain ⟨ps, hps, hleaves⟩ := first.exists_strung hleft
      obtain ⟨more, leaves, hmore, hq, hdenotes⟩ := rest.exists_strung hrest
      rw [hq]
      exact ⟨ps ++ more, hps.append hmore, List.rel_append hleaves hdenotes⟩

theorem AndRest.exists_strung : ∀ (r : AndRest) {left q : Query}, r.query? left = some q →
    ∃ ps leaves, Strung ps r.tokens ∧ q.leaves = left.leaves ++ leaves ∧
      List.Forall₂ Predicate.Denotes ps leaves
  | .done, left, q, h => by
      obtain rfl := Option.some.inj h
      exact ⟨[], [], .nil, (List.append_nil _).symm, .nil⟩
  | .more word next rest, left, q, h => by
      obtain ⟨right, hright, hrest⟩ := Option.bind_eq_some_iff.mp h
      obtain ⟨ps, hps, hleaves⟩ := next.exists_strung hright
      obtain ⟨more, leaves, hmore, hq, hdenotes⟩ := rest.exists_strung hrest
      refine ⟨ps ++ more, right.leaves ++ leaves, .around word (by decide) (hps.append hmore), ?_,
        List.rel_append hleaves hdenotes⟩
      rw [hq, Query.leaves, List.append_assoc]

theorem UnaryExpr.exists_strung : ∀ (u : UnaryExpr) {q : Query}, u.query? = some q →
    ∃ ps, Strung ps u.tokens ∧ List.Forall₂ Predicate.Denotes ps q.leaves
  | .not word inner, q, h => by
      obtain ⟨q, hq, rfl⟩ := Option.map_eq_some_iff.mp h
      obtain ⟨ps, hps, hleaves⟩ := inner.exists_strung hq
      exact ⟨ps, .around word (by decide) hps, hleaves⟩
  | .group opening inner closing, q, h => by
      obtain ⟨ps, hps, hleaves⟩ := inner.exists_strung h
      have hclosed := hps.append (.around closing (by decide) .nil)
      rw [List.append_nil] at hclosed
      exact ⟨ps, .around opening (by decide) hclosed, hleaves⟩
  | .predicate p, q, h => by
      obtain ⟨hleaf, hdenotes⟩ := Predicate.leaves_of_query? h
      rw [hleaf]
      exact ⟨[p], .single p, .cons hdenotes .nil⟩

end

end Grammar

/-! ### Marked fields and the tree -/

namespace Query

open Grammar ParserState

/-- The predicates of a source, when its tree has these leaves and its marked
tokens are their heads. -/
structure Heads (source : Text) (q : Query) (ps : List Predicate) : Prop where
  /-- The tokens are those of the predicates, in order, and connectives and
  parentheses around them. -/
  strung : Strung ps (Token.stream source)
  /-- They stand for the leaves of the tree, from left to right. -/
  leaves : List.Forall₂ Predicate.Denotes ps q.leaves
  /-- What is marked is the names at their heads, in order. -/
  fields : Token.fields (Token.stream source) = ps.map fun p => p.field.1
  /-- No value of theirs is marked. -/
  values : ∀ p ∈ ps, ∀ v ∈ p.values, v.1.kind ≠ .field

theorem exists_heads {source : Text} {q : Query} (h : parse source = .ok q) (hq : q ≠ .all) :
    ∃ ps, Heads source q ps := by
  obtain ⟨d, hd, hquery⟩ := exists_sentence_of_parse h
  cases d with
  | empty eof => exact absurd (Option.some.inj hquery).symm hq
  | query e eof =>
      obtain ⟨ps, hps, hleaves⟩ := e.exists_strung hquery
      have hstrung := hps.append (.around eof (by decide) .nil)
      rw [List.append_nil] at hstrung
      change Strung ps (Sentence.query e eof).tokens at hstrung
      rw [hd] at hstrung
      have hvalues : ∀ p ∈ ps, ∀ v ∈ p.values, v.1.kind ≠ .field := by
        intro p hp v hv hmarked
        obtain ⟨first, last, hstream⟩ := hstrung.exists_append hp
        obtain ⟨before, behind, htokens, hflags⟩ := p.exists_before_value hv
        have hsplit : Token.stream source = (first ++ before) ++ v.1 :: (behind ++ last) := by
          rw [hstream, htokens]
          simp
        obtain ⟨hexpected, _⟩ := (Token.kind_eq_field_iff hsplit).mp hmarked
        unfold Token.tracked at hexpected
        rw [List.foldl_append, hflags] at hexpected
        cases hexpected
      exact ⟨ps, hstrung, hleaves, hstrung.fields_eq hvalues, hvalues⟩

/-- A name that is reported as unknown is none of a field, marked or not. -/
theorem resolve?_of_unknownField {source name : Text} {e : ParseError} (h : parse source = .error e)
    (hmessage : e.fault.message = "Unknown field '" ++ name ++ "'") :
    Field.resolve? name = none := by
  obtain ⟨before, t, after, s, read, hstream, hread, hreject⟩ := exists_reject_of_run rfl h
  obtain ⟨fault, position⟩ := e
  obtain rfl : fault = .unknownField name := Fault.eq_of_message_unknownField hmessage
  obtain ⟨rfl, hnone | ⟨due, hvalue⟩⟩ := (faults_of_step hreject).of_unknownField
  · exact hnone
  · -- a plain word where a field is due would have been marked
    by_contra hknown
    have hmarked := (kind_eq_field_iff_of_shiftAll hstream hread).mpr
      ⟨Option.isSome_iff_ne_none.mpr hknown, Or.inl due⟩
    rw [hvalue] at hmarked
    cases hmarked

/--
**What the lexer marks is what the parser reads as fields.**  In a source that parses to a tree with
leaves, the marked tokens are the heads of the leaves, in order, each leaf is about the field that
its head names, and no literal comes from a marked token.  In a source that is rejected for an
unknown field, that is none.  And at every token that the parser comes to, the names of fields are
marked that stand where it expects a field, or behind the `NOT` of an operator; of the tokens
that it reads, just those where it expects one.
-/
theorem parse_heads (source : Text) :
    (∀ q, parse source = .ok q → q ≠ .all → ∃ ps, Heads source q ps) ∧
      (∀ e name, parse source = .error e → e.fault.message = "Unknown field '" ++ name ++ "'" →
        Field.resolve? name = none) ∧
      ∀ before t behind s, Token.stream source = before ++ t :: behind →
        initial.shiftAll before = some s →
        (t.kind = .field ↔ (Field.resolve? t.text).isSome ∧ (s.phase.Due ∨ s.phase.Negating)) ∧
          ∀ s', Shift s t s' →
            (t.kind = .field ↔ (Field.resolve? t.text).isSome ∧ s.phase.Due) := by
  refine ⟨fun q => exists_heads, fun e name => resolve?_of_unknownField, ?_⟩
  intro before t behind s hstream hread
  have hmarked := kind_eq_field_iff_of_shiftAll hstream hread
  refine ⟨hmarked, fun s' hshift => ?_⟩
  constructor
  · intro hfield
    obtain ⟨hknown, due | hnegating⟩ := hmarked.mp hfield
    · exact ⟨hknown, due⟩
    · exact absurd hfield (hshift.kind_ne_field hnegating)
  · rintro ⟨hknown, due⟩
    exact hmarked.mpr ⟨hknown, Or.inl due⟩

/-- Names of fields as values are not marked, and a name that is almost one is unknown. -/
theorem parse_heads_of_names :
    (∃ ps, Heads "labels IN (status, type) OR NOT points IS NOT EMPTY"
        (.or (.member .labels false [.word "status", .word "type"])
          (.not (.empty .storyPoints true))) ps) ∧
      Field.resolve? "sprints" = none ∧
      ((⟨.value, "status", 11, 17⟩ : Token).kind = .field ↔
        (Field.resolve? "status").isSome ∧ (Phase.listStart .labels false 7).Due) := by
  have hparse : parse "labels IN (status, type) OR NOT points IS NOT EMPTY" =
      .ok (.or (.member .labels false [.word "status", .word "type"])
        (.not (.empty .storyPoints true))) := by
    decide +kernel
  have hfails : parse "sprints = 1" = .error ⟨.unknownField "sprints", some 0⟩ := by decide +kernel
  obtain ⟨hheads, _, hmarks⟩ := parse_heads "labels IN (status, type) OR NOT points IS NOT EMPTY"
  refine ⟨hheads _ hparse (by decide), ?_, ?_⟩
  · exact (parse_heads "sprints = 1").2.1 _ "sprints" hfails rfl
  · exact (hmarks [⟨.field, "labels", 0, 6⟩, ⟨.inWord, "IN", 7, 9⟩, ⟨.openParen, "(", 10, 11⟩] _ _
      ⟨.listStart .labels false 7, .fresh, []⟩ rfl rfl).2
        ⟨.listNext .labels false [.word "status"], .fresh, []⟩
        (shift_of_step rfl)

/-- A name behind the `NOT` of an operator is marked, and the parser expects `IN` there. -/
theorem kind_eq_field_of_not_due :
    ∃ before t behind s, Token.stream "status NOT priority" = before ++ t :: behind ∧
      initial.shiftAll before = some s ∧ t.kind = .field ∧ s.phase = .afterNot .status ∧
      ¬s.phase.Due ∧
      parse "status NOT priority" = .error ⟨.inExpected (.lexeme "priority"), some 11⟩ := by
  refine ⟨[⟨.field, "status", 0, 6⟩, ⟨.notWord, "NOT", 7, 10⟩], ⟨.field, "priority", 11, 19⟩, _,
    ⟨.afterNot .status, .fresh, []⟩, rfl, rfl, rfl, rfl, id, ?_⟩
  decide +kernel

end Query

end TicketSearch
