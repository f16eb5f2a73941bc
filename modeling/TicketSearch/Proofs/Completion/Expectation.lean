/-
What is due where each token of a query stands, and the walk that finds it out.

`expectations` says of every token of a derivation what its place asks for, by recursion
on the derivation.  The automaton behind completion knows nothing of derivations, yet it
stands at a place that meets the expectation each time (`OrExpr.walks`).  What makes the
induction work is that it needs no stack: it stands at `Place.field` wherever an operand
may begin and at `Place.keyword` wherever one is complete, however deep the parentheses.
-/
import TicketSearch.Completion
import TicketSearch.Proofs.Grammar

namespace TicketSearch

namespace Grammar

/-! ### What is due at a token -/

/-- What is due where a token of a derivation stands. -/
inductive Expectation
  /-- An operand: the name of a field, a `NOT` before it, or a parenthesis around it. -/
  | field
  /-- The operator of a field; `begun` is the offset of its first word once that is there. -/
  | operator (field : Field) (begun : Option Nat)
  /-- A value to compare a field with, or the list of them. -/
  | value (field : Field)
  /-- A comma of a list, or the parenthesis that closes it. -/
  | separator
  /-- What joins operands: `AND`, `OR`, the parenthesis that closes a group, or the end. -/
  | keyword
  deriving DecidableEq

open Expectation

def ValueList.expectations (f : Field) (l : ValueList) : List (Token × Expectation) :=
  (l.opening.1, value f) :: (l.first.1, value f) ::
    (l.rest.flatMap (fun pair => [(pair.1.1, separator), (pair.2.1, value f)]) ++
      [(l.closing.1, separator)])

namespace Predicate

/-- The field that a readable predicate is about. -/
def target (p : Predicate) (h : p.Readable) : Field :=
  (Field.resolve? p.field.1.text).get h.1

theorem resolve?_target {p : Predicate} (h : p.Readable) :
    Field.resolve? p.field.1.text = some (p.target h) :=
  (Option.some_get h.1).symm

/-- What is due at the tokens after the name. -/
def tailExpectations (f : Field) : Predicate → List (Token × Expectation)
  | compare _ sign v => [(sign.1, operator f none), (v.1, value f)]
  | equalsEmpty _ sign word => [(sign.1, operator f none), (word.1, value f)]
  | oneOf _ inWord values => (inWord.1, operator f none) :: values.expectations f
  | noneOf _ notWord inWord values =>
    (notWord.1, operator f none) :: (inWord.1, operator f (some notWord.1.start)) ::
      values.expectations f
  | isEmpty _ isWord word =>
    [(isWord.1, operator f none), (word.1, operator f (some isWord.1.start))]
  | isNotEmpty _ isWord notWord word =>
    [(isWord.1, operator f none), (notWord.1, operator f (some isWord.1.start)),
      (word.1, operator f (some isWord.1.start))]

def expectations (p : Predicate) (h : p.Readable) : List (Token × Expectation) :=
  (p.field.1, Expectation.field) :: p.tailExpectations (p.target h)

end Predicate

mutual

def OrExpr.expectations : (e : OrExpr) → e.Readable → List (Token × Expectation)
  | .mk first rest, h => first.expectations h.1 ++ rest.expectations h.2

def OrRest.expectations : (r : OrRest) → r.Readable → List (Token × Expectation)
  | .done, _ => []
  | .more word next rest, h =>
    (word.1, keyword) :: (next.expectations h.1 ++ rest.expectations h.2)

def AndExpr.expectations : (e : AndExpr) → e.Readable → List (Token × Expectation)
  | .mk first rest, h => first.expectations h.1 ++ rest.expectations h.2

def AndRest.expectations : (r : AndRest) → r.Readable → List (Token × Expectation)
  | .done, _ => []
  | .more word next rest, h =>
    (word.1, keyword) :: (next.expectations h.1 ++ rest.expectations h.2)

def UnaryExpr.expectations : (u : UnaryExpr) → u.Readable → List (Token × Expectation)
  | .not word inner, h => (word.1, Expectation.field) :: inner.expectations h
  | .group opening inner closing, h =>
    (opening.1, Expectation.field) :: (inner.expectations h ++ [(closing.1, keyword)])
  | .predicate p, h => p.expectations h

end

/-- What is due at every token of a query that is not blank, the end included. -/
def OrExpr.allExpectations (e : OrExpr) (h : e.Readable) (eof : Terminal .endOfInput) :
    List (Token × Expectation) :=
  e.expectations h ++ [(eof.1, keyword)]

/-! ### The tokens are those of the derivation -/

theorem ValueList.map_expectations (f : Field) (l : ValueList) :
    (l.expectations f).map Prod.fst = l.tokens := by
  have hrest : ∀ rest : List (Terminal .comma × ValueToken),
      (rest.flatMap fun pair => [(pair.1.1, separator), (pair.2.1, value f)]).map Prod.fst =
        restTokens rest := by
    intro rest
    rw [List.map_flatMap]
    rfl
  rw [ValueList.expectations, List.map_cons, List.map_cons, List.map_append, hrest]
  rfl

theorem Predicate.map_tailExpectations (f : Field) (p : Predicate) :
    (p.tailExpectations f).map Prod.fst = p.tail := by
  cases p with
  | oneOf _ inWord values | noneOf _ _ inWord values =>
      simp [tailExpectations, Predicate.tail, ValueList.map_expectations]
  | _ => rfl

mutual

theorem OrExpr.map_expectations : ∀ (e : OrExpr) (h : e.Readable),
    (e.expectations h).map Prod.fst = e.tokens
  | .mk first rest, h => by
      rw [OrExpr.expectations, List.map_append, first.map_expectations, rest.map_expectations,
        OrExpr.tokens]

theorem OrRest.map_expectations : ∀ (r : OrRest) (h : r.Readable),
    (r.expectations h).map Prod.fst = r.tokens
  | .done, _ => rfl
  | .more word next rest, h => by
      rw [OrRest.expectations, List.map_cons, List.map_append, next.map_expectations,
        rest.map_expectations, OrRest.tokens]

theorem AndExpr.map_expectations : ∀ (e : AndExpr) (h : e.Readable),
    (e.expectations h).map Prod.fst = e.tokens
  | .mk first rest, h => by
      rw [AndExpr.expectations, List.map_append, first.map_expectations, rest.map_expectations,
        AndExpr.tokens]

theorem AndRest.map_expectations : ∀ (r : AndRest) (h : r.Readable),
    (r.expectations h).map Prod.fst = r.tokens
  | .done, _ => rfl
  | .more word next rest, h => by
      rw [AndRest.expectations, List.map_cons, List.map_append, next.map_expectations,
        rest.map_expectations, AndRest.tokens]

theorem UnaryExpr.map_expectations : ∀ (u : UnaryExpr) (h : u.Readable),
    (u.expectations h).map Prod.fst = u.tokens
  | .not word inner, h => by
      have hinner := inner.map_expectations h
      rw [UnaryExpr.tokens, ← hinner]
      rfl
  | .group opening inner closing, h => by
      have hinner := inner.map_expectations h
      rw [UnaryExpr.tokens, ← hinner, UnaryExpr.expectations, List.map_cons, List.map_append]
      rfl
  | .predicate p, h => by
      have htail := p.map_tailExpectations (p.target h)
      rw [UnaryExpr.tokens, Predicate.tokens, ← htail]
      rfl

end

theorem OrExpr.map_allExpectations (e : OrExpr) (h : e.Readable) (eof : Terminal .endOfInput) :
    (e.allExpectations h eof).map Prod.fst = (Sentence.query e eof).tokens := by
  unfold OrExpr.allExpectations
  rw [List.map_append, e.map_expectations]
  rfl

end Grammar

namespace Place

open Grammar

/-! ### The moves of the automaton -/

/-- A move on a token of a query that parses. -/
inductive Moves : Place → Token → Place → Prop
  | name {t : Token} {f : Field} (kind : t.kind = .field) (known : Field.resolve? t.text = some f) :
      Moves .field t (.operator (some f))
  | not {t : Token} (kind : t.kind = .notWord) : Moves .field t .field
  | group {t : Token} (kind : t.kind = .openParen) : Moves .field t .field
  | sign {f : Option Field} {t : Token} (kind : t.kind = .operator) :
      Moves (.operator f) t (.value f)
  | inWord {f : Option Field} {t : Token} (kind : t.kind = .inWord) :
      Moves (.operator f) t (.afterIn f)
  | notWord {f : Option Field} {t : Token} (kind : t.kind = .notWord) :
      Moves (.operator f) t (.afterNot f t.start)
  | isWord {f : Option Field} {t : Token} (kind : t.kind = .isWord) :
      Moves (.operator f) t (.afterIs f t.start)
  | inAfterNot {f : Option Field} {n : Nat} {t : Token} (kind : t.kind = .inWord) :
      Moves (.afterNot f n) t (.afterIn f)
  | notAfterIs {f : Option Field} {n : Nat} {t : Token} (kind : t.kind = .notWord) :
      Moves (.afterIs f n) t (.afterIs f n)
  | emptyAfterIs {f : Option Field} {n : Nat} {t : Token} (kind : t.kind = .emptyWord) :
      Moves (.afterIs f n) t .keyword
  | value {f : Option Field} {t : Token} (kind : t.kind.isValue = true) :
      Moves (.value f) t .keyword
  | emptyValue {f : Option Field} {t : Token} (kind : t.kind = .emptyWord) :
      Moves (.value f) t .keyword
  | listOpens {f : Option Field} {t : Token} (kind : t.kind = .openParen) :
      Moves (.afterIn f) t (.listValue f)
  | listValue {f : Option Field} {t : Token} (kind : t.kind.isValue = true) :
      Moves (.listValue f) t (.listNext f)
  | comma {f : Option Field} {t : Token} (kind : t.kind = .comma) :
      Moves (.listNext f) t (.listValue f)
  | listCloses {f : Option Field} {t : Token} (kind : t.kind = .closeParen) :
      Moves (.listNext f) t .keyword
  | and {t : Token} (kind : t.kind = .andWord) : Moves .keyword t .field
  | or {t : Token} (kind : t.kind = .orWord) : Moves .keyword t .field
  | close {t : Token} (kind : t.kind = .closeParen) : Moves .keyword t .keyword
  | ends {t : Token} (kind : t.kind = .endOfInput) : Moves .keyword t .keyword

theorem Moves.step_eq {p p' : Place} {t : Token} (h : Moves p t p') : p.step t = p' := by
  cases h with
  | name kind known => simp [step, stepPredicate, kind, known]
  | value kind => cases hk : t.kind <;> simp_all [step, stepPredicate, TokenKind.isValue]
  | listValue kind => cases hk : t.kind <;> simp_all [step, stepList, TokenKind.isValue]
  | comma kind | listCloses kind => simp [step, stepList, kind]
  | not kind | group kind | sign kind | inWord kind | notWord kind | isWord kind
  | inAfterNot kind | notAfterIs kind | emptyAfterIs kind | emptyValue kind | listOpens kind
  | and kind | or kind | close kind | ends kind => simp [step, stepPredicate, kind]

/-- Whether a place is one where something is due. -/
inductive Meets : Place → Expectation → Prop
  | field : Meets .field .field
  | operator (f : Field) : Meets (.operator (some f)) (.operator f none)
  | afterNot (f : Field) (n : Nat) : Meets (.afterNot (some f) n) (.operator f (some n))
  | afterIs (f : Field) (n : Nat) : Meets (.afterIs (some f) n) (.operator f (some n))
  | value (f : Field) : Meets (.value (some f)) (.value f)
  | afterIn (f : Field) : Meets (.afterIn (some f)) (.value f)
  | listValue (f : Field) : Meets (.listValue (some f)) (.value f)
  | listNext (f : Option Field) : Meets (.listNext f) .separator
  | keyword : Meets .keyword .keyword

/-- A walk over tokens that meets what is due at each of them. -/
inductive Walks : Place → List (Token × Expectation) → Place → Prop
  | nil (p : Place) : Walks p [] p
  | cons {p p₁ p' : Place} {t : Token} {due : Expectation} {rest : List (Token × Expectation)}
      (meets : p.Meets due) (moves : p.Moves t p₁) (walks : Walks p₁ rest p') :
      Walks p ((t, due) :: rest) p'

variable {p p₁ p' : Place} {ts us : List (Token × Expectation)}

theorem Walks.append (h : Walks p ts p₁) (h' : Walks p₁ us p') : Walks p (ts ++ us) p' := by
  induction h with
  | nil _ => exact h'
  | cons meets moves _ ih => exact .cons meets moves (ih h')

theorem Walks.split (h : Walks p (ts ++ us) p') : ∃ p₁, Walks p ts p₁ ∧ Walks p₁ us p' := by
  induction ts generalizing p with
  | nil => exact ⟨p, .nil p, h⟩
  | cons pair ts ih =>
      cases h with
      | cons meets moves walks =>
          obtain ⟨p₁, hts, hus⟩ := ih walks
          exact ⟨p₁, .cons meets moves hts, hus⟩

/-- A walk is where the automaton goes. -/
theorem Walks.foldl_eq (h : Walks p ts p') : (ts.map Prod.fst).foldl step p = p' := by
  induction h with
  | nil _ => rfl
  | cons _ moves _ ih =>
      rw [List.map_cons, List.foldl_cons, moves.step_eq]
      exact ih

/-- The offset that a place remembers: that of the first word of an operator. -/
def begun? : Place → Option Nat
  | .afterNot _ n | .afterIs _ n => some n
  | _ => none

theorem Moves.begun? {p p' : Place} {t : Token} (h : Moves p t p') {n : Nat}
    (hn : p'.begun? = some n) : t.start = n ∨ p.begun? = some n := by
  cases h with
  | notWord _ | isWord _ => exact Or.inl (Option.some.inj hn)
  | notAfterIs _ => exact Or.inr hn
  | _ => cases hn

/-- What a walk ends up remembering is where one of its tokens starts. -/
theorem Walks.begun? (h : Walks p ts p') {n : Nat} (hn : p'.begun? = some n) :
    (∃ pair ∈ ts, pair.1.start = n) ∨ p.begun? = some n := by
  induction h with
  | nil _ => exact Or.inr hn
  | @cons p _ _ t due rest _ moves _ ih =>
      rcases ih hn with ⟨pair, hpair, hstart⟩ | hp
      · exact Or.inl ⟨pair, List.mem_cons_of_mem _ hpair, hstart⟩
      · rcases moves.begun? hp with hstart | hbegun
        · exact Or.inl ⟨(t, due), List.mem_cons_self, hstart⟩
        · exact Or.inr hbegun

end Place

namespace Grammar

open Place (Walks)

/-! ### The walk over a derivation -/

theorem ValueList.walks (f : Field) (l : ValueList) :
    Walks (.afterIn (some f)) (l.expectations f) .keyword := by
  have hrest : ∀ rest : List (Terminal .comma × ValueToken),
      Walks (.listNext (some f))
        (rest.flatMap fun pair => [(pair.1.1, Expectation.separator), (pair.2.1, .value f)])
        (.listNext (some f)) := by
    intro rest
    induction rest with
    | nil => exact .nil _
    | cons pair rest ih =>
        rw [List.flatMap_cons]
        exact .cons (.listNext _) (.comma pair.1.2) (.cons (.listValue f) (.listValue pair.2.2) ih)
  have hclose : Walks (.listNext (some f)) [(l.closing.1, Expectation.separator)] .keyword :=
    .cons (.listNext _) (.listCloses l.closing.2) (.nil _)
  refine .cons (.afterIn f) (.listOpens l.opening.2) ?_
  exact .cons (.listValue f) (.listValue l.first.2) ((hrest l.rest).append hclose)

theorem Predicate.tail_walks (f : Field) (p : Predicate) :
    Walks (.operator (some f)) (p.tailExpectations f) .keyword := by
  cases p with
  | compare _ sign v =>
      exact .cons (.operator f) (.sign sign.2) (.cons (.value f) (.value v.2) (.nil _))
  | equalsEmpty _ sign word =>
      exact .cons (.operator f) (.sign sign.2.1) (.cons (.value f) (.emptyValue word.2) (.nil _))
  | oneOf _ inWord values =>
      exact .cons (.operator f) (.inWord inWord.2) (values.walks f)
  | noneOf _ notWord inWord values =>
      refine .cons (.operator f) (.notWord notWord.2) ?_
      exact .cons (.afterNot f _) (.inAfterNot inWord.2) (values.walks f)
  | isEmpty _ isWord word =>
      refine .cons (.operator f) (.isWord isWord.2) ?_
      exact .cons (.afterIs f _) (.emptyAfterIs word.2) (.nil _)
  | isNotEmpty _ isWord notWord word =>
      refine .cons (.operator f) (.isWord isWord.2) ?_
      refine .cons (.afterIs f _) (.notAfterIs notWord.2) ?_
      exact .cons (.afterIs f _) (.emptyAfterIs word.2) (.nil _)

mutual

theorem OrExpr.walks : ∀ (e : OrExpr) (h : e.Readable), Walks .field (e.expectations h) .keyword
  | .mk first rest, h => by
      rw [OrExpr.expectations]
      exact (first.walks h.1).append (rest.walks h.2)

theorem OrRest.walks : ∀ (r : OrRest) (h : r.Readable), Walks .keyword (r.expectations h) .keyword
  | .done, _ => .nil _
  | .more word next rest, h => by
      rw [OrRest.expectations]
      exact .cons .keyword (.or word.2) ((next.walks h.1).append (rest.walks h.2))

theorem AndExpr.walks : ∀ (e : AndExpr) (h : e.Readable), Walks .field (e.expectations h) .keyword
  | .mk first rest, h => by
      rw [AndExpr.expectations]
      exact (first.walks h.1).append (rest.walks h.2)

theorem AndRest.walks : ∀ (r : AndRest) (h : r.Readable), Walks .keyword (r.expectations h) .keyword
  | .done, _ => .nil _
  | .more word next rest, h => by
      rw [AndRest.expectations]
      exact .cons .keyword (.and word.2) ((next.walks h.1).append (rest.walks h.2))

theorem UnaryExpr.walks : ∀ (u : UnaryExpr) (h : u.Readable),
    Walks .field (u.expectations h) .keyword
  | .not word inner, h => by
      rw [UnaryExpr.expectations]
      exact .cons .field (.not word.2) (inner.walks h)
  | .group opening inner closing, h => by
      have hclose : Walks .keyword [(closing.1, Expectation.keyword)] .keyword :=
        .cons .keyword (.close closing.2) (.nil _)
      rw [UnaryExpr.expectations]
      exact .cons .field (.group opening.2) ((inner.walks h).append hclose)
  | .predicate p, h => by
      rw [UnaryExpr.expectations]
      exact .cons .field (.name p.field.2 (Predicate.resolve?_target h)) (p.tail_walks _)

end

/-- The walk over a query that is not blank, its end included. -/
theorem OrExpr.allWalks (e : OrExpr) (h : e.Readable) (eof : Terminal .endOfInput) :
    Walks .field (e.allExpectations h eof) .keyword :=
  (e.walks h).append (.cons .keyword (.ends eof.2) (.nil _))

end Grammar

end TicketSearch
