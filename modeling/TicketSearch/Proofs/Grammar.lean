/-
The grammar of queries, over tokens.

    Query      := OrExpr EOF | EOF
    OrExpr     := AndExpr (OR AndExpr)*
    AndExpr    := UnaryExpr (AND UnaryExpr)*
    UnaryExpr  := NOT UnaryExpr | '(' OrExpr ')' | Predicate
    Predicate  := FIELD ( Operator Value
                        | ('=' | '!=') EMPTY
                        | ('IN' | 'NOT' 'IN') '(' Value (',' Value)* ')'
                        | 'IS' 'NOT'? 'EMPTY' )

Every nonterminal is a type, and a derivation is a value of that type whose leaves
are the tokens it derives.  A leaf is a subtype of the tokens of its kind, so there
is no derivation of tokens that do not fit.

Three things are said of a derivation: which tokens it derives (`tokens`), which
query it stands for (`query?`), and whether its leaves denote anything at all
(`Readable`): a name need not be one of a field, nor a date one of the calendar.
The shape of the query is read off `query?`.  A `NOT` takes the operand after it, the
chain of an `AND` or `OR` grows to the left, and a pair of parentheses is forgotten.
-/
import TicketSearch.Query.Parser

namespace TicketSearch

namespace Grammar

/-! ### Leaves -/

/-- A token of one kind. -/
abbrev Terminal (kind : TokenKind) : Type :=
  { t : Token // t.kind = kind }

/-- A token that can stand as a value. -/
abbrev ValueToken : Type :=
  { t : Token // t.kind.isValue = true }

/-- A sign that asks for equality or its opposite, as it may stand before `EMPTY`. -/
abbrev EmptinessSign : Type :=
  { t : Token // t.kind = .operator ∧
    (t.text = Comparison.eq.symbol ∨ t.text = Comparison.notEq.symbol) }

/-- Whether a token used as a value denotes one: numbers, dates and relative dates may not. -/
def ValueToken.Readable (v : ValueToken) : Prop :=
  match v.1.kind with
  | .number => (readFloat? v.1.text).isSome
  | .date => (Date.read? v.1.text).isSome
  | .relativeDate => (RelativeDate.read? v.1.text).isSome
  | _ => True

/-- The literal that a value denotes. -/
def ValueToken.literal? (v : ValueToken) : Option Literal :=
  v.1.literal.toOption

/-- A readable value is one that denotes a literal. -/
theorem ValueToken.literal?_isSome (v : ValueToken) : v.literal?.isSome ↔ v.Readable := by
  unfold ValueToken.literal? ValueToken.Readable Token.literal
  cases hkind : v.1.kind with
  | string =>
      simp only
      split <;> simp [Except.toOption]
  | number =>
      simp only
      cases readFloat? v.1.text <;> simp [Except.toOption]
  | date =>
      simp only
      cases Date.read? v.1.text <;> simp [Except.toOption]
  | relativeDate =>
      simp only
      cases RelativeDate.read? v.1.text <;> simp [Except.toOption]
  | _ => simp [Except.toOption]

/-! ### Predicates -/

/-- The parenthesised values of an `IN`. -/
structure ValueList where
  opening : Terminal .openParen
  first : ValueToken
  /-- Every further value with the comma before it. -/
  rest : List (Terminal .comma × ValueToken)
  closing : Terminal .closeParen

namespace ValueList

/-- The values, in order. -/
def values (l : ValueList) : List ValueToken :=
  l.first :: l.rest.map Prod.snd

/-- The tokens of a tail of a list: every value after its comma. -/
def restTokens (rest : List (Terminal .comma × ValueToken)) : List Token :=
  rest.flatMap fun pair => [pair.1.1, pair.2.1]

def tokens (l : ValueList) : List Token :=
  l.opening.1 :: l.first.1 :: (restTokens l.rest ++ [l.closing.1])

end ValueList

/-- A field and what is asked of it. -/
inductive Predicate
  | compare (field : Terminal .field) (sign : Terminal .operator) (value : ValueToken)
  | equalsEmpty (field : Terminal .field) (sign : EmptinessSign) (word : Terminal .emptyWord)
  | oneOf (field : Terminal .field) (inWord : Terminal .inWord) (values : ValueList)
  | noneOf (field : Terminal .field) (notWord : Terminal .notWord) (inWord : Terminal .inWord)
      (values : ValueList)
  | isEmpty (field : Terminal .field) (isWord : Terminal .isWord) (word : Terminal .emptyWord)
  | isNotEmpty (field : Terminal .field) (isWord : Terminal .isWord) (notWord : Terminal .notWord)
      (word : Terminal .emptyWord)

namespace Predicate

/-- The name at the head of a predicate. -/
def field : Predicate → Terminal .field
  | compare f _ _ | equalsEmpty f _ _ | oneOf f _ _ | noneOf f _ _ _ | isEmpty f _ _ |
    isNotEmpty f _ _ _ => f

/-- What follows the name. -/
def tail : Predicate → List Token
  | compare _ sign value => [sign.1, value.1]
  | equalsEmpty _ sign word => [sign.1, word.1]
  | oneOf _ inWord values => inWord.1 :: values.tokens
  | noneOf _ notWord inWord values => notWord.1 :: inWord.1 :: values.tokens
  | isEmpty _ isWord word => [isWord.1, word.1]
  | isNotEmpty _ isWord notWord word => [isWord.1, notWord.1, word.1]

def tokens (p : Predicate) : List Token :=
  p.field.1 :: p.tail

/-- The query of a predicate on a field that is known. -/
def queryOn? (field : Field) : Predicate → Option Query
  | compare _ sign value => do
    let op ← Comparison.ofSymbol? sign.1.text
    return .compare field op (← value.literal?)
  | equalsEmpty _ sign _ =>
    some (.empty field (decide (sign.1.text = Comparison.notEq.symbol)))
  | oneOf _ _ values => (values.values.mapM ValueToken.literal?).map (.member field false)
  | noneOf _ _ _ values => (values.values.mapM ValueToken.literal?).map (.member field true)
  | isEmpty _ _ _ => some (.empty field false)
  | isNotEmpty _ _ _ _ => some (.empty field true)

def query? (p : Predicate) : Option Query :=
  (Field.resolve? p.field.1.text).bind fun field => p.queryOn? field

/-- The name is one of a field, the sign is one of the six, and the values denote something. -/
def Readable (p : Predicate) : Prop :=
  (Field.resolve? p.field.1.text).isSome ∧
    match p with
    | compare _ sign value => (Comparison.ofSymbol? sign.1.text).isSome ∧ value.Readable
    | oneOf _ _ values | noneOf _ _ _ values => ∀ v ∈ values.values, v.Readable
    | equalsEmpty .. | isEmpty .. | isNotEmpty .. => True

end Predicate

/-! ### Expressions -/

mutual

/-- `OrExpr := AndExpr (OR AndExpr)*` -/
inductive OrExpr
  | mk (first : AndExpr) (rest : OrRest)

/-- `(OR AndExpr)*` -/
inductive OrRest
  | done
  | more (word : Terminal .orWord) (next : AndExpr) (rest : OrRest)

/-- `AndExpr := UnaryExpr (AND UnaryExpr)*` -/
inductive AndExpr
  | mk (first : UnaryExpr) (rest : AndRest)

/-- `(AND UnaryExpr)*` -/
inductive AndRest
  | done
  | more (word : Terminal .andWord) (next : UnaryExpr) (rest : AndRest)

/-- `UnaryExpr := NOT UnaryExpr | '(' OrExpr ')' | Predicate` -/
inductive UnaryExpr
  | not (word : Terminal .notWord) (inner : UnaryExpr)
  | group (opening : Terminal .openParen) (inner : OrExpr) (closing : Terminal .closeParen)
  | predicate (p : Predicate)

end

mutual

def OrExpr.tokens : OrExpr → List Token
  | .mk first rest => first.tokens ++ rest.tokens

def OrRest.tokens : OrRest → List Token
  | .done => []
  | .more word next rest => word.1 :: (next.tokens ++ rest.tokens)

def AndExpr.tokens : AndExpr → List Token
  | .mk first rest => first.tokens ++ rest.tokens

def AndRest.tokens : AndRest → List Token
  | .done => []
  | .more word next rest => word.1 :: (next.tokens ++ rest.tokens)

def UnaryExpr.tokens : UnaryExpr → List Token
  | .not word inner => word.1 :: inner.tokens
  | .group opening inner closing => opening.1 :: (inner.tokens ++ [closing.1])
  | .predicate p => p.tokens

end

mutual

def OrExpr.query? : OrExpr → Option Query
  | .mk first rest => first.query?.bind rest.query?

/-- The query of a chain whose part so far is `left`. -/
def OrRest.query? : OrRest → Query → Option Query
  | .done, left => some left
  | .more _ next rest, left => next.query?.bind fun right => rest.query? (.or left right)

def AndExpr.query? : AndExpr → Option Query
  | .mk first rest => first.query?.bind rest.query?

/-- The query of a chain whose part so far is `left`. -/
def AndRest.query? : AndRest → Query → Option Query
  | .done, left => some left
  | .more _ next rest, left => next.query?.bind fun right => rest.query? (.and left right)

def UnaryExpr.query? : UnaryExpr → Option Query
  | .not _ inner => inner.query?.map .not
  | .group _ inner _ => inner.query?
  | .predicate p => p.query?

end

mutual

def OrExpr.Readable : OrExpr → Prop
  | .mk first rest => first.Readable ∧ rest.Readable

def OrRest.Readable : OrRest → Prop
  | .done => True
  | .more _ next rest => next.Readable ∧ rest.Readable

def AndExpr.Readable : AndExpr → Prop
  | .mk first rest => first.Readable ∧ rest.Readable

def AndRest.Readable : AndRest → Prop
  | .done => True
  | .more _ next rest => next.Readable ∧ rest.Readable

def UnaryExpr.Readable : UnaryExpr → Prop
  | .not _ inner => inner.Readable
  | .group _ inner _ => inner.Readable
  | .predicate p => p.Readable

end

/-- `Query := OrExpr EOF | EOF` -/
inductive Sentence
  | empty (eof : Terminal .endOfInput)
  | query (e : OrExpr) (eof : Terminal .endOfInput)

namespace Sentence

def tokens : Sentence → List Token
  | empty eof => [eof.1]
  | query e eof => e.tokens ++ [eof.1]

def query? : Sentence → Option Query
  | empty _ => some .all
  | query e _ => e.query?

def Readable : Sentence → Prop
  | empty _ => True
  | query e _ => e.Readable

end Sentence

/-! ### Readable derivations

The two ways to say that a derivation makes sense agree: it is readable exactly when
it stands for a query.
-/

private theorem isSome_bind_iff {α β : Type} {o : Option α} {f : α → Option β} {P : Prop}
    (h : ∀ a, (f a).isSome ↔ P) : (o.bind f).isSome ↔ o.isSome ∧ P := by
  cases o with
  | none => simp
  | some a => simpa using h a

theorem literals_isSome (vs : List ValueToken) :
    (vs.mapM ValueToken.literal?).isSome ↔ ∀ v ∈ vs, v.Readable := by
  induction vs with
  | nil => simp
  | cons v vs ih =>
      rw [List.mapM_cons]
      have hrest : ∀ l : Literal,
          ((vs.mapM ValueToken.literal?).bind fun ls => some (l :: ls)).isSome ↔
            ∀ v ∈ vs, v.Readable := by
        intro l
        rw [← ih]
        cases vs.mapM ValueToken.literal? <;> simp
      rw [List.forall_mem_cons, ← v.literal?_isSome]
      exact isSome_bind_iff hrest

theorem Predicate.query?_isSome (p : Predicate) : p.query?.isSome ↔ p.Readable := by
  refine isSome_bind_iff fun field => ?_
  cases p with
  | compare _ sign value =>
      have hvalue : ∀ op : Comparison,
          (value.literal?.bind fun l => some (Query.compare field op l)).isSome ↔
            value.Readable := by
        intro op
        rw [← value.literal?_isSome]
        cases value.literal? <;> simp
      exact isSome_bind_iff hvalue
  | oneOf _ _ values => simpa [queryOn?] using literals_isSome values.values
  | noneOf _ _ _ values => simpa [queryOn?] using literals_isSome values.values
  | equalsEmpty _ _ _ => simp [queryOn?]
  | isEmpty _ _ _ => simp [queryOn?]
  | isNotEmpty _ _ _ _ => simp [queryOn?]

mutual

theorem OrExpr.query?_isSome : ∀ e : OrExpr, e.query?.isSome ↔ e.Readable
  | .mk first rest => by
      rw [OrExpr.query?, OrExpr.Readable, ← first.query?_isSome]
      exact isSome_bind_iff rest.query?_isSome

theorem OrRest.query?_isSome : ∀ (r : OrRest) (left : Query), (r.query? left).isSome ↔ r.Readable
  | .done, left => by simp [OrRest.query?, OrRest.Readable]
  | .more _ next rest, left => by
      rw [OrRest.query?, OrRest.Readable, ← next.query?_isSome]
      exact isSome_bind_iff fun right => rest.query?_isSome (.or left right)

theorem AndExpr.query?_isSome : ∀ e : AndExpr, e.query?.isSome ↔ e.Readable
  | .mk first rest => by
      rw [AndExpr.query?, AndExpr.Readable, ← first.query?_isSome]
      exact isSome_bind_iff rest.query?_isSome

theorem AndRest.query?_isSome : ∀ (r : AndRest) (left : Query), (r.query? left).isSome ↔ r.Readable
  | .done, left => by simp [AndRest.query?, AndRest.Readable]
  | .more _ next rest, left => by
      rw [AndRest.query?, AndRest.Readable, ← next.query?_isSome]
      exact isSome_bind_iff fun right => rest.query?_isSome (.and left right)

theorem UnaryExpr.query?_isSome : ∀ u : UnaryExpr, u.query?.isSome ↔ u.Readable
  | .not _ inner => by
      rw [UnaryExpr.query?, UnaryExpr.Readable, ← inner.query?_isSome, Option.isSome_map]
  | .group _ inner _ => by
      rw [UnaryExpr.query?, UnaryExpr.Readable, inner.query?_isSome]
  | .predicate p => by
      rw [UnaryExpr.query?, UnaryExpr.Readable, p.query?_isSome]

end

theorem Sentence.query?_isSome (d : Sentence) : d.query?.isSome ↔ d.Readable := by
  cases d with
  | empty eof => simp [Sentence.query?, Sentence.Readable]
  | query e eof => exact e.query?_isSome

end Grammar

end TicketSearch
