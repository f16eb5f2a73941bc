/-
Queries put together from the texts of queries.

Someone who puts an accepted query in parentheses, negates it or joins two of them gets
the query that this stands for.  A text can be put so wherever a query is expected because
it lexes on its own there: its tokens look no further than what separates them from what
comes next, and which of its words are fields does not depend on what is around it
(`Derives`).  The combined text then has the derivation that is combined from the
derivations of the parts, with tokens at other places, which the grammar does not look at.

Without parentheses an `OR` still joins two queries.  The chain of the second goes on from
that of the first, so the query is another one than the `OR` of both, with the same rows.
-/
import TicketSearch.Evaluation
import TicketSearch.Proofs.Grammar.Respelling
import TicketSearch.Proofs.Writing.Spelling

namespace TicketSearch

open Grammar
open Lexeme (Separates)
open Token (Spells markSpellings spelling)

variable {s t : Text} {e f g : OrExpr} {raw raw' : List (TokenKind × Text)}

/-! ### Chains that go on -/

namespace Grammar

/-- An `OR` chain with the operands of a tail after its own. -/
def OrExpr.extend : OrExpr → OrRest → OrExpr
  | e, .done => e
  | e, .more word next rest => (e.snoc word next).extend rest

/-- Two `OR` chains as one. -/
def OrExpr.join (e : OrExpr) (word : Terminal .orWord) : OrExpr → OrExpr
  | .mk first rest => (e.snoc word first).extend rest

theorem OrExpr.tokens_extend : ∀ (e : OrExpr) (r : OrRest),
    (e.extend r).tokens = e.tokens ++ r.tokens
  | e, .done => by rw [OrExpr.extend, OrRest.tokens, List.append_nil]
  | e, .more word next rest => by
      rw [OrExpr.extend, OrExpr.tokens_extend, OrExpr.tokens_snoc, OrRest.tokens, List.append_assoc,
        List.cons_append]

theorem OrExpr.tokens_join (e f : OrExpr) (word : Terminal .orWord) :
    (e.join word f).tokens = e.tokens ++ word.1 :: f.tokens := by
  obtain ⟨first, rest⟩ := f
  rw [OrExpr.join, OrExpr.tokens_extend, OrExpr.tokens_snoc, OrExpr.tokens, List.append_assoc,
    List.cons_append]

theorem OrExpr.query?_extend : ∀ {e : OrExpr} {left q : Query} (r : OrRest),
    e.query? = some left → r.query? left = some q → (e.extend r).query? = some q
  | e, left, q, .done, he, hr => by
      rw [OrRest.query?] at hr
      rw [OrExpr.extend, he, hr]
  | e, left, q, .more word next rest, he, hr => by
      obtain ⟨right, hnext, hrest⟩ := Option.bind_eq_some_iff.mp hr
      rw [OrExpr.extend]
      exact OrExpr.query?_extend rest (OrExpr.query?_snoc he word hnext) hrest

/-- When a chain starts from a query with the rows of `p` as well, so does the whole chain. -/
theorem OrRest.exists_query?_of_eval_or (p : Query) : ∀ (r : OrRest) {left left' q : Query},
    (∀ row now, left'.eval row now = (p.eval row now || left.eval row now)) →
      r.query? left = some q →
        ∃ q', r.query? left' = some q' ∧
          ∀ row now, q'.eval row now = (p.eval row now || q.eval row now)
  | .done, left, left', q, heval, hq => by
      rw [OrRest.query?] at hq
      obtain rfl := Option.some.inj hq
      exact ⟨left', rfl, heval⟩
  | .more word next rest, left, left', q, heval, hq => by
      obtain ⟨right, hnext, hrest⟩ := Option.bind_eq_some_iff.mp hq
      rw [OrRest.query?, hnext]
      refine rest.exists_query?_of_eval_or p (fun row now => ?_) hrest
      rw [Query.eval, Query.eval, heval, Bool.or_assoc]

/-- Two chains as one have the rows of both. -/
theorem OrExpr.exists_query?_join {p q : Query} (he : e.query? = some p) (hf : f.query? = some q)
    (word : Terminal .orWord) :
    ∃ q', (e.join word f).query? = some q' ∧
      ∀ row now, q'.eval row now = (p.eval row now || q.eval row now) := by
  obtain ⟨first, rest⟩ := f
  obtain ⟨left, hfirst, hrest⟩ := Option.bind_eq_some_iff.mp hf
  have hleft : ∀ row now, (Query.or p left).eval row now = (p.eval row now || left.eval row now) :=
    fun row now => rfl
  obtain ⟨q', hq', heval⟩ := rest.exists_query?_of_eval_or p hleft hrest
  exact ⟨q', OrExpr.query?_extend rest (OrExpr.query?_snoc he word hfirst) hq', heval⟩

/-- A token of one kind, at no place in particular. -/
def Terminal.of (kind : TokenKind) (text : Text) : Terminal kind :=
  ⟨⟨kind, text, 0, 0⟩, rfl⟩

/-- A derivation in parentheses. -/
def OrExpr.parenthesized (e : OrExpr) : UnaryExpr :=
  .group (.of .openParen "(") e (.of .closeParen ")")

/-- An operand as a whole expression. -/
def UnaryExpr.alone (u : UnaryExpr) : OrExpr :=
  .mk (.mk u .done) .done

theorem UnaryExpr.tokens_alone (u : UnaryExpr) : u.alone.tokens = u.tokens := by
  rw [alone, OrExpr.tokens, AndExpr.tokens, AndRest.tokens, OrRest.tokens, List.append_nil,
    List.append_nil]

theorem UnaryExpr.query?_alone (u : UnaryExpr) : u.alone.query? = u.query? := by
  simp [alone, OrExpr.query?, AndExpr.query?, AndRest.query?, OrRest.query?]

end Grammar

/-! ### Texts of derivations -/

/--
A text with the tokens of a derivation.  Whatever separates and comes behind it, the text
lexes the same, and where a query is expected its marked spellings are those of the tokens.
-/
structure Derives (s : Text) (e : OrExpr) (raw : List (TokenKind × Text)) : Prop where
  spells : ∀ {r : Text} {rest : List (TokenKind × Text)}, Separates r → Spells r rest →
    Spells (s ++ r) (raw ++ rest)
  marks : ∃ expected afterIn, ∀ rest, markSpellings true false (raw ++ rest) =
    e.tokens.map spelling ++ markSpellings expected afterIn rest

namespace Token

/-- What separates can come behind a whole text too. -/
theorem Lexes.spells_append {o : Nat} {ts : List Token} (h : Lexes o s ts) {r : Text}
    {rest : List (TokenKind × Text)} (hr : Separates r) (hrest : Spells r rest) :
    Spells (s ++ r) (ts.map spelling ++ rest) := by
  induction h with
  | nil _ => exact hrest
  | blank blank _ ih => exact ih.blank blank
  | @lexeme _ k l behind ts scans _ ih =>
      rw [List.append_assoc]
      refine ih.lexeme ?_
      cases behind with
      | nil => exact scans.of_separates hr
      | cons d behind => exact scans.of_head? rfl

theorem markSpellings_append (expected afterIn : Bool) (pre : List (TokenKind × Text)) :
    ∃ e a, ∀ rest, markSpellings expected afterIn (pre ++ rest) =
      markSpellings expected afterIn pre ++ markSpellings e a rest := by
  induction pre generalizing expected afterIn with
  | nil => exact ⟨expected, afterIn, fun rest => rfl⟩
  | cons p pre ih =>
      obtain ⟨kind, text⟩ := p
      obtain ⟨e, a, h⟩ := ih (expectsFieldAfter afterIn (markedKind expected kind text))
        (markedKind expected kind text == .inWord)
      refine ⟨e, a, fun rest => ?_⟩
      rw [List.cons_append, markSpellings, h]
      rfl

/-- A connective is no field, and a field is expected after it. -/
theorem markSpellings_connective {k : TokenKind} (hk : k = .andWord ∨ k = .orWord)
    (expected afterIn : Bool) (word : Text) (rest : List (TokenKind × Text)) :
    markSpellings expected afterIn ((k, word) :: rest) =
      (k, word) :: markSpellings true false rest := by
  rcases hk with rfl | rfl <;>
    exact markSpellings_cons expected afterIn (markedKind_of_ne (by decide) _ _) rest

end Token

namespace Derives

/-- A text is of a derivation in parentheses when what they are around is one. -/
theorem parenthesized (h : Derives s e raw) :
    Derives ('(' :: (s ++ [')'])) e.parenthesized.alone
      (Query.opening :: (raw ++ [Query.closing])) := by
  constructor
  · intro r rest hr hrest
    have hall :=
      Query.spells_opening (h.spells Query.separates_closing (Query.spells_closing hrest))
    have htext : '(' :: (s ++ [')']) ++ r = '(' :: (s ++ ')' :: r) := by simp
    have hlexemes : Query.opening :: (raw ++ [Query.closing]) ++ rest =
        Query.opening :: (raw ++ Query.closing :: rest) := by simp
    rw [htext, hlexemes]
    exact hall
  · obtain ⟨expected, afterIn, hmark⟩ := h.marks
    refine ⟨false, false, fun rest => ?_⟩
    have hclosing : markSpellings expected afterIn (Query.closing :: rest) =
        Query.closing :: markSpellings false false rest :=
      Token.markSpellings_cons expected afterIn (Token.markedKind_of_ne (by decide) _ _) rest
    have hspelled : e.parenthesized.alone.tokens.map spelling =
        Query.opening :: (e.tokens.map spelling ++ [Query.closing]) := by
      rw [UnaryExpr.tokens_alone, OrExpr.parenthesized, UnaryExpr.tokens, List.map_cons,
        List.map_append]
      rfl
    rw [hspelled, List.cons_append, List.append_assoc]
    show Query.opening :: markSpellings true false (raw ++ Query.closing :: rest) = _
    rw [hmark, hclosing]
    simp

/-- A text after `NOT` is of the opposite. -/
theorem negated {u : UnaryExpr} (h : Derives s u.alone raw) :
    Derives ("NOT ".toList ++ s) (UnaryExpr.not (.of .notWord "NOT") u).alone
      ((.notWord, "NOT".toList) :: raw) := by
  constructor
  · intro r rest hr hrest
    exact Query.spells_keyword .notWord "NOT" (by decide) (h.spells hr hrest)
  · obtain ⟨expected, afterIn, hmark⟩ := h.marks
    refine ⟨expected, afterIn, fun rest => ?_⟩
    rw [UnaryExpr.tokens_alone] at hmark ⊢
    show (TokenKind.notWord, "NOT".toList) :: markSpellings true false (raw ++ rest) = _
    rw [hmark]
    rfl

/-- Two texts with a connective between them are of a derivation that has the tokens of both. -/
theorem connected {k : TokenKind} (hk : k = .andWord ∨ k = .orWord) {word : Text}
    (hword : (k, word) ∈ keywordSpellings) (h : Derives s e raw) (h' : Derives t f raw')
    (hg : g.tokens = e.tokens ++ (Terminal.of k word).1 :: f.tokens) :
    Derives (s ++ ' ' :: (word ++ ' ' :: t)) g (raw ++ (k, word) :: raw') := by
  constructor
  · intro r rest hr hrest
    have hright := Query.spells_keyword k word hword (h'.spells hr hrest)
    have hall := h.spells (separates_space _) (Query.spells_space hright)
    rw [List.append_assoc, List.cons_append, List.append_assoc, List.cons_append, List.append_assoc]
    exact hall
  · obtain ⟨expected, afterIn, hmark⟩ := h.marks
    obtain ⟨expected', afterIn', hmark'⟩ := h'.marks
    refine ⟨expected', afterIn', fun rest => ?_⟩
    rw [List.append_assoc, hmark, List.cons_append, Token.markSpellings_connective hk, hmark', hg,
      List.map_append, List.append_assoc]
    rfl

end Derives

namespace Query

/-- The text of a query that is not blank is of a derivation of the query. -/
theorem exists_derives_of_parse {q : Query} (h : parse s = .ok q)
    (hs : ∃ c ∈ s, isBlank c = false) : ∃ e raw, Derives s e raw ∧ e.query? = some q := by
  obtain ⟨e, eof, htokens, hq⟩ := exists_orExpr_of_parse h hs
  have hmarked : e.tokens = Token.markFields true false (Token.lexemesFrom 0 0 s) :=
    List.append_inj_left' htokens rfl
  have hknown : ∀ t ∈ Token.lexemesFrom 0 0 s, t.kind ≠ .unknown :=
    Token.known_of_markFields fun t ht => known_of_parse h t (List.mem_append_left _ ht)
  refine ⟨e, (Token.lexemesFrom 0 0 s).map spelling, ⟨?_, ?_⟩, hq⟩
  · exact (Token.lexes_of_known hknown).spells_append
  · obtain ⟨expected, afterIn, hmark⟩ :=
      Token.markSpellings_append true false ((Token.lexemesFrom 0 0 s).map spelling)
    refine ⟨expected, afterIn, fun rest => ?_⟩
    rw [hmark, hmarked, Token.map_markFields]

/-- The text of a derivation parses to its query. -/
theorem parse_of_derives {q : Query} (h : Derives s e raw) (hq : e.query? = some q) :
    parse s = .ok q := by
  have hspells := h.spells Lexeme.separates_nil Token.spells_nil
  rw [List.append_nil, List.append_nil] at hspells
  obtain ⟨ts, hlexes, hts⟩ := hspells 0
  obtain ⟨expected, afterIn, hmark⟩ := h.marks
  have hall := hmark []
  rw [List.append_nil, markSpellings, List.append_nil] at hall
  refine parse_of_spelling ?_ hq
  rw [hlexes.lexemesFrom_eq, Token.map_markFields, hts, hall]

/-! ### Texts of queries -/

variable {a b : Text} {p q : Query}

theorem exists_parenthesized_of_parse (h : parse a = .ok p) (hs : ∃ c ∈ a, isBlank c = false) :
    ∃ (u : UnaryExpr) (raw : List (TokenKind × Text)),
      Derives ('(' :: (a ++ [')'])) u.alone raw ∧ u.query? = some p := by
  obtain ⟨e, raw, he, hp⟩ := exists_derives_of_parse h hs
  exact ⟨e.parenthesized, _, he.parenthesized, hp⟩

/-- Parentheses around a query leave no trace. -/
theorem parse_parenthesized (ha : parse a = .ok p) (hane : ∃ c ∈ a, isBlank c = false) :
    parse ("(" ++ a ++ ")") = .ok p := by
  obtain ⟨u, raw, hu, hp⟩ := exists_parenthesized_of_parse ha hane
  exact parse_of_derives hu (u.query?_alone.trans hp)

theorem parse_not_parenthesized (ha : parse a = .ok p) (hane : ∃ c ∈ a, isBlank c = false) :
    parse ("NOT (" ++ a ++ ")") = .ok (.not p) := by
  obtain ⟨u, raw, hu, hp⟩ := exists_parenthesized_of_parse ha hane
  refine parse_of_derives hu.negated ?_
  rw [UnaryExpr.query?_alone, UnaryExpr.query?, hp]
  rfl

theorem parse_and_parenthesized (ha : parse a = .ok p) (hb : parse b = .ok q)
    (hane : ∃ c ∈ a, isBlank c = false) (hbne : ∃ c ∈ b, isBlank c = false) :
    parse ("(" ++ a ++ ") AND (" ++ b ++ ")") = .ok (.and p q) := by
  obtain ⟨u, raw, hu, hp⟩ := exists_parenthesized_of_parse ha hane
  obtain ⟨v, raw', hv, hq⟩ := exists_parenthesized_of_parse hb hbne
  have htokens : (OrExpr.mk (.mk u (.more (.of .andWord "AND") v .done)) .done).tokens =
      u.alone.tokens ++ (Terminal.of .andWord "AND").1 :: v.alone.tokens := by
    simp [UnaryExpr.alone, OrExpr.tokens, OrRest.tokens, AndExpr.tokens, AndRest.tokens]
  have htext : ("(" ++ a ++ ") AND (" ++ b ++ ")" : Text) =
      '(' :: (a ++ [')']) ++ ' ' :: ("AND".toList ++ ' ' :: ('(' :: (b ++ [')']))) := by simp
  rw [htext]
  refine parse_of_derives (hu.connected (.inl rfl) (by decide) hv htokens) ?_
  simp [OrExpr.query?, OrRest.query?, AndExpr.query?, AndRest.query?, hp, hq]

theorem parse_or_parenthesized (ha : parse a = .ok p) (hb : parse b = .ok q)
    (hane : ∃ c ∈ a, isBlank c = false) (hbne : ∃ c ∈ b, isBlank c = false) :
    parse ("(" ++ a ++ ") OR (" ++ b ++ ")") = .ok (.or p q) := by
  obtain ⟨u, raw, hu, hp⟩ := exists_parenthesized_of_parse ha hane
  obtain ⟨v, raw', hv, hq⟩ := exists_parenthesized_of_parse hb hbne
  have htext : ("(" ++ a ++ ") OR (" ++ b ++ ")" : Text) =
      '(' :: (a ++ [')']) ++ ' ' :: ("OR".toList ++ ' ' :: ('(' :: (b ++ [')']))) := by simp
  rw [htext]
  refine parse_of_derives (hu.connected (.inr rfl) (by decide) hv (OrExpr.tokens_join _ _ _)) ?_
  refine OrExpr.query?_snoc (u.query?_alone.trans hp) _ ?_
  rw [AndExpr.query?, hq]
  rfl

/-- An `OR` between two queries that are in no parentheses has the rows of both. -/
theorem exists_parse_or (ha : parse a = .ok p) (hb : parse b = .ok q)
    (hane : ∃ c ∈ a, isBlank c = false) (hbne : ∃ c ∈ b, isBlank c = false) :
    ∃ joined, parse (a ++ " OR " ++ b) = .ok joined ∧
      ∀ row now, joined.eval row now = (p.eval row now || q.eval row now) := by
  obtain ⟨e, raw, he, hp⟩ := exists_derives_of_parse ha hane
  obtain ⟨f, raw', hf, hq⟩ := exists_derives_of_parse hb hbne
  obtain ⟨joined, hjoined, heval⟩ := OrExpr.exists_query?_join hp hq (.of .orWord "OR")
  have htext : (a ++ " OR " ++ b : Text) = a ++ ' ' :: ("OR".toList ++ ' ' :: b) := by simp
  refine ⟨joined, ?_, heval⟩
  rw [htext]
  exact parse_of_derives (he.connected (.inr rfl) (by decide) hf (e.tokens_join f _)) hjoined

/--
**Queries are put together as their texts are.**  In parentheses a text that parses and is
not blank is an operand: on its own it stays the query it is, after `NOT` it is the opposite, and
`AND` and `OR` take it whole.  An `OR` without parentheses has the rows of both its sides.
-/
theorem parse_composed (ha : parse a = .ok p) (hb : parse b = .ok q)
    (hane : ∃ c ∈ a, isBlank c = false) (hbne : ∃ c ∈ b, isBlank c = false) :
    parse ("(" ++ a ++ ")") = .ok p ∧
      parse ("NOT (" ++ a ++ ")") = .ok (.not p) ∧
      parse ("(" ++ a ++ ") AND (" ++ b ++ ")") = .ok (.and p q) ∧
      parse ("(" ++ a ++ ") OR (" ++ b ++ ")") = .ok (.or p q) ∧
      ∃ joined, parse (a ++ " OR " ++ b) = .ok joined ∧
        ∀ row now, joined.eval row now = (p.eval row now || q.eval row now) :=
  ⟨parse_parenthesized ha hane, parse_not_parenthesized ha hane,
    parse_and_parenthesized ha hb hane hbne, parse_or_parenthesized ha hb hane hbne,
    exists_parse_or ha hb hane hbne⟩

/-- In parentheses the two chains are the operands of the `AND`; without, it takes
only their inner ends. -/
theorem parse_composed_of_chains :
    parse "(status = open OR type = bug) AND (labels = ui OR labels = api)" =
        .ok (.and (.or (.compare .status .eq (.word "open")) (.compare .type .eq (.word "bug")))
          (.or (.compare .labels .eq (.word "ui")) (.compare .labels .eq (.word "api")))) ∧
      parse "status = open OR type = bug AND labels = ui OR labels = api" =
        .ok (.or (.or (.compare .status .eq (.word "open"))
          (.and (.compare .type .eq (.word "bug")) (.compare .labels .eq (.word "ui"))))
          (.compare .labels .eq (.word "api"))) :=
  ⟨(parse_composed (a := "status = open OR type = bug") (b := "labels = ui OR labels = api")
    rfl rfl ⟨'s', by decide, by decide⟩ ⟨'l', by decide, by decide⟩).2.2.1, rfl⟩

end Query

end TicketSearch
