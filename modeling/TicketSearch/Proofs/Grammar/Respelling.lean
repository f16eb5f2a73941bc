/-
Where tokens stand does not matter to the grammar.

A derivation looks at the kinds and the texts of its tokens, never at their places.  So
tokens that are spelled as those of a derivation have a derivation of their own, of the
same shape and with the same query.  The proof is a recursion on the derivation, with one
case for every production.
-/
import TicketSearch.Proofs.Parsing

namespace TicketSearch

open Token (spelling)

namespace Grammar

/-! ### Leaves -/

theorem Terminal.respell {k : TokenKind} (a : Terminal k) {t : Token}
    (h : t.spelling = a.1.spelling) : ∃ b : Terminal k, b.1 = t ∧ b.1.text = a.1.text := by
  obtain ⟨hkind, htext⟩ := Prod.mk.inj h
  exact ⟨⟨t, hkind.trans a.2⟩, rfl, htext⟩

/-- The literal of a token is told from its kind and its text. -/
theorem literal_congr {t u : Token} (h : t.spelling = u.spelling) : t.literal = u.literal := by
  obtain ⟨hkind, htext⟩ := Prod.mk.inj h
  unfold Token.literal
  rw [hkind, htext]

theorem ValueToken.respell (v : ValueToken) {t : Token} (h : t.spelling = v.1.spelling) :
    ∃ w : ValueToken, w.1 = t ∧ w.literal? = v.literal? := by
  have hvalue : t.kind.isValue = true := by
    rw [(Prod.mk.inj h).1]
    exact v.2
  refine ⟨⟨t, hvalue⟩, rfl, ?_⟩
  unfold ValueToken.literal?
  rw [literal_congr h]

theorem EmptinessSign.respell (sign : EmptinessSign) {t : Token}
    (h : t.spelling = sign.1.spelling) :
    ∃ sign' : EmptinessSign, sign'.1 = t ∧ sign'.1.text = sign.1.text := by
  obtain ⟨hkind, htext⟩ := Prod.mk.inj h
  have hsign : t.kind = .operator ∧
      (t.text = Comparison.eq.symbol ∨ t.text = Comparison.notEq.symbol) := by
    rw [hkind, htext]
    exact sign.2
  exact ⟨⟨t, hsign⟩, rfl, htext⟩

/-! ### Lists of values -/

theorem restTokens_respell {closing : Terminal .closeParen} :
    ∀ (rest : List (Terminal .comma × ValueToken)) {ts : List Token},
      ts.map spelling = (ValueList.restTokens rest ++ [closing.1]).map spelling →
      ∃ (rest' : List (Terminal .comma × ValueToken)) (closing' : Terminal .closeParen),
        ValueList.restTokens rest' ++ [closing'.1] = ts ∧
          (rest'.map Prod.snd).map ValueToken.literal? =
            (rest.map Prod.snd).map ValueToken.literal? := by
  intro rest
  induction rest with
  | nil =>
      intro ts h
      obtain ⟨t, ts, rfl, ht, hts⟩ := List.map_eq_cons_iff.mp h
      obtain ⟨closing', rfl, _⟩ := closing.respell ht
      rw [List.map_eq_nil_iff.mp hts]
      exact ⟨[], closing', rfl, rfl⟩
  | cons pair rest ih =>
      intro ts h
      obtain ⟨t, ts, rfl, ht, hts⟩ := List.map_eq_cons_iff.mp h
      obtain ⟨u, us, rfl, hu, hus⟩ := List.map_eq_cons_iff.mp hts
      obtain ⟨comma, rfl, _⟩ := pair.1.respell ht
      obtain ⟨value, rfl, hvalue⟩ := pair.2.respell hu
      obtain ⟨rest', closing', rfl, hrest⟩ := ih hus
      refine ⟨(comma, value) :: rest', closing', rfl, ?_⟩
      rw [List.map_cons, List.map_cons, List.map_cons, List.map_cons, hrest, hvalue]

theorem ValueList.respell (l : ValueList) {ts : List Token}
    (h : ts.map spelling = l.tokens.map spelling) :
    ∃ l' : ValueList, l'.tokens = ts ∧
      l'.values.mapM ValueToken.literal? = l.values.mapM ValueToken.literal? := by
  obtain ⟨t, ts, rfl, ht, hts⟩ := List.map_eq_cons_iff.mp h
  obtain ⟨u, us, rfl, hu, hus⟩ := List.map_eq_cons_iff.mp hts
  obtain ⟨opening, rfl, _⟩ := l.opening.respell ht
  obtain ⟨first, rfl, hfirst⟩ := l.first.respell hu
  obtain ⟨rest, closing, rfl, hrest⟩ := restTokens_respell l.rest hus
  refine ⟨⟨opening, first, rest, closing⟩, rfl, ?_⟩
  have hvalues : ∀ vs : List ValueToken,
      vs.mapM ValueToken.literal? = (vs.map ValueToken.literal?).mapM id := by
    intro vs
    rw [List.mapM_map]
    rfl
  unfold ValueList.values
  rw [hvalues, hvalues, List.map_cons, List.map_cons, hfirst, hrest]

/-! ### Predicates -/

theorem Predicate.respell (p : Predicate) {ts : List Token}
    (h : ts.map spelling = p.tokens.map spelling) :
    ∃ p' : Predicate, p'.tokens = ts ∧ p'.query? = p.query? := by
  obtain ⟨t, ts, rfl, ht, hts⟩ := List.map_eq_cons_iff.mp h
  obtain ⟨name, rfl, hname⟩ := p.field.respell ht
  have hquery : ∀ p' : Predicate, p'.field = name → (∀ f, p'.queryOn? f = p.queryOn? f) →
      p'.query? = p.query? := by
    intro p' hfield hon
    unfold Predicate.query?
    rw [hfield, hname]
    exact congrArg _ (funext hon)
  cases p with
  | compare field sign value =>
      obtain ⟨u, us, rfl, hu, hus⟩ := List.map_eq_cons_iff.mp hts
      obtain ⟨w, ws, rfl, hw, hws⟩ := List.map_eq_cons_iff.mp hus
      obtain ⟨sign', rfl, hsign⟩ := sign.respell hu
      obtain ⟨value', rfl, hvalue⟩ := value.respell hw
      rw [List.map_eq_nil_iff.mp hws]
      refine ⟨.compare name sign' value', rfl, hquery _ rfl fun f => ?_⟩
      simp only [queryOn?, hsign, hvalue]
  | equalsEmpty field sign word =>
      obtain ⟨u, us, rfl, hu, hus⟩ := List.map_eq_cons_iff.mp hts
      obtain ⟨w, ws, rfl, hw, hws⟩ := List.map_eq_cons_iff.mp hus
      obtain ⟨sign', rfl, hsign⟩ := sign.respell hu
      obtain ⟨word', rfl, _⟩ := word.respell hw
      rw [List.map_eq_nil_iff.mp hws]
      refine ⟨.equalsEmpty name sign' word', rfl, hquery _ rfl fun f => ?_⟩
      simp only [queryOn?, hsign]
  | oneOf field inWord values =>
      obtain ⟨u, us, rfl, hu, hus⟩ := List.map_eq_cons_iff.mp hts
      obtain ⟨inWord', rfl, _⟩ := inWord.respell hu
      obtain ⟨values', rfl, hvalues⟩ := values.respell hus
      refine ⟨.oneOf name inWord' values', rfl, hquery _ rfl fun f => ?_⟩
      simp only [queryOn?, hvalues]
  | noneOf field notWord inWord values =>
      obtain ⟨u, us, rfl, hu, hus⟩ := List.map_eq_cons_iff.mp hts
      obtain ⟨w, ws, rfl, hw, hws⟩ := List.map_eq_cons_iff.mp hus
      obtain ⟨notWord', rfl, _⟩ := notWord.respell hu
      obtain ⟨inWord', rfl, _⟩ := inWord.respell hw
      obtain ⟨values', rfl, hvalues⟩ := values.respell hws
      refine ⟨.noneOf name notWord' inWord' values', rfl, hquery _ rfl fun f => ?_⟩
      simp only [queryOn?, hvalues]
  | isEmpty field isWord word =>
      obtain ⟨u, us, rfl, hu, hus⟩ := List.map_eq_cons_iff.mp hts
      obtain ⟨w, ws, rfl, hw, hws⟩ := List.map_eq_cons_iff.mp hus
      obtain ⟨isWord', rfl, _⟩ := isWord.respell hu
      obtain ⟨word', rfl, _⟩ := word.respell hw
      rw [List.map_eq_nil_iff.mp hws]
      exact ⟨.isEmpty name isWord' word', rfl, hquery _ rfl fun f => rfl⟩
  | isNotEmpty field isWord notWord word =>
      obtain ⟨u, us, rfl, hu, hus⟩ := List.map_eq_cons_iff.mp hts
      obtain ⟨v, vs, rfl, hv, hvs⟩ := List.map_eq_cons_iff.mp hus
      obtain ⟨w, ws, rfl, hw, hws⟩ := List.map_eq_cons_iff.mp hvs
      obtain ⟨isWord', rfl, _⟩ := isWord.respell hu
      obtain ⟨notWord', rfl, _⟩ := notWord.respell hv
      obtain ⟨word', rfl, _⟩ := word.respell hw
      rw [List.map_eq_nil_iff.mp hws]
      exact ⟨.isNotEmpty name isWord' notWord' word', rfl, hquery _ rfl fun f => rfl⟩

/-! ### Expressions -/

mutual

theorem OrExpr.respell : ∀ (e : OrExpr) {ts : List Token}, ts.map spelling = e.tokens.map spelling →
    ∃ e' : OrExpr, e'.tokens = ts ∧ e'.query? = e.query?
  | .mk first rest, ts, h => by
      rw [OrExpr.tokens, List.map_append] at h
      obtain ⟨left, right, rfl, hleft, hright⟩ := List.map_eq_append_iff.mp h
      obtain ⟨first', rfl, hfirst⟩ := first.respell hleft
      obtain ⟨rest', rfl, hrest⟩ := rest.respell hright
      refine ⟨.mk first' rest', by rw [OrExpr.tokens], ?_⟩
      rw [OrExpr.query?, OrExpr.query?, hfirst, hrest]

theorem OrRest.respell : ∀ (r : OrRest) {ts : List Token}, ts.map spelling = r.tokens.map spelling →
    ∃ r' : OrRest, r'.tokens = ts ∧ r'.query? = r.query?
  | .done, ts, h => by
      rw [OrRest.tokens] at h
      exact ⟨.done, (List.map_eq_nil_iff.mp h).symm, rfl⟩
  | .more word next rest, ts, h => by
      rw [OrRest.tokens, List.map_cons, List.map_append] at h
      obtain ⟨t, ts, rfl, ht, hts⟩ := List.map_eq_cons_iff.mp h
      obtain ⟨left, right, rfl, hleft, hright⟩ := List.map_eq_append_iff.mp hts
      obtain ⟨word', rfl, _⟩ := word.respell ht
      obtain ⟨next', rfl, hnext⟩ := next.respell hleft
      obtain ⟨rest', rfl, hrest⟩ := rest.respell hright
      refine ⟨.more word' next' rest', by rw [OrRest.tokens], funext fun q => ?_⟩
      rw [OrRest.query?, OrRest.query?, hnext, hrest]

theorem AndExpr.respell : ∀ (e : AndExpr) {ts : List Token},
    ts.map spelling = e.tokens.map spelling → ∃ e' : AndExpr, e'.tokens = ts ∧ e'.query? = e.query?
  | .mk first rest, ts, h => by
      rw [AndExpr.tokens, List.map_append] at h
      obtain ⟨left, right, rfl, hleft, hright⟩ := List.map_eq_append_iff.mp h
      obtain ⟨first', rfl, hfirst⟩ := first.respell hleft
      obtain ⟨rest', rfl, hrest⟩ := rest.respell hright
      refine ⟨.mk first' rest', by rw [AndExpr.tokens], ?_⟩
      rw [AndExpr.query?, AndExpr.query?, hfirst, hrest]

theorem AndRest.respell : ∀ (r : AndRest) {ts : List Token},
    ts.map spelling = r.tokens.map spelling → ∃ r' : AndRest, r'.tokens = ts ∧ r'.query? = r.query?
  | .done, ts, h => by
      rw [AndRest.tokens] at h
      exact ⟨.done, (List.map_eq_nil_iff.mp h).symm, rfl⟩
  | .more word next rest, ts, h => by
      rw [AndRest.tokens, List.map_cons, List.map_append] at h
      obtain ⟨t, ts, rfl, ht, hts⟩ := List.map_eq_cons_iff.mp h
      obtain ⟨left, right, rfl, hleft, hright⟩ := List.map_eq_append_iff.mp hts
      obtain ⟨word', rfl, _⟩ := word.respell ht
      obtain ⟨next', rfl, hnext⟩ := next.respell hleft
      obtain ⟨rest', rfl, hrest⟩ := rest.respell hright
      refine ⟨.more word' next' rest', by rw [AndRest.tokens], funext fun q => ?_⟩
      rw [AndRest.query?, AndRest.query?, hnext, hrest]

theorem UnaryExpr.respell : ∀ (u : UnaryExpr) {ts : List Token},
    ts.map spelling = u.tokens.map spelling → ∃ u' : UnaryExpr, u'.tokens = ts ∧
      u'.query? = u.query?
  | .not word inner, ts, h => by
      rw [UnaryExpr.tokens, List.map_cons] at h
      obtain ⟨t, ts, rfl, ht, hts⟩ := List.map_eq_cons_iff.mp h
      obtain ⟨word', rfl, _⟩ := word.respell ht
      obtain ⟨inner', rfl, hinner⟩ := inner.respell hts
      refine ⟨.not word' inner', by rw [UnaryExpr.tokens], ?_⟩
      rw [UnaryExpr.query?, UnaryExpr.query?, hinner]
  | .group opening inner closing, ts, h => by
      rw [UnaryExpr.tokens, List.map_cons, List.map_append] at h
      obtain ⟨t, ts, rfl, ht, hts⟩ := List.map_eq_cons_iff.mp h
      obtain ⟨left, right, rfl, hleft, hright⟩ := List.map_eq_append_iff.mp hts
      obtain ⟨u, rest, rfl, hu, hrest⟩ := List.map_eq_cons_iff.mp hright
      obtain ⟨opening', rfl, _⟩ := opening.respell ht
      obtain ⟨inner', rfl, hinner⟩ := inner.respell hleft
      obtain ⟨closing', rfl, _⟩ := closing.respell hu
      rw [List.map_eq_nil_iff.mp hrest]
      refine ⟨.group opening' inner' closing', by rw [UnaryExpr.tokens], ?_⟩
      rw [UnaryExpr.query?, UnaryExpr.query?, hinner]
  | .predicate p, ts, h => by
      rw [UnaryExpr.tokens] at h
      obtain ⟨p', rfl, hp⟩ := p.respell h
      refine ⟨.predicate p', by rw [UnaryExpr.tokens], ?_⟩
      rw [UnaryExpr.query?, UnaryExpr.query?, hp]

end

end Grammar

namespace Query

open Grammar

/-- A source whose tokens are spelled as an expression parses to the query of the expression. -/
theorem parse_of_spelling {s : Text} {e : OrExpr} {q : Query}
    (h : (Token.markFields true false (Token.lexemesFrom 0 0 s)).map spelling =
      e.tokens.map spelling) (hq : e.query? = some q) : parse s = .ok q := by
  have hbody : ∀ t ∈ Token.markFields true false (Token.lexemesFrom 0 0 s),
      t.kind ≠ .endOfInput := fun t ht => Token.kind_ne_endOfInput ht
  have heof : (Token.mk .endOfInput [] (Text.byteLength s) (Text.byteLength s)).kind =
      .endOfInput := rfl
  obtain ⟨e', htokens, hquery⟩ := e.respell h
  unfold parse Token.stream
  refine parseTokens_of_sentence (d := .query e' ⟨_, heof⟩) heof hbody ?_ (hquery.trans hq)
  rw [Sentence.tokens, htokens]

end Query

end TicketSearch
