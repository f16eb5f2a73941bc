/-
A derivation can be read.

From any state in which an operand is due, the tokens of a derivation can all be read,
and what is then complete is its query, joined to what was pending.  The statements
follow the nonterminals.  A chain leaves the level it started from with another count of
`NOT`s, which no longer matters once an operand is complete, so what they say of the
level afterwards is only what it holds for an `OR`.
-/
import TicketSearch.Proofs.Grammar
import TicketSearch.Proofs.Transition

namespace TicketSearch

namespace Grammar

open ParserState

/-! ### A derivation can be read -/

theorem ValueToken.literal_eq_ok {v : ValueToken} {l : Literal} (h : v.literal? = some l) :
    v.1.literal = .ok l := by
  unfold ValueToken.literal? at h
  cases hv : v.1.literal with
  | ok l' =>
      rw [hv] at h
      simpa [Except.toOption] using h
  | error fault =>
      rw [hv] at h
      simp [Except.toOption] at h

/-- The rest of a list of values and its parenthesis, read after the values so far. -/
theorem restTokens_shiftAll {f : Field} {negated : Bool} {l : Level} {o : List Level}
    (closing : Terminal .closeParen) :
    ∀ (rest : List (Terminal .comma × ValueToken)) (values more : List Literal),
      (rest.map Prod.snd).mapM ValueToken.literal? = some more →
      shiftAll ⟨.listNext f negated values, l, o⟩ (ValueList.restTokens rest ++ [closing.1]) =
        some ⟨.complete (l.chain (.member f negated (values ++ more))), l, o⟩ := by
  intro rest
  induction rest with
  | nil =>
      intro values more h
      obtain rfl : [] = more := by simpa using h
      rw [List.append_nil]
      exact shiftAll_cons (.finish (.listCloses closing.2)) []
  | cons pair rest ih =>
      intro values more h
      rw [List.map_cons, List.mapM_cons] at h
      simp only [Option.pure_def, Option.bind_eq_bind, Option.bind_eq_some_iff,
        Option.some.injEq] at h
      obtain ⟨value, hvalue, values', hvalues, rfl⟩ := h
      have hread := ih (values ++ [value]) values' hvalues
      rw [List.append_assoc, List.singleton_append] at hread
      rw [← hread]
      refine (shiftAll_cons (.advance (.comma pair.1.2)) _).trans ?_
      exact shiftAll_cons (.advance (.nextValue pair.2.2 (ValueToken.literal_eq_ok hvalue))) _

theorem ValueList.shiftAll {f : Field} {negated : Bool} {inWord : Nat} {l : Level} {o : List Level}
    (vs : ValueList) {values : List Literal}
    (h : vs.values.mapM ValueToken.literal? = some values) :
    ParserState.shiftAll ⟨.afterIn f negated inWord, l, o⟩ vs.tokens =
      some ⟨.complete (l.chain (.member f negated values)), l, o⟩ := by
  rw [ValueList.values, List.mapM_cons] at h
  simp only [Option.pure_def, Option.bind_eq_bind, Option.bind_eq_some_iff, Option.some.injEq] at h
  obtain ⟨value, hvalue, more, hmore, rfl⟩ := h
  rw [ValueList.tokens, shiftAll_cons (.advance (.listOpens vs.opening.2)),
    shiftAll_cons (.advance (.firstValue vs.first.2 (ValueToken.literal_eq_ok hvalue)))]
  exact restTokens_shiftAll vs.closing vs.rest [value] more hmore

/-- What an emptiness sign before `EMPTY` asks for. -/
theorem EmptinessSign.cases (sign : EmptinessSign) :
    (Comparison.ofSymbol? sign.1.text = some .eq ∧ sign.1.text ≠ Comparison.notEq.symbol) ∨
      (Comparison.ofSymbol? sign.1.text = some .notEq ∧ sign.1.text = Comparison.notEq.symbol) := by
  rcases sign.2.2 with h | h <;> rw [h]
  · exact Or.inl ⟨by decide, by decide⟩
  · exact Or.inr ⟨by decide, rfl⟩

theorem Predicate.shiftAll (pr : Predicate) {q : Query} (h : pr.query? = some q) {p : Phase}
    {l : Level} {o : List Level} (due : p.Due) :
    ParserState.shiftAll ⟨p, l, o⟩ pr.tokens = some ⟨.complete (l.chain q), l, o⟩ := by
  obtain ⟨f, hf, h⟩ := Option.bind_eq_some_iff.mp h
  rw [Predicate.tokens, shiftAll_cons (.advance (.field due pr.field.2 hf))]
  cases pr with
  | compare _ sign value =>
      obtain ⟨op, hop, h⟩ := Option.bind_eq_some_iff.mp h
      obtain ⟨v, hv, h⟩ := Option.bind_eq_some_iff.mp h
      obtain rfl : Query.compare f op v = q := by simpa using h
      rw [Predicate.tail, shiftAll_cons (.advance (.operator sign.2 hop))]
      exact shiftAll_cons (.finish (.value value.2 (ValueToken.literal_eq_ok hv))) []
  | equalsEmpty _ sign word =>
      obtain rfl : Query.empty f _ = q := by simpa [Predicate.queryOn?] using h
      rw [Predicate.tail]
      rcases sign.cases with ⟨hop, hsign⟩ | ⟨hop, hsign⟩
      · rw [decide_eq_false hsign, shiftAll_cons (.advance (.operator sign.2.1 hop))]
        exact shiftAll_cons (.finish (.equalsEmpty word.2)) []
      · rw [decide_eq_true hsign, shiftAll_cons (.advance (.operator sign.2.1 hop))]
        exact shiftAll_cons (.finish (.differsFromEmpty word.2)) []
  | oneOf _ inWord values =>
      obtain ⟨vs, hvs, rfl⟩ := Option.map_eq_some_iff.mp h
      rw [Predicate.tail, shiftAll_cons (.advance (.inWord inWord.2))]
      exact values.shiftAll hvs
  | noneOf _ notWord inWord values =>
      obtain ⟨vs, hvs, rfl⟩ := Option.map_eq_some_iff.mp h
      rw [Predicate.tail, shiftAll_cons (.advance (.notWord notWord.2)),
        shiftAll_cons (.advance (.inAfterNot inWord.2))]
      exact values.shiftAll hvs
  | isEmpty _ isWord word =>
      obtain rfl : Query.empty f false = q := by simpa [Predicate.queryOn?] using h
      rw [Predicate.tail, shiftAll_cons (.advance (.isWord isWord.2))]
      exact shiftAll_cons (.finish (.isEmpty word.2)) []
  | isNotEmpty _ isWord notWord word =>
      obtain rfl : Query.empty f true = q := by simpa [Predicate.queryOn?] using h
      rw [Predicate.tail, shiftAll_cons (.advance (.isWord isWord.2)),
        shiftAll_cons (.advance (.notAfterIs notWord.2))]
      exact shiftAll_cons (.finish (.isNotEmpty word.2)) []

end Grammar

/-- A sign that is read as an operator is how the operator is typed. -/
theorem Comparison.text_of_ofSymbol? {t : Text} {op : Comparison} (h : ofSymbol? t = some op) :
    t = op.symbol := by
  have hfound := List.find?_some h
  exact (beq_iff_eq.mp hfound).symm

theorem Level.negate_not (n : Nat) (q : Query) : negate n (.not q) = .not (negate n q) := by
  induction n with
  | zero => rfl
  | succ n ih => rw [negate, ih, negate]

/-- A `NOT` that is pending is a `NOT` around the operand. -/
theorem Level.chain_not (l : Level) (q : Query) :
    chain { l with negations := l.negations + 1 } q = l.chain (.not q) := by
  simp only [chain, negate, negate_not]

namespace Grammar

open ParserState

mutual

theorem OrExpr.shiftAll : ∀ (e : OrExpr) {q : Query}, e.query? = some q →
    ∀ {p : Phase} (o : List Level), p.Due →
    ∃ c l, ParserState.shiftAll ⟨p, .fresh, o⟩ e.tokens = some ⟨.complete c, l, o⟩ ∧ l.total c = q
  | .mk first rest, q, h, p, o, due => by
      obtain ⟨q', hfirst, hrest⟩ := Option.bind_eq_some_iff.mp h
      obtain ⟨l, hl, halt⟩ := first.shiftAll hfirst none o due
      have htotal : l.total q' = q' := by simp only [Level.total, halt]
      obtain ⟨c, l', hl', hq⟩ := rest.shiftAll (l := l) (by rw [htotal]; exact hrest) o
      exact ⟨c, l', (shiftAll_append_of_eq_some hl rest.tokens).trans hl', hq⟩

theorem OrRest.shiftAll : ∀ (r : OrRest) {c q : Query} {l : Level}, r.query? (l.total c) = some q →
    ∀ (o : List Level), ∃ c' l',
      ParserState.shiftAll ⟨.complete c, l, o⟩ r.tokens = some ⟨.complete c', l', o⟩ ∧
      l'.total c' = q
  | .done, c, q, l, h, o => ⟨c, l, rfl, by simpa [OrRest.query?] using h⟩
  | .more word next rest, c, q, l, h, o => by
      obtain ⟨right, hnext, hrest⟩ := Option.bind_eq_some_iff.mp h
      obtain ⟨l', hl', halt⟩ := next.shiftAll hnext (p := .operand) (some (l.total c)) o trivial
      have htotal : l'.total right = .or (l.total c) right := by simp only [Level.total, halt]
      obtain ⟨c', l'', hl'', hq⟩ := rest.shiftAll (l := l') (by rw [htotal]; exact hrest) o
      refine ⟨c', l'', ?_, hq⟩
      rw [OrRest.tokens, shiftAll_cons (.or word.2), shiftAll_append_of_eq_some hl', hl'']

theorem AndExpr.shiftAll : ∀ (e : AndExpr) {q : Query}, e.query? = some q →
    ∀ {p : Phase} (alternatives : Option Query) (o : List Level), p.Due →
    ∃ l, ParserState.shiftAll ⟨p, ⟨alternatives, none, 0⟩, o⟩ e.tokens = some ⟨.complete q, l, o⟩ ∧
      l.alternatives = alternatives
  | .mk first rest, q, h, p, alternatives, o, due => by
      obtain ⟨q', hfirst, hrest⟩ := Option.bind_eq_some_iff.mp h
      obtain ⟨n, hn⟩ := first.shiftAll hfirst ⟨alternatives, none, 0⟩ o due
      obtain ⟨l, hl, halt⟩ := rest.shiftAll hrest ⟨alternatives, none, n⟩ o
      exact ⟨l, (shiftAll_append_of_eq_some hn rest.tokens).trans hl, halt⟩

theorem AndRest.shiftAll : ∀ (r : AndRest) {c q : Query}, r.query? c = some q →
    ∀ (l : Level) (o : List Level), ∃ l',
      ParserState.shiftAll ⟨.complete c, l, o⟩ r.tokens = some ⟨.complete q, l', o⟩ ∧
        l'.alternatives = l.alternatives
  | .done, c, q, h, l, o => by
      obtain rfl : c = q := by simpa [AndRest.query?] using h
      exact ⟨l, rfl, rfl⟩
  | .more word next rest, c, q, h, l, o => by
      obtain ⟨right, hnext, hrest⟩ := Option.bind_eq_some_iff.mp h
      obtain ⟨n, hn⟩ := next.shiftAll hnext (p := .operand) ⟨l.alternatives, some c, 0⟩ o trivial
      obtain ⟨l', hl', halt⟩ := rest.shiftAll hrest ⟨l.alternatives, some c, n⟩ o
      refine ⟨l', ?_, halt⟩
      rw [AndRest.tokens, shiftAll_cons (.and word.2), shiftAll_append_of_eq_some hn]
      exact hl'

theorem UnaryExpr.shiftAll : ∀ (u : UnaryExpr) {q : Query}, u.query? = some q →
    ∀ {p : Phase} (l : Level) (o : List Level), p.Due →
    ∃ n, ParserState.shiftAll ⟨p, l, o⟩ u.tokens =
      some ⟨.complete (l.chain q), { l with negations := n }, o⟩
  | .not word inner, q, h, p, l, o, due => by
      obtain ⟨q', hinner, rfl⟩ := Option.map_eq_some_iff.mp h
      obtain ⟨n, hn⟩ := inner.shiftAll hinner (p := .operand)
        { l with negations := l.negations + 1 } o trivial
      refine ⟨n, ?_⟩
      rw [UnaryExpr.tokens, shiftAll_cons (.not due word.2), hn, Level.chain_not]
  | .group opening inner closing, q, h, p, l, o, due => by
      rw [UnaryExpr.query?] at h
      obtain ⟨c, l', hinner, hq⟩ := inner.shiftAll h (p := .group opening.1.start) (l :: o) trivial
      refine ⟨l.negations, ?_⟩
      rw [UnaryExpr.tokens, shiftAll_cons (.group due opening.2),
        shiftAll_append_of_eq_some hinner, shiftAll_cons (.close closing.2), hq]
      rfl
  | .predicate pr, q, h, p, l, o, due => ⟨l.negations, pr.shiftAll h due⟩

end

end Grammar

end TicketSearch
