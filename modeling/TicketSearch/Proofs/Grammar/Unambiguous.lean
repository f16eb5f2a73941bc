/-
No list of tokens has two derivations.

What makes it so is that the first token of an operand tells which production it comes
from, and that a chain of `AND` or `OR` ends exactly where its connective does not
follow.  So the statement to prove by recursion is about derivations with more tokens
after them: if two derivations, each followed by tokens that cannot continue it, make
up the same list, then they are the same and so is what follows.
-/
import TicketSearch.Proofs.Grammar

namespace TicketSearch

namespace Grammar

/-- The tokens do not start with one of the given kind. -/
def Stops (kind : TokenKind) (ts : List Token) : Prop :=
  ∀ t ∈ ts.head?, t.kind ≠ kind

theorem stops_cons {kind : TokenKind} {t : Token} {ts : List Token} (h : t.kind ≠ kind) :
    Stops kind (t :: ts) := by
  intro u hu
  simp only [List.head?_cons, Option.mem_def, Option.some.injEq] at hu
  exact hu ▸ h

theorem Terminal.eq_of_val {kind : TokenKind} {a b : Terminal kind} (h : a.1 = b.1) : a = b :=
  Subtype.ext h

/-- Tokens of different kinds are different. -/
theorem Terminal.val_ne {kind kind' : TokenKind} (a : Terminal kind) (b : Terminal kind')
    (h : kind ≠ kind') : a.1 ≠ b.1 := by
  intro hab
  exact h (by rw [← a.2, ← b.2, hab])

/-- A value is not a token of a kind that cannot stand as a value. -/
theorem ValueToken.val_ne {kind : TokenKind} (v : ValueToken) (b : Terminal kind)
    (h : kind.isValue = false) : v.1 ≠ b.1 := by
  intro hvb
  have hv := v.2
  rw [hvb, b.2, h] at hv
  exact Bool.false_ne_true hv

/-! ### Lists of values -/

theorem restTokens_cancel :
    ∀ (l l' : List (Terminal .comma × ValueToken)) (c c' : Terminal .closeParen)
      (r r' : List Token),
      ValueList.restTokens l ++ c.1 :: r = ValueList.restTokens l' ++ c'.1 :: r' →
      l = l' ∧ c = c' ∧ r = r' := by
  intro l
  induction l with
  | nil =>
      intro l' c c' r r' h
      cases l' with
      | nil =>
          simp only [ValueList.restTokens, List.flatMap_nil, List.nil_append, List.cons.injEq] at h
          exact ⟨rfl, Terminal.eq_of_val h.1, h.2⟩
      | cons pair rest =>
          simp only [ValueList.restTokens, List.flatMap_nil, List.nil_append, List.flatMap_cons,
            List.cons_append, List.cons.injEq] at h
          exact absurd h.1 (Terminal.val_ne c pair.1 (by decide))
  | cons pair rest ih =>
      intro l' c c' r r' h
      cases l' with
      | nil =>
          simp only [ValueList.restTokens, List.flatMap_nil, List.nil_append, List.flatMap_cons,
            List.cons_append, List.cons.injEq] at h
          exact absurd h.1 (Terminal.val_ne pair.1 c' (by decide))
      | cons pair' rest' =>
          simp only [ValueList.restTokens, List.nil_append, List.flatMap_cons,
            List.cons_append, List.cons.injEq] at h
          obtain ⟨hcomma, hvalue, hrest⟩ := h
          obtain ⟨rfl, hclose⟩ := ih rest' c c' r r' hrest
          have hpair : pair = pair' :=
            Prod.ext (Terminal.eq_of_val hcomma) (Subtype.ext hvalue)
          exact ⟨by rw [hpair], hclose⟩

theorem ValueList.tokens_cancel (l l' : ValueList) {r r' : List Token}
    (h : l.tokens ++ r = l'.tokens ++ r') : l = l' ∧ r = r' := by
  obtain ⟨opening, first, rest, closing⟩ := l
  obtain ⟨opening', first', rest', closing'⟩ := l'
  simp only [ValueList.tokens, List.cons_append, List.append_assoc, List.nil_append,
    List.cons.injEq] at h
  obtain ⟨hopen, hfirst, hrest⟩ := h
  obtain ⟨rfl, rfl, hr⟩ := restTokens_cancel rest rest' closing closing' r r' hrest
  obtain rfl := Terminal.eq_of_val hopen
  obtain rfl : first = first' := Subtype.ext hfirst
  exact ⟨rfl, hr⟩

/-! ### Predicates

The token after the name tells the production, but for a comparison sign: there the
token after the sign does.
-/

theorem Predicate.tokens_cancel (p p' : Predicate) {r r' : List Token}
    (h : p.tokens ++ r = p'.tokens ++ r') : p = p' ∧ r = r' := by
  simp only [Predicate.tokens, List.cons_append, List.cons.injEq] at h
  obtain ⟨hfield, htail⟩ := h
  have hsign : ∀ (sign : EmptinessSign) {kind : TokenKind} (b : Terminal kind),
      kind ≠ .operator → sign.1 ≠ b.1 :=
    fun sign _ b hk hc => hk (by rw [← b.2, ← hc, sign.2.1])
  cases p <;> cases p' <;>
    simp only [Predicate.tail, Predicate.field, List.cons_append, List.nil_append,
      List.cons.injEq] at hfield htail
  case compare.compare field sign value field' sign' value' =>
    obtain ⟨h1, h2, h3⟩ := htail
    exact ⟨by rw [Terminal.eq_of_val hfield, Terminal.eq_of_val h1, Subtype.ext h2], h3⟩
  case equalsEmpty.equalsEmpty field sign word field' sign' word' =>
    obtain ⟨h1, h2, h3⟩ := htail
    exact ⟨by rw [Terminal.eq_of_val hfield, Subtype.ext h1, Terminal.eq_of_val h2], h3⟩
  case oneOf.oneOf field inWord values field' inWord' values' =>
    obtain ⟨hvalues, hr⟩ := values.tokens_cancel values' htail.2
    exact ⟨by rw [Terminal.eq_of_val hfield, Terminal.eq_of_val htail.1, hvalues], hr⟩
  case noneOf.noneOf field notWord inWord values field' notWord' inWord' values' =>
    obtain ⟨h1, h2, h3⟩ := htail
    obtain ⟨hvalues, hr⟩ := values.tokens_cancel values' h3
    exact ⟨by rw [Terminal.eq_of_val hfield, Terminal.eq_of_val h1, Terminal.eq_of_val h2, hvalues],
      hr⟩
  case isEmpty.isEmpty field isWord word field' isWord' word' =>
    obtain ⟨h1, h2, h3⟩ := htail
    exact ⟨by rw [Terminal.eq_of_val hfield, Terminal.eq_of_val h1, Terminal.eq_of_val h2], h3⟩
  case isNotEmpty.isNotEmpty field isWord notWord word field' isWord' notWord' word' =>
    obtain ⟨h1, h2, h3, h4⟩ := htail
    exact ⟨by rw [Terminal.eq_of_val hfield, Terminal.eq_of_val h1, Terminal.eq_of_val h2,
      Terminal.eq_of_val h3], h4⟩
  case compare.equalsEmpty field sign value field' sign' word' =>
    exact absurd htail.2.1 (value.val_ne word' rfl)
  case equalsEmpty.compare field sign word field' sign' value' =>
    exact absurd htail.2.1.symm (value'.val_ne word rfl)
  case isEmpty.isNotEmpty field isWord word field' isWord' notWord' word' =>
    exact absurd htail.2.1 (Terminal.val_ne word notWord' (by decide))
  case isNotEmpty.isEmpty field isWord notWord word field' isWord' word' =>
    exact absurd htail.2.1 (Terminal.val_ne notWord word' (by decide))
  all_goals
    first
      | exact absurd htail.1 (Terminal.val_ne _ _ (by decide))
      | exact absurd htail.1 (hsign _ _ (by decide))
      | exact absurd htail.1.symm (hsign _ _ (by decide))

/-! ### Expressions -/

theorem OrRest.stops_and (rest : OrRest) {r : List Token} (h : Stops .andWord r) :
    Stops .andWord (rest.tokens ++ r) := by
  cases rest with
  | done => simpa [OrRest.tokens] using h
  | more word next rest =>
      rw [OrRest.tokens]
      exact stops_cons (by rw [word.2]; decide)

mutual

theorem OrExpr.tokens_cancel : ∀ (e e' : OrExpr) {r r' : List Token},
    Stops .andWord r → Stops .orWord r → Stops .andWord r' → Stops .orWord r' →
    e.tokens ++ r = e'.tokens ++ r' → e = e' ∧ r = r'
  | .mk first rest, .mk first' rest', r, r', ha, ho, ha', ho', h => by
      rw [OrExpr.tokens, OrExpr.tokens, List.append_assoc, List.append_assoc] at h
      obtain ⟨rfl, hrest⟩ :=
        first.tokens_cancel first' (rest.stops_and ha) (rest'.stops_and ha') h
      obtain ⟨rfl, hr⟩ := rest.tokens_cancel rest' ha ho ha' ho' hrest
      exact ⟨rfl, hr⟩

theorem OrRest.tokens_cancel : ∀ (e e' : OrRest) {r r' : List Token},
    Stops .andWord r → Stops .orWord r → Stops .andWord r' → Stops .orWord r' →
    e.tokens ++ r = e'.tokens ++ r' → e = e' ∧ r = r'
  | .done, .done, r, r', _, _, _, _, h => ⟨rfl, h⟩
  | .done, .more word _ _, r, r', _, ho, _, _, h => by
      rw [OrRest.tokens, OrRest.tokens, List.nil_append] at h
      exact absurd word.2 (ho word.1 (by simp [h]))
  | .more word _ _, .done, r, r', _, _, _, ho', h => by
      rw [OrRest.tokens, OrRest.tokens, List.nil_append] at h
      exact absurd word.2 (ho' word.1 (by simp [← h]))
  | .more word next rest, .more word' next' rest', r, r', ha, ho, ha', ho', h => by
      simp only [OrRest.tokens, List.cons_append, List.append_assoc, List.cons.injEq] at h
      obtain rfl := Terminal.eq_of_val h.1
      obtain ⟨rfl, hrest⟩ :=
        next.tokens_cancel next' (rest.stops_and ha) (rest'.stops_and ha') h.2
      obtain ⟨rfl, hr⟩ := rest.tokens_cancel rest' ha ho ha' ho' hrest
      exact ⟨rfl, hr⟩

theorem AndExpr.tokens_cancel : ∀ (e e' : AndExpr) {r r' : List Token},
    Stops .andWord r → Stops .andWord r' →
    e.tokens ++ r = e'.tokens ++ r' → e = e' ∧ r = r'
  | .mk first rest, .mk first' rest', r, r', ha, ha', h => by
      rw [AndExpr.tokens, AndExpr.tokens, List.append_assoc, List.append_assoc] at h
      obtain ⟨rfl, hrest⟩ := first.tokens_cancel first' h
      obtain ⟨rfl, hr⟩ := rest.tokens_cancel rest' ha ha' hrest
      exact ⟨rfl, hr⟩

theorem AndRest.tokens_cancel : ∀ (e e' : AndRest) {r r' : List Token},
    Stops .andWord r → Stops .andWord r' →
    e.tokens ++ r = e'.tokens ++ r' → e = e' ∧ r = r'
  | .done, .done, r, r', _, _, h => ⟨rfl, h⟩
  | .done, .more word _ _, r, r', ha, _, h => by
      rw [AndRest.tokens, AndRest.tokens, List.nil_append] at h
      exact absurd word.2 (ha word.1 (by simp [h]))
  | .more word _ _, .done, r, r', _, ha', h => by
      rw [AndRest.tokens, AndRest.tokens, List.nil_append] at h
      exact absurd word.2 (ha' word.1 (by simp [← h]))
  | .more word next rest, .more word' next' rest', r, r', ha, ha', h => by
      simp only [AndRest.tokens, List.cons_append, List.append_assoc, List.cons.injEq] at h
      obtain rfl := Terminal.eq_of_val h.1
      obtain ⟨rfl, hrest⟩ := next.tokens_cancel next' h.2
      obtain ⟨rfl, hr⟩ := rest.tokens_cancel rest' ha ha' hrest
      exact ⟨rfl, hr⟩

theorem UnaryExpr.tokens_cancel : ∀ (u u' : UnaryExpr) {r r' : List Token},
    u.tokens ++ r = u'.tokens ++ r' → u = u' ∧ r = r'
  | .not word inner, .not word' inner', r, r', h => by
      simp only [UnaryExpr.tokens, List.cons_append, List.cons.injEq] at h
      obtain rfl := Terminal.eq_of_val h.1
      obtain ⟨rfl, hr⟩ := inner.tokens_cancel inner' h.2
      exact ⟨rfl, hr⟩
  | .group opening inner closing, .group opening' inner' closing', r, r', h => by
      simp only [UnaryExpr.tokens, List.cons_append, List.append_assoc, List.nil_append,
        List.cons.injEq] at h
      obtain rfl := Terminal.eq_of_val h.1
      have hstops : ∀ (c : Terminal .closeParen) (s : List Token) (kind : TokenKind),
          .closeParen ≠ kind → Stops kind (c.1 :: s) :=
        fun c s kind hk => stops_cons (by rw [c.2]; exact hk)
      obtain ⟨rfl, hclose⟩ := inner.tokens_cancel inner'
        (hstops closing r _ (by decide)) (hstops closing r _ (by decide))
        (hstops closing' r' _ (by decide)) (hstops closing' r' _ (by decide)) h.2
      obtain ⟨hc, hr⟩ := List.cons.inj hclose
      obtain rfl := Terminal.eq_of_val hc
      exact ⟨rfl, hr⟩
  | .predicate p, .predicate p', r, r', h => by
      obtain ⟨rfl, hr⟩ := p.tokens_cancel p' h
      exact ⟨rfl, hr⟩
  | .not word _, .group opening _ _, r, r', h =>
      absurd (List.cons.inj h).1 (Terminal.val_ne word opening (by decide))
  | .not word _, .predicate p, r, r', h =>
      absurd (List.cons.inj h).1 (Terminal.val_ne word p.field (by decide))
  | .group opening _ _, .not word _, r, r', h =>
      absurd (List.cons.inj h).1 (Terminal.val_ne opening word (by decide))
  | .group opening _ _, .predicate p, r, r', h =>
      absurd (List.cons.inj h).1 (Terminal.val_ne opening p.field (by decide))
  | .predicate p, .not word _, r, r', h =>
      absurd (List.cons.inj h).1 (Terminal.val_ne p.field word (by decide))
  | .predicate p, .group opening _ _, r, r', h =>
      absurd (List.cons.inj h).1 (Terminal.val_ne p.field opening (by decide))

end

/-! ### Sentences -/

/-- An expression starts with a token that is not the end of the input. -/
theorem UnaryExpr.tokens_ne_nil (u : UnaryExpr) :
    ∃ t ts, u.tokens = t :: ts ∧ t.kind ≠ .endOfInput := by
  cases u with
  | not word inner => exact ⟨_, _, rfl, by rw [word.2]; decide⟩
  | group opening inner closing => exact ⟨_, _, rfl, by rw [opening.2]; decide⟩
  | predicate p => exact ⟨_, _, rfl, by rw [p.field.2]; decide⟩

theorem OrExpr.tokens_ne_nil (e : OrExpr) :
    ∃ t ts, e.tokens = t :: ts ∧ t.kind ≠ .endOfInput := by
  obtain ⟨⟨u, rest⟩, more⟩ := e
  obtain ⟨t, ts, hu, ht⟩ := u.tokens_ne_nil
  exact ⟨t, ts ++ rest.tokens ++ more.tokens,
    by simp [OrExpr.tokens, AndExpr.tokens, hu], ht⟩

/-- **No list of tokens has two derivations.** -/
theorem Sentence.tokens_injective (d d' : Sentence) (h : d.tokens = d'.tokens) : d = d' := by
  have hclash : ∀ (eof eof' : Terminal .endOfInput) (e : OrExpr),
      [eof.1] ≠ e.tokens ++ [eof'.1] := by
    intro eof eof' e hc
    obtain ⟨t, ts, he, ht⟩ := e.tokens_ne_nil
    rw [he, List.cons_append, List.cons.injEq] at hc
    exact ht (by rw [← hc.1, eof.2])
  have hstops : ∀ (eof : Terminal .endOfInput) (kind : TokenKind),
      .endOfInput ≠ kind → Stops kind [eof.1] :=
    fun eof kind hk => stops_cons (by rw [eof.2]; exact hk)
  cases d with
  | empty eof =>
      cases d' with
      | empty eof' =>
          simp only [Sentence.tokens, List.cons.injEq, and_true] at h
          rw [Terminal.eq_of_val h]
      | query e' eof' => exact absurd h (hclash eof eof' e')
  | query e eof =>
      cases d' with
      | empty eof' => exact absurd h.symm (hclash eof' eof e)
      | query e' eof' =>
          obtain ⟨rfl, heof⟩ := e.tokens_cancel e'
            (hstops eof _ (by decide)) (hstops eof _ (by decide))
            (hstops eof' _ (by decide)) (hstops eof' _ (by decide)) h
          simp only [List.cons.injEq, and_true] at heof
          rw [Terminal.eq_of_val heof]

end Grammar

end TicketSearch
