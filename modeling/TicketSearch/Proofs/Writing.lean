/-
Queries and their canonical texts.

The queries that can be written are exactly those that some source parses to, and each
is what its canonical text parses to.

Writing a query and parsing it goes through its spellings: they are what the canonical
text lexes as, and tokens so spelled have a derivation of the query
(`Query.exists_unary`), which the parser then finds.  Conversely a derivation of the
tokens of a source stands for a proper query, since every literal of a source is well
formed (`Grammar.UnaryExpr.proper`).
-/
import TicketSearch.Proofs.Parsing
import TicketSearch.Proofs.Writing.Spelling

namespace TicketSearch

open Grammar

namespace Query

/-! ### From spellings to a derivation -/

theorem exists_terminal {t : Token} {k : TokenKind} {text : Text} (h : t.spelling = (k, text)) :
    ∃ leaf : Terminal k, leaf.1 = t ∧ leaf.1.text = text :=
  ⟨⟨t, congrArg Prod.fst h⟩, rfl, congrArg Prod.snd h⟩

theorem exists_value {t : Token} {v : Literal} (hv : v.WellFormed) (h : t.spelling = v.spelling) :
    ∃ leaf : ValueToken, leaf.1 = t ∧ leaf.literal? = some v := by
  obtain ⟨hkind, hliteral⟩ := Literal.literal_of_spelling hv h
  refine ⟨⟨t, hkind⟩, rfl, ?_⟩
  unfold ValueToken.literal?
  rw [hliteral]
  rfl

theorem exists_values {values : List Literal} (hne : values ≠ [])
    (hv : ∀ v ∈ values, v.WellFormed) {ts : List Token}
    (h : ts.map Token.spelling = valueSpellings values) :
    ∃ (first : ValueToken) (rest : List (Terminal .comma × ValueToken)),
      ts = first.1 :: ValueList.restTokens rest ∧
        (first :: rest.map Prod.snd).mapM ValueToken.literal? = some values := by
  induction values generalizing ts with
  | nil => exact absurd rfl hne
  | cons v values ih =>
      cases values with
      | nil =>
          obtain ⟨t, rest, rfl, ht, hrest⟩ := List.map_eq_cons_iff.mp h
          obtain ⟨leaf, hleaf, hliteral⟩ := exists_value (hv v List.mem_cons_self) ht
          refine ⟨leaf, [], ?_, ?_⟩
          · rw [List.map_eq_nil_iff.mp hrest, hleaf]
            rfl
          · simp [hliteral]
      | cons w values =>
          obtain ⟨t, rest, rfl, ht, hrest⟩ := List.map_eq_cons_iff.mp h
          obtain ⟨comma, rest', rfl, hcomma, hrest'⟩ := List.map_eq_cons_iff.mp hrest
          obtain ⟨leaf, hleaf, hliteral⟩ := exists_value (hv v List.mem_cons_self) ht
          obtain ⟨mark, hmark, _⟩ := exists_terminal hcomma
          obtain ⟨next, more, hnext, hliterals⟩ := ih (List.cons_ne_nil w values)
            (fun u hu => hv u (List.mem_cons_of_mem _ hu)) hrest'
          refine ⟨leaf, (mark, next) :: more, ?_, ?_⟩
          · rw [hnext, ← hleaf, ← hmark]
            rfl
          · rw [List.mapM_cons, hliteral]
            show (((next :: more.map Prod.snd).mapM ValueToken.literal?).bind
              fun ls => some (v :: ls)) = _
            rw [hliterals]
            rfl

theorem exists_name {t : Token} {field : Field} (h : t.spelling = (.field, field.name)) :
    ∃ leaf : Terminal .field, leaf.1 = t ∧ Field.resolve? leaf.1.text = some field := by
  obtain ⟨leaf, hleaf, htext⟩ := exists_terminal h
  refine ⟨leaf, hleaf, ?_⟩
  rw [htext, resolve?_name]

/-- A predicate whose name is known is a query about that field. -/
theorem query?_of_resolve (p : Predicate) {field : Field}
    (h : Field.resolve? p.field.1.text = some field) : p.query? = p.queryOn? field := by
  unfold Predicate.query?
  rw [h]
  rfl

theorem ofSymbol?_symbol (op : Comparison) : Comparison.ofSymbol? op.symbol = some op := by
  cases op <;> rfl

theorem exists_predicate_compare {field : Field} {op : Comparison} {value : Literal}
    (hq : value.WellFormed) {ts : List Token}
    (hts : ts.map Token.spelling = (Query.compare field op value).spellings .field) :
    ∃ p : Predicate, p.tokens = ts ∧ p.query? = some (.compare field op value) := by
  obtain ⟨t₁, ts₁, rfl, h₁, hts₁⟩ := List.map_eq_cons_iff.mp hts
  obtain ⟨t₂, ts₂, rfl, h₂, hts₂⟩ := List.map_eq_cons_iff.mp hts₁
  obtain ⟨t₃, ts₃, rfl, h₃, hts₃⟩ := List.map_eq_cons_iff.mp hts₂
  obtain ⟨name, rfl, hname⟩ := exists_name h₁
  obtain ⟨sign, rfl, hsign⟩ := exists_terminal h₂
  obtain ⟨leaf, rfl, hliteral⟩ := exists_value hq h₃
  refine ⟨.compare name sign leaf, ?_, ?_⟩
  · rw [List.map_eq_nil_iff.mp hts₃]
    rfl
  · rw [query?_of_resolve (.compare name sign leaf) hname]
    show (Comparison.ofSymbol? sign.1.text).bind _ = _
    rw [hsign, ofSymbol?_symbol]
    show leaf.literal?.bind _ = _
    rw [hliteral]
    rfl

theorem exists_predicate_member {field : Field} {negated : Bool} {values : List Literal}
    (hq : (Query.member field negated values).Proper) {ts : List Token}
    (hts : ts.map Token.spelling = (Query.member field negated values).spellings .field) :
    ∃ p : Predicate, p.tokens = ts ∧ p.query? = some (.member field negated values) := by
  obtain ⟨t₁, ts₁, rfl, h₁, hts₁⟩ := List.map_eq_cons_iff.mp hts
  obtain ⟨nots, ts₂, rfl, hnots, hts₂⟩ := List.map_eq_append_iff.mp hts₁
  obtain ⟨t₂, ts₃, rfl, h₂, hts₃⟩ := List.map_eq_cons_iff.mp hts₂
  obtain ⟨t₃, ts₄, rfl, h₃, hts₄⟩ := List.map_eq_cons_iff.mp hts₃
  obtain ⟨vals, ends, rfl, hvals, hends⟩ := List.map_eq_append_iff.mp hts₄
  obtain ⟨t₄, ts₅, rfl, h₄, hts₅⟩ := List.map_eq_cons_iff.mp hends
  obtain ⟨name, rfl, hname⟩ := exists_name h₁
  obtain ⟨inWord, rfl, _⟩ := exists_terminal h₂
  obtain ⟨opens, rfl, _⟩ := exists_terminal h₃
  obtain ⟨closes, rfl, _⟩ := exists_terminal h₄
  obtain ⟨first, rest, rfl, hliterals⟩ := exists_values hq.1 hq.2 hvals
  have hnil : ts₅ = [] := List.map_eq_nil_iff.mp hts₅
  have hvalues : (ValueList.mk opens first rest closes).values.mapM ValueToken.literal? =
      some values := hliterals
  cases negated with
  | false =>
      refine ⟨.oneOf name inWord ⟨opens, first, rest, closes⟩, ?_, ?_⟩
      · rw [hnil, List.map_eq_nil_iff.mp hnots]
        rfl
      · rw [query?_of_resolve (.oneOf name inWord _) hname]
        show ((ValueList.mk opens first rest closes).values.mapM ValueToken.literal?).map _ = _
        rw [hvalues]
        rfl
  | true =>
      obtain ⟨t₀, ts₀, rfl, h₀, hts₀⟩ := List.map_eq_cons_iff.mp hnots
      obtain ⟨notWord, rfl, _⟩ := exists_terminal h₀
      refine ⟨.noneOf name notWord inWord ⟨opens, first, rest, closes⟩, ?_, ?_⟩
      · rw [hnil, List.map_eq_nil_iff.mp hts₀]
        rfl
      · rw [query?_of_resolve (.noneOf name notWord inWord _) hname]
        show ((ValueList.mk opens first rest closes).values.mapM ValueToken.literal?).map _ = _
        rw [hvalues]
        rfl

theorem exists_predicate_empty {field : Field} {negated : Bool} {ts : List Token}
    (hts : ts.map Token.spelling = (Query.empty field negated).spellings .field) :
    ∃ p : Predicate, p.tokens = ts ∧ p.query? = some (.empty field negated) := by
  obtain ⟨t₁, ts₁, rfl, h₁, hts₁⟩ := List.map_eq_cons_iff.mp hts
  obtain ⟨t₂, ts₂, rfl, h₂, hts₂⟩ := List.map_eq_cons_iff.mp hts₁
  obtain ⟨nots, ts₃, rfl, hnots, hts₃⟩ := List.map_eq_append_iff.mp hts₂
  obtain ⟨t₃, ts₄, rfl, h₃, hts₄⟩ := List.map_eq_cons_iff.mp hts₃
  obtain ⟨name, rfl, hname⟩ := exists_name h₁
  obtain ⟨isWord, rfl, _⟩ := exists_terminal h₂
  obtain ⟨word, rfl, _⟩ := exists_terminal h₃
  have hnil : ts₄ = [] := List.map_eq_nil_iff.mp hts₄
  cases negated with
  | false =>
      refine ⟨.isEmpty name isWord word, ?_, ?_⟩
      · rw [hnil, List.map_eq_nil_iff.mp hnots]
        rfl
      · exact query?_of_resolve _ hname
  | true =>
      obtain ⟨t₀, ts₀, rfl, h₀, hts₀⟩ := List.map_eq_cons_iff.mp hnots
      obtain ⟨notWord, rfl, _⟩ := exists_terminal h₀
      refine ⟨.isNotEmpty name isWord notWord word, ?_, ?_⟩
      · rw [hnil, List.map_eq_nil_iff.mp hts₀]
        rfl
      · exact query?_of_resolve _ hname

/-- The tokens of two operands in parentheses. -/
theorem exists_group {k : TokenKind} {text : Text} {ls rs : List (TokenKind × Text)}
    {ts : List Token} (hts : ts.map Token.spelling = groupSpellings (k, text) ls rs) :
    ∃ (opens : Terminal .openParen) (word : Terminal k) (closes : Terminal .closeParen)
      (left right : List Token), ts = opens.1 :: (left ++ word.1 :: (right ++ [closes.1])) ∧
        left.map Token.spelling = ls ∧ right.map Token.spelling = rs := by
  obtain ⟨t₁, ts₁, rfl, h₁, hts₁⟩ := List.map_eq_cons_iff.mp hts
  obtain ⟨left, ts₂, rfl, hleft, hts₂⟩ := List.map_eq_append_iff.mp hts₁
  obtain ⟨t₂, ts₃, rfl, h₂, hts₃⟩ := List.map_eq_cons_iff.mp hts₂
  obtain ⟨right, ts₄, rfl, hright, hts₄⟩ := List.map_eq_append_iff.mp hts₃
  obtain ⟨t₃, ts₅, rfl, h₃, hts₅⟩ := List.map_eq_cons_iff.mp hts₄
  obtain ⟨opens, rfl, _⟩ := exists_terminal h₁
  obtain ⟨word, rfl, _⟩ := exists_terminal h₂
  obtain ⟨closes, rfl, _⟩ := exists_terminal h₃
  rw [List.map_eq_nil_iff.mp hts₅]
  exact ⟨opens, word, closes, left, right, rfl, hleft, hright⟩

/-- Tokens that are spelled as a proper query have a derivation of it, as a single operand. -/
theorem exists_unary {q : Query} (hq : q.Proper) {ts : List Token}
    (hts : ts.map Token.spelling = q.spellings .field) :
    ∃ u : UnaryExpr, u.tokens = ts ∧ u.query? = some q := by
  induction q generalizing ts with
  | all => exact hq.elim
  | compare field op value =>
      obtain ⟨p, htokens, hquery⟩ := exists_predicate_compare hq hts
      exact ⟨.predicate p, htokens, hquery⟩
  | member field negated values =>
      obtain ⟨p, htokens, hquery⟩ := exists_predicate_member hq hts
      exact ⟨.predicate p, htokens, hquery⟩
  | empty field negated =>
      obtain ⟨p, htokens, hquery⟩ := exists_predicate_empty hts
      exact ⟨.predicate p, htokens, hquery⟩
  | and left right ihl ihr =>
      obtain ⟨opens, word, closes, ls, rs, rfl, hls, hrs⟩ := exists_group hts
      obtain ⟨l, rfl, hl⟩ := ihl hq.1 hls
      obtain ⟨r, rfl, hr⟩ := ihr hq.2 hrs
      refine ⟨.group opens (.mk (.mk l (.more word r .done)) .done) closes, ?_, ?_⟩
      · simp [UnaryExpr.tokens, OrExpr.tokens, OrRest.tokens, AndExpr.tokens, AndRest.tokens]
      · simp [UnaryExpr.query?, OrExpr.query?, OrRest.query?, AndExpr.query?, AndRest.query?, hl,
          hr]
  | or left right ihl ihr =>
      obtain ⟨opens, word, closes, ls, rs, rfl, hls, hrs⟩ := exists_group hts
      obtain ⟨l, rfl, hl⟩ := ihl hq.1 hls
      obtain ⟨r, rfl, hr⟩ := ihr hq.2 hrs
      refine ⟨.group opens (.mk (.mk l .done) (.more word (.mk r .done) .done)) closes, ?_, ?_⟩
      · simp [UnaryExpr.tokens, OrExpr.tokens, OrRest.tokens, AndExpr.tokens, AndRest.tokens]
      · simp [UnaryExpr.query?, OrExpr.query?, OrRest.query?, AndExpr.query?, AndRest.query?, hl,
          hr]
  | not inner ih =>
      obtain ⟨t₁, ts₁, rfl, h₁, hts₁⟩ := List.map_eq_cons_iff.mp hts
      obtain ⟨word, rfl, _⟩ := exists_terminal h₁
      obtain ⟨u, rfl, hu⟩ := ih hq hts₁
      refine ⟨.not word u, rfl, ?_⟩
      rw [UnaryExpr.query?, hu]
      rfl

/-- The tokens of the canonical text of a proper query, the end of the input aside. -/
theorem stream_write {q : Query} (hq : q.Proper) :
    ∃ ts, Token.markFields true false (Token.lexemesFrom 0 0 q.write) = ts ∧
      ts.map Token.spelling = q.spellings .field := by
  have hspells := spells hq Lexeme.separates_nil Token.spells_nil
  rw [List.append_nil, List.append_nil] at hspells
  obtain ⟨raw, hlexes, hraw⟩ := hspells 0
  refine ⟨_, rfl, ?_⟩
  rw [hlexes.lexemesFrom_eq, Token.map_markFields, hraw]
  have hmark := markSpellings_eq hq []
  rwa [List.append_nil, Token.markSpellings, List.append_nil] at hmark

/-- The sentence of a single operand. -/
def alone (u : UnaryExpr) (eof : Terminal .endOfInput) : Sentence :=
  .query (.mk (.mk u .done) .done) eof

theorem tokens_alone (u : UnaryExpr) (eof : Terminal .endOfInput) :
    (alone u eof).tokens = u.tokens ++ [eof.1] := by
  simp [alone, Sentence.tokens, OrExpr.tokens, OrRest.tokens, AndExpr.tokens, AndRest.tokens]

theorem query?_alone (u : UnaryExpr) (eof : Terminal .endOfInput) :
    (alone u eof).query? = u.query? := by
  simp [alone, Sentence.query?, OrExpr.query?, OrRest.query?, AndExpr.query?, AndRest.query?]

/-- What can be written is what its canonical text parses to. -/
theorem parse_write_of_wellFormed {q : Query} (hq : q.WellFormed) : parse q.write = .ok q := by
  have hbody : ∀ t ∈ Token.markFields true false (Token.lexemesFrom 0 0 q.write),
      t.kind ≠ .endOfInput := fun t ht => Token.kind_ne_endOfInput ht
  rcases hq with rfl | hq
  · rfl
  · obtain ⟨ts, hstream, hts⟩ := stream_write hq
    obtain ⟨u, hu, hquery⟩ := exists_unary hq hts
    have heof : (Token.mk .endOfInput [] (Text.byteLength q.write) (Text.byteLength q.write)).kind =
        .endOfInput := rfl
    unfold parse Token.stream
    refine parseTokens_of_sentence (d := alone u ⟨_, heof⟩) heof hbody ?_ ?_
    · rw [tokens_alone, hstream, hu]
    · rw [query?_alone, hquery]

end Query

/-! ### From a derivation to a proper query -/

namespace Grammar

/-- Whether the values among some tokens denote well-formed literals. -/
def WellFormedValues (ts : List Token) : Prop :=
  ∀ t ∈ ts, t.kind.isValue = true → ∀ v, t.literal = .ok v → v.WellFormed

variable {ts ts' : List Token} {q : Query}

theorem WellFormedValues.left (h : WellFormedValues (ts ++ ts')) : WellFormedValues ts :=
  fun t ht => h t (List.mem_append_left ts' ht)

theorem WellFormedValues.right (h : WellFormedValues (ts ++ ts')) : WellFormedValues ts' :=
  fun t ht => h t (List.mem_append_right ts ht)

theorem WellFormedValues.tail {t : Token} (h : WellFormedValues (t :: ts)) : WellFormedValues ts :=
  fun t' ht' => h t' (List.mem_cons_of_mem t ht')

theorem ValueToken.wellFormed {v : ValueToken} (h : WellFormedValues ts) (hv : v.1 ∈ ts)
    {l : Literal} (hl : v.literal? = some l) : l.WellFormed := by
  refine h v.1 hv v.2 l ?_
  unfold ValueToken.literal? at hl
  cases hliteral : v.1.literal with
  | error e =>
      rw [hliteral] at hl
      cases hl
  | ok l' =>
      rw [hliteral] at hl
      exact congrArg Except.ok (Option.some.inj hl)

theorem literals_wellFormed {vs : List ValueToken} (h : WellFormedValues ts)
    (hvs : ∀ v ∈ vs, v.1 ∈ ts) {ls : List Literal} (hls : vs.mapM ValueToken.literal? = some ls) :
    ls.length = vs.length ∧ ∀ l ∈ ls, l.WellFormed := by
  induction vs generalizing ls with
  | nil =>
      cases hls
      exact ⟨rfl, fun l hl => by cases hl⟩
  | cons v vs ih =>
      rw [List.mapM_cons] at hls
      obtain ⟨l, hl, hrest⟩ := Option.bind_eq_some_iff.mp hls
      obtain ⟨ls', hls', heq⟩ := Option.bind_eq_some_iff.mp hrest
      cases heq
      obtain ⟨hlength, hall⟩ := ih (fun w hw => hvs w (List.mem_cons_of_mem _ hw)) hls'
      refine ⟨congrArg Nat.succ hlength, ?_⟩
      intro l' hl'
      rcases List.mem_cons.mp hl' with rfl | hmem
      · exact ValueToken.wellFormed h (hvs v List.mem_cons_self) hl
      · exact hall l' hmem

theorem ValueList.mem_tokens {l : ValueList} {v : ValueToken} (hv : v ∈ l.values) :
    v.1 ∈ l.tokens := by
  unfold ValueList.values at hv
  unfold ValueList.tokens
  rcases List.mem_cons.mp hv with rfl | hrest
  · exact List.mem_cons_of_mem _ List.mem_cons_self
  · obtain ⟨pair, hpair, rfl⟩ := List.mem_map.mp hrest
    refine List.mem_cons_of_mem _ (List.mem_cons_of_mem _ (List.mem_append_left _ ?_))
    unfold ValueList.restTokens
    exact List.mem_flatMap.mpr ⟨pair, hpair, by simp⟩

theorem ValueList.proper {l : ValueList} {f : Field} {negated : Bool} (h : WellFormedValues ts)
    (hl : ∀ t ∈ l.tokens, t ∈ ts)
    (hq : (l.values.mapM ValueToken.literal?).map (Query.member f negated) = some q) :
    q.Proper := by
  obtain ⟨ls, hls, rfl⟩ := Option.map_eq_some_iff.mp hq
  obtain ⟨hlength, hall⟩ := literals_wellFormed h (fun v hv => hl v.1 (mem_tokens hv)) hls
  refine ⟨?_, hall⟩
  rintro rfl
  cases hlength

theorem Predicate.proper {p : Predicate} (h : WellFormedValues p.tokens) (hq : p.query? = some q) :
    q.Proper := by
  obtain ⟨f, _, hq⟩ := Option.bind_eq_some_iff.mp hq
  cases p with
  | compare name sign value =>
      obtain ⟨op, _, hrest⟩ := Option.bind_eq_some_iff.mp hq
      obtain ⟨l, hl, heq⟩ := Option.bind_eq_some_iff.mp hrest
      cases heq
      exact ValueToken.wellFormed h (by simp [Predicate.tokens, Predicate.tail]) hl
  | oneOf name inWord values =>
      refine ValueList.proper h ?_ hq
      intro t ht
      exact List.mem_cons_of_mem _ (List.mem_cons_of_mem _ ht)
  | noneOf name notWord inWord values =>
      refine ValueList.proper h ?_ hq
      intro t ht
      exact List.mem_cons_of_mem _ (List.mem_cons_of_mem _ (List.mem_cons_of_mem _ ht))
  | equalsEmpty _ _ _ | isEmpty _ _ _ | isNotEmpty _ _ _ _ =>
      cases hq
      trivial

mutual

theorem OrExpr.proper : ∀ (e : OrExpr), WellFormedValues e.tokens → ∀ {q}, e.query? = some q →
    q.Proper
  | .mk first rest, h, q, hq => by
      rw [OrExpr.tokens] at h
      rw [OrExpr.query?] at hq
      obtain ⟨left, hleft, hrest⟩ := Option.bind_eq_some_iff.mp hq
      exact rest.proper h.right (first.proper h.left hleft) hrest

theorem OrRest.proper : ∀ (r : OrRest), WellFormedValues r.tokens → ∀ {l q}, l.Proper →
    r.query? l = some q → q.Proper
  | .done, _, left, q, hleft, hq => by
      cases hq
      exact hleft
  | .more word next rest, h, left, q, hleft, hq => by
      rw [OrRest.tokens] at h
      rw [OrRest.query?] at hq
      obtain ⟨right, hright, hrest⟩ := Option.bind_eq_some_iff.mp hq
      exact rest.proper h.tail.right (l := .or left right)
        ⟨hleft, next.proper h.tail.left hright⟩ hrest

theorem AndExpr.proper : ∀ (e : AndExpr), WellFormedValues e.tokens → ∀ {q}, e.query? = some q →
    q.Proper
  | .mk first rest, h, q, hq => by
      rw [AndExpr.tokens] at h
      rw [AndExpr.query?] at hq
      obtain ⟨left, hleft, hrest⟩ := Option.bind_eq_some_iff.mp hq
      exact rest.proper h.right (first.proper h.left hleft) hrest

theorem AndRest.proper : ∀ (r : AndRest), WellFormedValues r.tokens → ∀ {l q}, l.Proper →
    r.query? l = some q → q.Proper
  | .done, _, left, q, hleft, hq => by
      cases hq
      exact hleft
  | .more word next rest, h, left, q, hleft, hq => by
      rw [AndRest.tokens] at h
      rw [AndRest.query?] at hq
      obtain ⟨right, hright, hrest⟩ := Option.bind_eq_some_iff.mp hq
      exact rest.proper h.tail.right (l := .and left right)
        ⟨hleft, next.proper h.tail.left hright⟩ hrest

theorem UnaryExpr.proper : ∀ (u : UnaryExpr), WellFormedValues u.tokens → ∀ {q}, u.query? = some q →
    q.Proper
  | .not word inner, h, q, hq => by
      rw [UnaryExpr.tokens] at h
      rw [UnaryExpr.query?] at hq
      obtain ⟨q', hq', rfl⟩ := Option.map_eq_some_iff.mp hq
      show q'.Proper
      exact inner.proper h.tail hq'
  | .group opens inner closes, h, q, hq => by
      rw [UnaryExpr.tokens] at h
      rw [UnaryExpr.query?] at hq
      exact inner.proper h.tail.left hq
  | .predicate p, h, q, hq => by
      rw [UnaryExpr.tokens] at h
      rw [UnaryExpr.query?] at hq
      exact p.proper h hq

end

end Grammar

namespace Query

/-- What a source parses to can be written. -/
theorem wellFormed_of_parse {s : Text} {q : Query} (h : parse s = .ok q) : q.WellFormed := by
  obtain ⟨d, hd, hq⟩ := exists_sentence_of_parse h
  cases d with
  | empty eof =>
      cases hq
      exact Or.inl rfl
  | query e eof =>
      refine Or.inr (e.proper ?_ hq)
      intro t ht hvalue v hv
      have hmem : t ∈ Token.stream s := by
        rw [← hd]
        exact List.mem_append_left _ ht
      exact Literal.wellFormed_of_mem_stream hmem hvalue hv

/--
**The queries that can be written are those that some source parses to, and each is what its
canonical text parses to.**  So the canonical text of what a source parses to parses to the same.
-/
theorem parse_write (q : Query) :
    (q.WellFormed → parse q.write = .ok q) ∧
      (∀ s : Text, parse s = .ok q → q.WellFormed) ∧
        ∀ s : Text, parse s = .ok q → parse q.write = .ok q :=
  ⟨parse_write_of_wellFormed, fun _ h => wellFormed_of_parse h,
    fun _ h => parse_write_of_wellFormed (wellFormed_of_parse h)⟩

/-- A source with literals of all five kinds, its canonical text, and what both parse to. -/
theorem parse_write_of_literals :
    ∃ q : Query,
      parse ("labels NOT IN (a, \"b c\") and " ++
        "(not points > -1.50 or due <= 2024-02-29) AND updated > -3d") = .ok q ∧
      q.write = "((labels NOT IN (a, \"b c\") AND " ++
        "(NOT storyPoints > -1.50 OR dueDate <= 2024-02-29)) AND updated > -3d)" ∧
      q.WellFormed ∧ parse q.write = .ok q :=
  have hsource :
      parse ("labels NOT IN (a, \"b c\") and " ++
        "(not points > -1.50 or due <= 2024-02-29) AND updated > -3d") = .ok _ := rfl
  have hwell := (parse_write _).2.1 _ hsource
  ⟨_, hsource, by decide +kernel, hwell, (parse_write _).1 hwell⟩

end Query

end TicketSearch
