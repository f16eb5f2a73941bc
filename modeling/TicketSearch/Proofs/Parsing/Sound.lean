/-
What has been read is the left part of a derivation.

What is pending in a state of the parser stands for the left part of a derivation:
`Pending` holds, for one depth of parentheses, the derivations of the left operands and
the `NOT`s that have been read, and `OperandSoFar` the tokens of the predicate being
read.  `Reads s ts` says that the tokens `ts` are made up so.  Every transition keeps it,
and where a query is complete it gives a derivation of what has been read.
-/
import TicketSearch.Proofs.Parsing.Complete

namespace TicketSearch

namespace Grammar

open ParserState

/-! ### A chain with one more operand -/

/-- A tail of an `OR` chain with one more operand. -/
def OrRest.snoc : OrRest → Terminal .orWord → AndExpr → OrRest
  | .done, word, next => .more word next .done
  | .more word' next' rest, word, next => .more word' next' (rest.snoc word next)

/-- An `OR` chain with one more operand. -/
def OrExpr.snoc : OrExpr → Terminal .orWord → AndExpr → OrExpr
  | .mk first rest, word, next => .mk first (rest.snoc word next)

/-- A tail of an `AND` chain with one more operand. -/
def AndRest.snoc : AndRest → Terminal .andWord → UnaryExpr → AndRest
  | .done, word, next => .more word next .done
  | .more word' next' rest, word, next => .more word' next' (rest.snoc word next)

/-- An `AND` chain with one more operand. -/
def AndExpr.snoc : AndExpr → Terminal .andWord → UnaryExpr → AndExpr
  | .mk first rest, word, next => .mk first (rest.snoc word next)

theorem OrRest.tokens_snoc (word : Terminal .orWord) (next : AndExpr) :
    ∀ r : OrRest, (r.snoc word next).tokens = r.tokens ++ word.1 :: next.tokens
  | .done => by simp [OrRest.snoc, OrRest.tokens]
  | .more word' next' rest => by
      simp [OrRest.snoc, OrRest.tokens, OrRest.tokens_snoc word next rest]

theorem OrExpr.tokens_snoc (e : OrExpr) (word : Terminal .orWord) (next : AndExpr) :
    (e.snoc word next).tokens = e.tokens ++ word.1 :: next.tokens := by
  obtain ⟨first, rest⟩ := e
  rw [OrExpr.snoc, OrExpr.tokens, OrExpr.tokens, rest.tokens_snoc word next, List.append_assoc]

theorem AndRest.tokens_snoc (word : Terminal .andWord) (next : UnaryExpr) :
    ∀ r : AndRest, (r.snoc word next).tokens = r.tokens ++ word.1 :: next.tokens
  | .done => by simp [AndRest.snoc, AndRest.tokens]
  | .more word' next' rest => by
      simp [AndRest.snoc, AndRest.tokens, AndRest.tokens_snoc word next rest]

theorem AndExpr.tokens_snoc (e : AndExpr) (word : Terminal .andWord) (next : UnaryExpr) :
    (e.snoc word next).tokens = e.tokens ++ word.1 :: next.tokens := by
  obtain ⟨first, rest⟩ := e
  rw [AndExpr.snoc, AndExpr.tokens, AndExpr.tokens, rest.tokens_snoc word next, List.append_assoc]

theorem OrRest.query?_snoc (word : Terminal .orWord) {next : AndExpr} {right : Query}
    (h : next.query? = some right) : ∀ (r : OrRest) {left q : Query},
      r.query? left = some q → (r.snoc word next).query? left = some (.or q right)
  | .done, left, q, hr => by
      obtain rfl : left = q := by simpa [OrRest.query?] using hr
      simp [OrRest.snoc, OrRest.query?, h]
  | .more _ next' rest, left, q, hr => by
      obtain ⟨q', hnext, hrest⟩ := Option.bind_eq_some_iff.mp hr
      rw [OrRest.snoc, OrRest.query?, hnext]
      exact rest.query?_snoc word h hrest

theorem OrExpr.query?_snoc {e : OrExpr} {next : AndExpr} {left right : Query}
    (he : e.query? = some left) (word : Terminal .orWord) (h : next.query? = some right) :
    (e.snoc word next).query? = some (.or left right) := by
  obtain ⟨first, rest⟩ := e
  obtain ⟨q, hfirst, hrest⟩ := Option.bind_eq_some_iff.mp he
  rw [OrExpr.snoc, OrExpr.query?, hfirst]
  exact rest.query?_snoc word h hrest

theorem AndRest.query?_snoc (word : Terminal .andWord) {next : UnaryExpr} {right : Query}
    (h : next.query? = some right) : ∀ (r : AndRest) {left q : Query},
      r.query? left = some q → (r.snoc word next).query? left = some (.and q right)
  | .done, left, q, hr => by
      obtain rfl : left = q := by simpa [AndRest.query?] using hr
      simp [AndRest.snoc, AndRest.query?, h]
  | .more _ next' rest, left, q, hr => by
      obtain ⟨q', hnext, hrest⟩ := Option.bind_eq_some_iff.mp hr
      rw [AndRest.snoc, AndRest.query?, hnext]
      exact rest.query?_snoc word h hrest

theorem AndExpr.query?_snoc {e : AndExpr} {next : UnaryExpr} {left right : Query}
    (he : e.query? = some left) (word : Terminal .andWord) (h : next.query? = some right) :
    (e.snoc word next).query? = some (.and left right) := by
  obtain ⟨first, rest⟩ := e
  obtain ⟨q, hfirst, hrest⟩ := Option.bind_eq_some_iff.mp he
  rw [AndExpr.snoc, AndExpr.query?, hfirst]
  exact rest.query?_snoc word h hrest

/-! ### What is pending is the left part of a derivation -/

/-- What has been read at one depth of parentheses to the left of an operand. -/
structure Pending where
  /-- The left operand of an `OR`, and the `OR`. -/
  alternatives : Option (OrExpr × Terminal .orWord)
  /-- The left operand of an `AND`, and the `AND`. -/
  conjuncts : Option (AndExpr × Terminal .andWord)
  /-- The `NOT`s before the operand. -/
  negations : List (Terminal .notWord)

namespace Pending

/-- Nothing is pending. -/
def fresh : Pending := ⟨none, none, []⟩

/-- The tokens up to a pending `OR`. -/
def orTokens (alternatives : Option (OrExpr × Terminal .orWord)) : List Token :=
  alternatives.elim [] fun a => a.1.tokens ++ [a.2.1]

/-- The tokens from there up to a pending `AND`. -/
def andTokens (conjuncts : Option (AndExpr × Terminal .andWord)) : List Token :=
  conjuncts.elim [] fun c => c.1.tokens ++ [c.2.1]

def tokens (w : Pending) : List Token :=
  orTokens w.alternatives ++ (andTokens w.conjuncts ++ w.negations.map Subtype.val)

/-- The queries that a level of the parser holds are those of the derivations. -/
structure Denotes (w : Pending) (l : Level) : Prop where
  alternatives : w.alternatives.map (fun a => a.1.query?) = l.alternatives.map some
  conjuncts : w.conjuncts.map (fun c => c.1.query?) = l.conjuncts.map some
  negations : w.negations.length = l.negations

theorem fresh_denotes : fresh.Denotes .fresh := ⟨rfl, rfl, rfl⟩

/-- An operand under pending `NOT`s. -/
def unary (negations : List (Terminal .notWord)) (u : UnaryExpr) : UnaryExpr :=
  negations.foldr UnaryExpr.not u

theorem tokens_unary (negations : List (Terminal .notWord)) (u : UnaryExpr) :
    (unary negations u).tokens = negations.map Subtype.val ++ u.tokens := by
  induction negations with
  | nil => rfl
  | cons word rest ih =>
      show word.1 :: (unary rest u).tokens = _
      rw [ih, List.map_cons, List.cons_append]

theorem query?_unary {u : UnaryExpr} {q : Query} (h : u.query? = some q)
    (negations : List (Terminal .notWord)) :
    (unary negations u).query? = some (Level.negate negations.length q) := by
  induction negations with
  | nil => exact h
  | cons word rest ih =>
      show (unary rest u).query?.map Query.not = _
      rw [ih]
      rfl

/-- The `AND` chain that an operand completes. -/
def andExpr (w : Pending) (u : UnaryExpr) : AndExpr :=
  match w.conjuncts with
  | none => .mk (unary w.negations u) .done
  | some (left, word) => left.snoc word (unary w.negations u)

theorem tokens_andExpr (w : Pending) (u : UnaryExpr) :
    orTokens w.alternatives ++ (w.andExpr u).tokens = w.tokens ++ u.tokens := by
  obtain ⟨alternatives, conjuncts, negations⟩ := w
  cases conjuncts with
  | none =>
      simp [andExpr, tokens, andTokens, AndExpr.tokens, AndRest.tokens, tokens_unary]
  | some c =>
      simp [andExpr, tokens, andTokens, AndExpr.tokens_snoc, tokens_unary]

theorem query?_andExpr {w : Pending} {l : Level} (hw : w.Denotes l) {u : UnaryExpr} {q : Query}
    (h : u.query? = some q) : (w.andExpr u).query? = some (l.chain q) := by
  obtain ⟨alternatives, conjuncts, negations⟩ := w
  obtain ⟨-, hconj, hneg⟩ := hw
  have hunary := query?_unary h negations
  simp only at hconj hneg
  cases conjuncts with
  | none =>
      have hl : l.conjuncts = none := by simpa using hconj.symm
      simp only [andExpr, AndExpr.query?, hunary, Level.chain, hl, ← hneg]
      rfl
  | some c =>
      obtain ⟨left, hl, hleft⟩ := Option.map_eq_some_iff.mp hconj.symm
      rw [andExpr, AndExpr.query?_snoc hleft.symm c.2 hunary]
      simp only [Level.chain, hl, ← hneg]

/-- The `OR` chain that an `AND` chain completes. -/
def orExpr (alternatives : Option (OrExpr × Terminal .orWord)) (a : AndExpr) : OrExpr :=
  match alternatives with
  | none => .mk a .done
  | some (left, word) => left.snoc word a

theorem tokens_orExpr (alternatives : Option (OrExpr × Terminal .orWord)) (a : AndExpr) :
    (orExpr alternatives a).tokens = orTokens alternatives ++ a.tokens := by
  cases alternatives with
  | none => simp [orExpr, orTokens, OrExpr.tokens, OrRest.tokens]
  | some left => simp [orExpr, orTokens, OrExpr.tokens_snoc]

theorem query?_orExpr {alternatives : Option (OrExpr × Terminal .orWord)} {l : Level}
    (hl : alternatives.map (fun a => a.1.query?) = l.alternatives.map some) {a : AndExpr}
    {c : Query} (h : a.query? = some c) : (orExpr alternatives a).query? = some (l.total c) := by
  cases alternatives with
  | none =>
      have hnone : l.alternatives = none := by simpa using hl.symm
      simp only [orExpr, OrExpr.query?, h, Level.total, hnone]
      rfl
  | some left =>
      obtain ⟨q, hq, hleft⟩ := Option.map_eq_some_iff.mp hl.symm
      rw [orExpr, OrExpr.query?_snoc hleft.symm left.2 h]
      simp only [Level.total, hq]

end Pending

/-! ### What is read of a predicate -/

/-- The words between the name of a field and a list. -/
inductive MemberWords : Bool → List Token → Prop
  | plain (inWord : Terminal .inWord) : MemberWords false [inWord.1]
  | negated (notWord : Terminal .notWord) (inWord : Terminal .inWord) :
      MemberWords true [notWord.1, inWord.1]

/-- The beginning of a list, after which a comma or the parenthesis is due. -/
inductive ListSoFar : List Literal → List Token → Prop
  | mk (opening : Terminal .openParen) (first : ValueToken)
      (rest : List (Terminal .comma × ValueToken)) {values : List Literal}
      (h : (first :: rest.map Prod.snd).mapM ValueToken.literal? = some values) :
      ListSoFar values (opening.1 :: first.1 :: ValueList.restTokens rest)

/-- The tokens of a predicate, its name apart, that lead to a phase. -/
inductive TailSoFar : Phase → List Token → Prop
  | field (f : Field) (name : Text) : TailSoFar (.afterField f name) []
  | operator {f : Field} {op : Comparison} (sign : Terminal .operator)
      (h : Comparison.ofSymbol? sign.1.text = some op) : TailSoFar (.afterOperator f op) [sign.1]
  | notWord {f : Field} (word : Terminal .notWord) : TailSoFar (.afterNot f) [word.1]
  | words {f : Field} {negated : Bool} {position : Nat} {ws : List Token}
      (h : MemberWords negated ws) :
      TailSoFar (.afterIn f negated position) ws
  | opened {f : Field} {negated : Bool} {position : Nat} {ws : List Token}
      (h : MemberWords negated ws) (opening : Terminal .openParen) :
      TailSoFar (.listStart f negated position) (ws ++ [opening.1])
  | value {f : Field} {negated : Bool} {values : List Literal} {ws ts : List Token}
      (h : MemberWords negated ws) (hl : ListSoFar values ts) :
      TailSoFar (.listNext f negated values) (ws ++ ts)
  | comma {f : Field} {negated : Bool} {values : List Literal} {ws ts : List Token} {text : Text}
      (h : MemberWords negated ws) (hl : ListSoFar values ts) (comma : Terminal .comma) :
      TailSoFar (.listValue f negated values text) (ws ++ ts ++ [comma.1])
  | isWord {f : Field} (word : Terminal .isWord) : TailSoFar (.afterIs f) [word.1]
  | isNot {f : Field} (isWord : Terminal .isWord) (notWord : Terminal .notWord) :
      TailSoFar (.afterIsNot f) [isWord.1, notWord.1]

/-- The field that a phase of a predicate is about. -/
def phaseField? : Phase → Option Field
  | .start | .operand | .group _ | .complete _ => none
  | .afterField f _ | .afterOperator f _ | .afterNot f | .afterIn f _ _ | .listStart f _ _ |
    .listValue f _ _ _ | .listNext f _ _ | .afterIs f | .afterIsNot f => some f

/-- The tokens read since an operand became due. -/
inductive OperandSoFar : Phase → List Token → Prop
  | due {p : Phase} (h : p.Due) : OperandSoFar p []
  | predicate {p : Phase} {ts : List Token} {f : Field} (name : Terminal .field)
      (known : Field.resolve? name.1.text = some f) (hp : phaseField? p = some f)
      (h : TailSoFar p ts) : OperandSoFar p (name.1 :: ts)

theorem ListSoFar.snoc {values : List Literal} {ts : List Token} (h : ListSoFar values ts)
    (comma : Terminal .comma) (v : ValueToken) {l : Literal} (hl : v.literal? = some l) :
    ListSoFar (values ++ [l]) (ts ++ [comma.1, v.1]) := by
  cases h with
  | mk opening first rest hvalues =>
      have hmore : (first :: (rest ++ [(comma, v)]).map Prod.snd).mapM ValueToken.literal? =
          some (values ++ [l]) := by
        rw [List.map_append, ← List.cons_append, List.mapM_append, hvalues]
        simp [hl]
      have htokens : opening.1 :: first.1 :: ValueList.restTokens rest ++ [comma.1, v.1] =
          opening.1 :: first.1 :: ValueList.restTokens (rest ++ [(comma, v)]) := by
        simp [ValueList.restTokens]
      rw [htokens]
      exact .mk opening first (rest ++ [(comma, v)]) hmore

theorem literal?_of_ok {t : Token} (kind : t.kind.isValue = true) {l : Literal}
    (h : t.literal = .ok l) : ValueToken.literal? ⟨t, kind⟩ = some l := by
  simp only [ValueToken.literal?, h, Except.toOption]

theorem TailSoFar.advance {p p' : Phase} {t : Token} {ts : List Token} (hp : p.Advances t p')
    (h : TailSoFar p ts) : TailSoFar p' (ts ++ [t]) := by
  cases hp with
  | field due _ _ => cases h <;> exact due.elim
  | operator kind known =>
      cases h
      exact .operator ⟨t, kind⟩ known
  | inWord kind =>
      cases h
      exact .words (.plain ⟨t, kind⟩)
  | notWord kind =>
      cases h
      exact .notWord ⟨t, kind⟩
  | isWord kind =>
      cases h
      exact .isWord ⟨t, kind⟩
  | inAfterNot kind =>
      cases h with
      | notWord word => exact .words (.negated word ⟨t, kind⟩)
  | listOpens kind =>
      cases h with
      | words hw => exact .opened hw ⟨t, kind⟩
  | firstValue kind readable =>
      cases h with
      | opened hw opening =>
          rw [List.append_assoc]
          exact .value hw (.mk opening ⟨t, kind⟩ [] (by simp [literal?_of_ok kind readable]))
  | nextValue kind readable =>
      cases h with
      | comma hw hl comma =>
          rw [List.append_assoc, List.append_assoc]
          exact .value hw (hl.snoc comma ⟨t, kind⟩ (literal?_of_ok kind readable))
  | comma kind =>
      cases h with
      | value hw hl => exact .comma hw hl ⟨t, kind⟩
  | notAfterIs kind =>
      cases h with
      | isWord word => exact .isNot word ⟨t, kind⟩

theorem TailSoFar.finish {p : Phase} {q : Query} {t : Token} {ts : List Token} {f : Field}
    (hp : p.Finishes t q) (h : TailSoFar p ts) (hf : phaseField? p = some f)
    (name : Terminal .field) :
    ∃ pr : Predicate, pr.field = name ∧ pr.tail = ts ++ [t] ∧ pr.queryOn? f = some q := by
  cases hp with
  | value kind readable =>
      cases h with
      | operator sign hsign =>
          cases hf
          refine ⟨.compare name sign ⟨t, kind⟩, rfl, rfl, ?_⟩
          simp [Predicate.queryOn?, hsign, literal?_of_ok kind readable]
  | equalsEmpty kind =>
      cases h with
      | operator sign hsign =>
          cases hf
          have htext : sign.1.text = Comparison.eq.symbol := Comparison.text_of_ofSymbol? hsign
          refine ⟨.equalsEmpty name ⟨sign.1, sign.2, Or.inl htext⟩ ⟨t, kind⟩, rfl, rfl, ?_⟩
          simp only [Predicate.queryOn?, htext]
          rfl
  | differsFromEmpty kind =>
      cases h with
      | operator sign hsign =>
          cases hf
          have htext : sign.1.text = Comparison.notEq.symbol := Comparison.text_of_ofSymbol? hsign
          refine ⟨.equalsEmpty name ⟨sign.1, sign.2, Or.inr htext⟩ ⟨t, kind⟩, rfl, rfl, ?_⟩
          simp only [Predicate.queryOn?, htext]
          rfl
  | listCloses kind =>
      cases h with
      | value hw hl =>
          cases hf
          obtain ⟨opening, first, rest, hvalues⟩ := hl
          cases hw with
          | plain inWord =>
              exact ⟨.oneOf name inWord ⟨opening, first, rest, ⟨t, kind⟩⟩, rfl, rfl,
                by simp [Predicate.queryOn?, ValueList.values, hvalues]⟩
          | negated notWord inWord =>
              exact ⟨.noneOf name notWord inWord ⟨opening, first, rest, ⟨t, kind⟩⟩, rfl, rfl,
                by simp [Predicate.queryOn?, ValueList.values, hvalues]⟩
  | isEmpty kind =>
      cases h with
      | isWord word =>
          cases hf
          exact ⟨.isEmpty name word ⟨t, kind⟩, rfl, rfl, rfl⟩
  | isNotEmpty kind =>
      cases h with
      | isNot isWord notWord =>
          cases hf
          exact ⟨.isNotEmpty name isWord notWord ⟨t, kind⟩, rfl, rfl, rfl⟩

/-! ### What has been read is the left part of a derivation -/

/-- The tokens up to the innermost open parenthesis. -/
def OuterReads : List Level → List Token → Prop
  | [], ts => ts = []
  | l :: o, ts =>
    ∃ (before : List Token) (w : Pending) (opening : Terminal .openParen),
      ts = before ++ (w.tokens ++ [opening.1]) ∧ w.Denotes l ∧ OuterReads o before

/-- The tokens that have been read in a state. -/
inductive Reads : ParserState → List Token → Prop
  | operand {p : Phase} {l : Level} {o : List Level} {before here : List Token} {w : Pending}
      (ho : OuterReads o before) (hw : w.Denotes l) (hp : OperandSoFar p here) :
      Reads ⟨p, l, o⟩ (before ++ (w.tokens ++ here))
  | complete {c : Query} {l : Level} {o : List Level} {before : List Token}
      {alternatives : Option (OrExpr × Terminal .orWord)} {a : AndExpr}
      (ho : OuterReads o before)
      (hl : alternatives.map (fun e => e.1.query?) = l.alternatives.map some)
      (hc : a.query? = some c) :
      Reads ⟨.complete c, l, o⟩ (before ++ (Pending.orTokens alternatives ++ a.tokens))

theorem reads_initial : Reads .initial [] := by
  have h : Reads .initial ([] ++ (Pending.fresh.tokens ++ [])) :=
    .operand rfl Pending.fresh_denotes (.due trivial)
  exact h

theorem OperandSoFar.eq_nil_of_due {p : Phase} {ts : List Token} (h : OperandSoFar p ts)
    (due : p.Due) : ts = [] := by
  cases h with
  | due _ => rfl
  | predicate name known hp h => cases h <;> exact due.elim

theorem OperandSoFar.advance {p p' : Phase} {t : Token} {ts : List Token} (hp : p.Advances t p')
    (h : OperandSoFar p ts) : OperandSoFar p' (ts ++ [t]) := by
  cases h with
  | due due =>
      cases hp with
      | field _ kind known => exact .predicate ⟨t, kind⟩ known rfl (.field _ _)
      | _ => exact due.elim
  | predicate name known hf h =>
      rw [List.cons_append]
      refine .predicate name known ?_ (h.advance hp)
      cases hp with
      | field due _ _ => cases h <;> exact due.elim
      | _ => exact hf

theorem OperandSoFar.finish {p : Phase} {q : Query} {t : Token} {ts : List Token}
    (hp : p.Finishes t q) (h : OperandSoFar p ts) :
    ∃ pr : Predicate, pr.tokens = ts ++ [t] ∧ pr.query? = some q := by
  cases h with
  | due due => cases hp <;> exact due.elim
  | predicate name known hf h =>
      obtain ⟨pr, rfl, htail, hq⟩ := h.finish hp hf name
      refine ⟨pr, by rw [Predicate.tokens, htail, List.cons_append], ?_⟩
      rw [Predicate.query?, known]
      exact hq

theorem Reads.of_complete {c : Query} {l : Level} {o : List Level} {ts : List Token}
    (h : Reads ⟨.complete c, l, o⟩ ts) :
    ∃ (before : List Token) (alternatives : Option (OrExpr × Terminal .orWord)) (a : AndExpr),
      ts = before ++ (Pending.orTokens alternatives ++ a.tokens) ∧ OuterReads o before ∧
        alternatives.map (fun e => e.1.query?) = l.alternatives.map some ∧ a.query? = some c := by
  cases h with
  | operand ho hw here =>
      cases here with
      | due due => exact due.elim
      | predicate _ _ hf _ => cases hf
  | complete ho hl hc => exact ⟨_, _, _, rfl, ho, hl, hc⟩

/-- An operand that is complete in its place. -/
theorem reads_complete {l : Level} {o : List Level} {before : List Token} {w : Pending}
    {u : UnaryExpr} {q : Query} (ho : OuterReads o before) (hw : w.Denotes l)
    (hu : u.query? = some q) (l' : Level) (hl' : l'.alternatives = l.alternatives) :
    Reads ⟨.complete (l.chain q), l', o⟩ (before ++ (w.tokens ++ u.tokens)) := by
  rw [← w.tokens_andExpr u]
  exact .complete ho (by rw [hl']; exact hw.alternatives) (Pending.query?_andExpr hw hu)

theorem Reads.shift {s s' : ParserState} {t : Token} {ts : List Token} (hs : Shift s t s')
    (h : Reads s ts) : Reads s' (ts ++ [t]) := by
  cases hs with
  | @not p l o _ due kind =>
      cases h with
      | @operand _ _ _ before here w ho hw hp =>
          obtain rfl := hp.eq_nil_of_due due
          have hw' : Pending.Denotes ⟨w.alternatives, w.conjuncts, w.negations ++ [⟨t, kind⟩]⟩
              { l with negations := l.negations + 1 } :=
            ⟨hw.alternatives, hw.conjuncts, by simp [hw.negations]⟩
          have hread := Reads.operand ho hw' (.due (p := .operand) trivial)
          simpa [Pending.tokens] using hread
      | complete => exact due.elim
  | @group p l o _ due kind =>
      cases h with
      | @operand _ _ _ before here w ho hw hp =>
          obtain rfl := hp.eq_nil_of_due due
          have houter : OuterReads (l :: o) (before ++ (w.tokens ++ [t])) :=
            ⟨before, w, ⟨t, kind⟩, rfl, hw, ho⟩
          have hread :=
            Reads.operand houter Pending.fresh_denotes (.due (p := .group t.start) trivial)
          simpa [Pending.fresh, Pending.tokens, Pending.orTokens, Pending.andTokens] using hread
      | complete => exact due.elim
  | advance hp =>
      cases h with
      | operand ho hw here =>
          rw [List.append_assoc, List.append_assoc]
          exact .operand ho hw (here.advance hp)
      | complete =>
          cases hp with
          | field due _ _ => exact due.elim
  | finish hp =>
      cases h with
      | operand ho hw here =>
          obtain ⟨pr, htokens, hq⟩ := here.finish hp
          rw [List.append_assoc, List.append_assoc, ← htokens]
          exact reads_complete (u := .predicate pr) ho hw hq _ rfl
      | complete => cases hp
  | @and c l o _ kind =>
      obtain ⟨before, alternatives, a, rfl, ho, hl, hc⟩ := h.of_complete
      have hw' : Pending.Denotes ⟨alternatives, some (a, ⟨t, kind⟩), []⟩
          ⟨l.alternatives, some c, 0⟩ := ⟨hl, by simp [hc], rfl⟩
      have hread := Reads.operand ho hw' (.due (p := .operand) trivial)
      simpa [Pending.tokens, Pending.andTokens] using hread
  | @or c l o _ kind =>
      obtain ⟨before, alternatives, a, rfl, ho, hl, hc⟩ := h.of_complete
      have hw' : Pending.Denotes ⟨some (Pending.orExpr alternatives a, ⟨t, kind⟩), none, []⟩
          ⟨some (l.total c), none, 0⟩ := ⟨by simp [Pending.query?_orExpr hl hc], rfl, rfl⟩
      have hread := Reads.operand ho hw' (.due (p := .operand) trivial)
      simpa [Pending.tokens, Pending.andTokens, Pending.orTokens, Pending.tokens_orExpr] using hread
  | @close c l outside o _ kind =>
      obtain ⟨before, alternatives, a, rfl, ho, hl, hc⟩ := h.of_complete
      obtain ⟨before', w, opening, rfl, hw, ho'⟩ := ho
      have hread := reads_complete
        (u := .group opening (Pending.orExpr alternatives a) ⟨t, kind⟩) ho' hw
        (Pending.query?_orExpr hl hc) outside rfl
      simpa [UnaryExpr.tokens, Pending.tokens_orExpr] using hread

/-- Reading keeps the correspondence between a state and what has been read. -/
theorem Reads.shiftAll {s s' : ParserState} {ts us : List Token} (h : Reads s ts)
    (hus : s.shiftAll us = some s') : Reads s' (ts ++ us) := by
  induction us generalizing s ts with
  | nil =>
      cases hus
      rwa [List.append_nil]
  | cons t us ih =>
      obtain ⟨next, hshift, hrest⟩ := shiftAll_cons_eq_some_iff.mp hus
      have hread := ih (h.shift hshift) hrest
      rwa [List.append_assoc, List.singleton_append] at hread

/-- The parser never comes back to where nothing has been read. -/
theorem eq_nil_of_phase_start {s s' : ParserState} {ts : List Token} (h : s.shiftAll ts = some s')
    (hs' : s'.phase = .start) : ts = [] := by
  induction ts generalizing s with
  | nil => rfl
  | cons t ts ih =>
      obtain ⟨next, hshift, hrest⟩ := shiftAll_cons_eq_some_iff.mp h
      obtain rfl := ih hrest
      cases hrest
      cases hshift with
      | advance hp => cases hp <;> cases hs'
      | _ => cases hs'

/-- Where a query is complete, an expression has been read. -/
theorem Reads.total {s : ParserState} {ts : List Token} {q : Query} (h : Reads s ts)
    (hq : s.total? = some q) (hs : s.phase ≠ .start) :
    ∃ e : OrExpr, e.tokens = ts ∧ e.query? = some q := by
  obtain ⟨p, l, o⟩ := s
  cases p with
  | start => exact absurd rfl hs
  | complete c =>
      obtain ⟨before, alternatives, a, rfl, ho, hl, hc⟩ := h.of_complete
      cases o with
      | nil =>
          obtain rfl : before = [] := ho
          refine ⟨Pending.orExpr alternatives a, Pending.tokens_orExpr alternatives a, ?_⟩
          rw [Pending.query?_orExpr hl hc]
          exact hq
      | cons outside o => simp [total?] at hq
  | _ => simp [total?] at hq

end Grammar

end TicketSearch
