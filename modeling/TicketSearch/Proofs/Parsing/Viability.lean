/-
What can still become a query.

Some tokens are viable when others behind them make a query of the whole.  What the parser has
read is viable, as from every state that it is left in there is a way to a complete query; with
a token that it rejects it is not, as nothing can follow that.

The way from a state has two parts.  `Phase.ending` completes the operand that is being read,
with one or a few tokens for each phase; after it a closing parenthesis for each one that is
open completes the query.
-/
import TicketSearch.Proofs.Transition

namespace TicketSearch

/-- A token of some kind and text, wherever it stands. -/
def Token.loose (kind : TokenKind) (text : Text) : Token :=
  ⟨kind, text, 0, 0⟩

/-- Tokens that complete the operand being read. -/
def Phase.ending : Phase → List Token
  | start | operand | group _ =>
    [.loose .field "status", .loose .isWord "IS", .loose .emptyWord "EMPTY"]
  | afterField _ _ => [.loose .isWord "IS", .loose .emptyWord "EMPTY"]
  | afterOperator _ _ => [.loose .value "x"]
  | afterNot _ =>
    [.loose .inWord "IN", .loose .openParen "(", .loose .value "x", .loose .closeParen ")"]
  | afterIn _ _ _ => [.loose .openParen "(", .loose .value "x", .loose .closeParen ")"]
  | listStart _ _ _ | listValue _ _ _ _ => [.loose .value "x", .loose .closeParen ")"]
  | listNext _ _ _ => [.loose .closeParen ")"]
  | afterIs _ | afterIsNot _ => [.loose .emptyWord "EMPTY"]
  | complete _ => []

namespace ParserState

variable {s s' : ParserState} {t : Token} {ts : List Token}

/-! ### Every state can be completed -/

theorem shiftAll_due_ending {p : Phase} (due : p.Due) (l : Level) (o : List Level) :
    ∃ c, shiftAll ⟨p, l, o⟩ (Phase.ending .start) = some ⟨.complete c, l, o⟩ := by
  have hknown : Field.resolve? "status" = some .status := by decide +kernel
  refine ⟨l.chain (.empty .status false), ?_⟩
  apply (shiftAll_cons (.advance (.field due rfl hknown)) _).trans
  apply (shiftAll_cons (.advance (.isWord rfl)) _).trans
  exact shiftAll_cons (.finish (.isEmpty rfl)) []

/-- The operand that is being read can be completed. -/
theorem shiftAll_ending (p : Phase) (l : Level) (o : List Level) :
    ∃ c, shiftAll ⟨p, l, o⟩ p.ending = some ⟨.complete c, l, o⟩ := by
  cases p with
  | start => exact shiftAll_due_ending (p := .start) trivial l o
  | operand => exact shiftAll_due_ending (p := .operand) trivial l o
  | group paren => exact shiftAll_due_ending (p := .group paren) trivial l o
  | afterField f name | afterOperator f op | afterNot f | afterIn f negated inWord
  | listStart f negated inWord | listValue f negated values comma | listNext f negated values
  | afterIs f | afterIsNot f | complete c => exact ⟨_, rfl⟩

/-- Behind a complete operand the parentheses that are open can be closed. -/
theorem shiftAll_closing (c : Query) (l : Level) (o : List Level) :
    ∃ c' l', shiftAll ⟨.complete c, l, o⟩ (List.replicate o.length (.loose .closeParen ")")) =
      some ⟨.complete c', l', []⟩ := by
  induction o generalizing c l with
  | nil => exact ⟨c, l, rfl⟩
  | cons outside o ih =>
      obtain ⟨c', l', h⟩ := ih (outside.chain (l.total c)) outside
      refine ⟨c', l', ?_⟩
      rw [List.length_cons, List.replicate_succ]
      apply (shiftAll_cons (.close rfl) _).trans
      exact h

/-- **From every state of the parser some tokens lead to a complete query.** -/
theorem exists_shiftAll_total (s : ParserState) :
    ∃ more s' q, s.shiftAll more = some s' ∧ s'.total? = some q := by
  obtain ⟨p, l, o⟩ := s
  obtain ⟨c, hending⟩ := shiftAll_ending p l o
  obtain ⟨c', l', hclosing⟩ := shiftAll_closing c l o
  refine ⟨p.ending ++ List.replicate o.length (.loose .closeParen ")"), ⟨.complete c', l', []⟩,
    l'.total c', ?_, rfl⟩
  rw [shiftAll_append_of_eq_some hending]
  exact hclosing

/-- The end of the input is not read. -/
theorem kind_ne_of_shiftAll (h : s.shiftAll ts = some s') : ∀ t ∈ ts, t.kind ≠ .endOfInput := by
  induction ts generalizing s with
  | nil =>
      intro t ht
      cases ht
  | cons u ts ih =>
      intro t ht
      obtain ⟨next, hshift, hrest⟩ := shiftAll_cons_eq_some_iff.mp h
      rcases List.mem_cons.mp ht with rfl | hmem
      · exact hshift.kind_ne.1
      · exact ih hrest t hmem

end ParserState

namespace Query

open ParserState

/-- Whether some tokens make a query together with others behind them. -/
def Viable (ts : List Token) : Prop :=
  ∃ (rest : List Token) (q : Query), (parseTokens (ts ++ rest)).1 = .ok q

variable {s : ParserState} {t : Token} {ts : List Token}

/-- What has been read goes on to a query that ends once. -/
theorem exists_parseTokens_of_shiftAll (h : initial.shiftAll ts = some s) :
    ∃ (more : List Token) (eof : Token) (q : Query), (∀ t ∈ more, t.kind ≠ .endOfInput) ∧
      eof.kind = .endOfInput ∧ (parseTokens (ts ++ (more ++ [eof]))).1 = .ok q := by
  obtain ⟨more, s', q, hmore, htotal⟩ := exists_shiftAll_total s
  have hkinds := kind_ne_of_shiftAll hmore
  refine ⟨more, .loose .endOfInput [], q, hkinds, rfl, ?_⟩
  unfold parseTokens
  rw [run_append_of_shiftAll h]
  exact (run_ok_iff rfl hkinds).mpr ⟨s', hmore, htotal⟩

/-- What has been read is viable. -/
theorem viable_of_shiftAll (h : initial.shiftAll ts = some s) : Viable ts := by
  obtain ⟨more, eof, q, _, _, hparse⟩ := exists_parseTokens_of_shiftAll h
  exact ⟨more ++ [eof], q, hparse⟩

/-- Nothing can follow a token that is rejected. -/
theorem not_viable_of_reject {e : ParseError} {read : Bool} (h : initial.shiftAll ts = some s)
    (hreject : s.step t = .reject e read) : ¬Viable (ts ++ [t]) := by
  rintro ⟨rest, q, hparse⟩
  unfold parseTokens at hparse
  rw [List.append_assoc, run_append_of_shiftAll h, List.singleton_append, run, hreject] at hparse
  cases hparse

end Query

end TicketSearch
