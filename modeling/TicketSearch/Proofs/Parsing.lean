/-
The parser accepts exactly the sentences of the grammar.

Both halves are inductions along the tokens: a derivation can be read
(`OrExpr.shiftAll`), and what has been read when a query is complete has a derivation
(`Reads.total`).  With `Sentence.tokens_injective` that derivation is the only one.
-/
import TicketSearch.Proofs.Grammar.Unambiguous
import TicketSearch.Proofs.Lexing.Respacing
import TicketSearch.Proofs.Parsing.Sound

namespace TicketSearch

namespace Query

open Grammar

variable {body : List Token} {eof : Token} {q : Query}

/-- What is accepted has a derivation. -/
theorem exists_sentence_of_parseTokens (heof : eof.kind = .endOfInput)
    (hbody : ∀ t ∈ body, t.kind ≠ .endOfInput) (h : (parseTokens (body ++ [eof])).1 = .ok q) :
    ∃ d : Sentence, d.tokens = body ++ [eof] ∧ d.query? = some q := by
  rw [parseTokens, ParserState.run_ok_iff heof hbody] at h
  obtain ⟨s, hs, hq⟩ := h
  by_cases hphase : s.phase = .start
  · obtain rfl := eq_nil_of_phase_start hs hphase
    cases hs
    exact ⟨.empty ⟨eof, heof⟩, rfl, hq⟩
  · obtain ⟨e, he, hequery⟩ := (reads_initial.shiftAll hs).total hq hphase
    refine ⟨.query e ⟨eof, heof⟩, ?_, hequery⟩
    rw [Sentence.tokens, he, List.nil_append]

/-- What has a derivation that stands for a query is accepted as that query. -/
theorem parseTokens_of_sentence (heof : eof.kind = .endOfInput)
    (hbody : ∀ t ∈ body, t.kind ≠ .endOfInput) {d : Sentence} (hd : d.tokens = body ++ [eof])
    (hq : d.query? = some q) : (parseTokens (body ++ [eof])).1 = .ok q := by
  rw [parseTokens, ParserState.run_ok_iff heof hbody]
  cases d with
  | empty eof' =>
      obtain rfl : [] = body := List.append_inj_left' hd rfl
      exact ⟨.initial, rfl, hq⟩
  | query e eof' =>
      obtain rfl : e.tokens = body := List.append_inj_left' hd rfl
      obtain ⟨c, l, hshift, hc⟩ := e.shiftAll hq (p := .start) [] trivial
      exact ⟨_, hshift, by simp only [ParserState.total?, hc]⟩

/--
**The parser accepts exactly the sentences of the grammar that can be read.**  Of tokens
that end once it makes the query `q` if and only if they have a derivation, the name at
the head of every predicate is one of a field, every sign is one of the six and every
value denotes a literal.  There is then no other derivation, and `q` is its query.
-/
theorem parseTokens_ok_iff (heof : eof.kind = .endOfInput)
    (hbody : ∀ t ∈ body, t.kind ≠ .endOfInput) :
    (parseTokens (body ++ [eof])).1 = .ok q ↔
      ∃ d : Sentence, (∀ d' : Sentence, d'.tokens = body ++ [eof] ↔ d' = d) ∧ d.Readable ∧
        d.query? = some q := by
  constructor
  · intro h
    obtain ⟨d, hd, hq⟩ := exists_sentence_of_parseTokens heof hbody h
    have hunique : ∀ d' : Sentence, d'.tokens = body ++ [eof] ↔ d' = d :=
      fun d' => ⟨fun hd' => d'.tokens_injective d (hd'.trans hd.symm), fun hd' => hd' ▸ hd⟩
    have hreadable : d.Readable := d.query?_isSome.mp (by rw [hq]; rfl)
    exact ⟨d, hunique, hreadable, hq⟩
  · rintro ⟨d, hunique, -, hq⟩
    exact parseTokens_of_sentence heof hbody ((hunique d).mpr rfl) hq

/-- `NOT status IS EMPTY OR type = bug AND labels NOT IN (a)` has a derivation, and only one. -/
theorem parseTokens_ok_iff_of_precedence :
    ∃ d : Sentence, (∀ d' : Sentence,
        d'.tokens = Token.stream "NOT status IS EMPTY OR type = bug AND labels NOT IN (a)" ↔
          d' = d) ∧
      d.Readable ∧
      d.query? = some (.or (.not (.empty .status false))
        (.and (.compare .type .eq (.word "bug")) (.member .labels true [.word "a"]))) :=
  (@parseTokens_ok_iff
    (Token.markFields true false
      (Token.lexemesFrom 0 0 "NOT status IS EMPTY OR type = bug AND labels NOT IN (a)"))
    _ _ rfl (by decide +kernel)).mp rfl

/-! ### Sources -/

/-- What a source parses to has a derivation of the tokens of the source. -/
theorem exists_sentence_of_parse {s : Text} (h : parse s = .ok q) :
    ∃ d : Sentence, d.tokens = Token.stream s ∧ d.query? = some q :=
  exists_sentence_of_parseTokens rfl (fun _ ht => Token.kind_ne_endOfInput ht) h

/-- A source that is not blank and parses has a token before its end. -/
theorem exists_orExpr_of_parse {s : Text} (h : parse s = .ok q)
    (hs : ∃ c ∈ s, isBlank c = false) :
    ∃ (e : OrExpr) (eof : Terminal .endOfInput),
      (Sentence.query e eof).tokens = Token.stream s ∧ e.query? = some q := by
  obtain ⟨d, hd, hq⟩ := exists_sentence_of_parse h
  cases d with
  | query e eof => exact ⟨e, eof, hd, hq⟩
  | empty eof =>
      exfalso
      have hnil : Token.markFields true false (Token.lexemesFrom 0 0 s) = [] :=
        (List.append_inj_left' ((List.nil_append _).trans hd) rfl).symm
      have hraw : Token.lexemesFrom 0 0 s = [] := by
        have hlength := congrArg List.length hnil
        rw [Token.length_markFields] at hlength
        exact List.eq_nil_of_length_eq_zero hlength
      have hlexes := Token.lexes_of_known (o := 0) (s := s) (by simp [hraw])
      rw [hraw] at hlexes
      obtain ⟨c, hc, hblank⟩ := hs
      rw [hlexes.blank_of_nil c hc] at hblank
      cases hblank

/-- The lexer knows every token of a source that parses. -/
theorem known_of_parse {s : Text} (h : parse s = .ok q) :
    ∀ t ∈ Token.stream s, t.kind ≠ .unknown := by
  have hbody : ∀ t ∈ Token.markFields true false (Token.lexemesFrom 0 0 s),
      t.kind ≠ .endOfInput := fun t ht => Token.kind_ne_endOfInput ht
  unfold parse parseTokens Token.stream at h
  rw [ParserState.run_ok_iff rfl hbody] at h
  obtain ⟨state, hstate, _⟩ := h
  intro t ht
  rcases List.mem_append.mp ht with hmem | hend
  · exact ParserState.known_of_shiftAll hstate t hmem
  · cases List.mem_singleton.mp hend
    exact TokenKind.noConfusion

end Query

end TicketSearch
