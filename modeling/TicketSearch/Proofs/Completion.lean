/-
Completion agrees with the grammar.

What completion takes to be typed at a token of a query that parses is what the grammar
expects there.  The cursor stands right behind blanks, at the start of the token, so that
no token is under it, and the automaton has walked exactly the tokens before
(`split_of_parted`).  Where that walk leads is known from the derivation
(`OrExpr.allWalks`); what is left is that a place shows what it meets (`shows_of_meets`).
-/
import TicketSearch.Proofs.Completion.Cursor
import TicketSearch.Proofs.Completion.Expectation
import TicketSearch.Proofs.Parsing

namespace TicketSearch

open Grammar (Expectation)
open Query (exists_orExpr_of_parse)
open Token (Parted Respaces)

/-! ### What a place shows -/

namespace Text

theorem before?_append (a b : Text) : before? (a ++ b) (byteLength a) = some a := by
  unfold before?
  rw [splitAtByte?_append]
  rfl

theorem after?_append (a b : Text) : after? (a ++ b) (byteLength a) = some b := by
  unfold after?
  rw [splitAtByte?_append]
  rfl

theorem between?_append (a b c : Text) :
    between? (a ++ b ++ c) (byteLength a) (byteLength (a ++ b)) = some b := by
  have hlength : byteLength (a ++ b) - byteLength a = byteLength b := by
    rw [byteLength_append]
    omega
  have hle : byteLength a ≤ byteLength (a ++ b) := by
    rw [byteLength_append]
    omega
  unfold between? after? before?
  rw [if_pos hle, hlength, List.append_assoc, splitAtByte?_append]
  simp

end Text

namespace Grammar

/--
The context that shows what is due to one who types behind the text `first`.  Nothing is
typed of it yet, apart from the words of an operator of several that are there.
-/
inductive Expectation.Shows (first : Text) : Expectation → Option Context → Prop
  | field : Shows first .field (some ⟨.field, [], Text.byteLength first, none⟩)
  | operator (f : Field) :
      Shows first (.operator f none) (some ⟨.operator, [], Text.byteLength first, some f⟩)
  | begunOperator (f : Field) (a typed : Text) (split : first = a ++ typed) :
      Shows first (.operator f (some (Text.byteLength a)))
        (some ⟨.operator, typed, Text.byteLength a, some f⟩)
  | value (f : Field) :
      Shows first (.value f) (some ⟨.value, [], Text.byteLength first, some f⟩)
  | separator : Shows first .separator none
  | keyword : Shows first .keyword (some ⟨.keyword, [], Text.byteLength first, none⟩)

end Grammar

namespace Context

variable {first last : Text}

/-- A place shows what it meets. -/
theorem shows_of_meets {p : Place} {due : Expectation} (h : p.Meets due)
    (hbegun : ∀ n, p.begun? = some n → ∃ a typed, first = a ++ typed ∧ Text.byteLength a = n) :
    due.Shows first
      (ofPlace? (first ++ last) (Text.byteLength first) (Text.byteLength first) p) := by
  have htyped : Text.between? (first ++ last) (Text.byteLength first) (Text.byteLength first) =
      some [] := by
    have h := Text.between?_append first [] last
    rwa [List.append_nil] at h
  have hwords : ∀ (f : Field) (n : Nat), p.begun? = some n →
      (Expectation.operator f (some n)).Shows first
        (some ⟨.operator, (Text.between? (first ++ last) n (Text.byteLength first)).getD [], n,
          some f⟩) := by
    intro f n hn
    obtain ⟨a, typed, rfl, rfl⟩ := hbegun n hn
    rw [Text.between?_append]
    exact .begunOperator f a typed rfl
  cases h with
  | afterNot f n | afterIs f n => exact hwords f n rfl
  | listNext f => exact .separator
  | field =>
      simp only [ofPlace?, htyped]
      exact .field
  | operator f =>
      simp only [ofPlace?, htyped]
      exact .operator f
  | value f | afterIn f | listValue f =>
      simp only [ofPlace?, htyped]
      exact .value f
  | keyword =>
      simp only [ofPlace?, htyped]
      exact .keyword

/-- At a token of a walk that starts with a field, completion shows what is due. -/
theorem shows_of_walks {parts more : List (Token × Expectation)} {t : Token} {due : Expectation}
    {p : Place} (hwalks : Place.Walks .field (parts ++ (t, due) :: more) p) {post : List Token}
    (h : Parted first last (parts.map Prod.fst) post) :
    due.Shows first (at? (first ++ last) (Text.byteLength first)) := by
  obtain ⟨here, hbefore, hbehind⟩ := hwalks.split
  have hbegun : ∀ n, here.begun? = some n →
      ∃ a typed, first = a ++ typed ∧ Text.byteLength a = n := by
    intro n hn
    rcases hbefore.begun? hn with ⟨pair, hpair, rfl⟩ | hnone
    · exact (h.before pair.1 (List.mem_map_of_mem hpair)).2.2
    · cases hnone
  have hmeets : here.Meets due := by
    cases hbehind with
    | cons meets _ _ => exact meets
  unfold at?
  rw [Text.splitAtByte?_append, if_pos Option.isSome_some, split_of_parted h]
  simp only
  rw [hbefore.foldl_eq]
  exact shows_of_meets hmeets hbegun

/--
**Completion expects at every token of a query what the grammar expects there.**  A source that
parses and is not blank has a derivation.  When blanks are put before any of its tokens, the
end of the input included, the context at the start of that token is the one that shows what
the derivation has there.
-/
theorem at?_of_parse {s : Text} {q : Query} (hparse : Query.parse s = .ok q)
    (hs : ∃ c ∈ s, isBlank c = false) :
    ∃ (e : Grammar.OrExpr) (h : e.Readable) (eof : Grammar.Terminal .endOfInput),
      e.query? = some q ∧ (e.allExpectations h eof).map Prod.fst = Token.stream s ∧
        ∀ parts t due more, e.allExpectations h eof = parts ++ (t, due) :: more →
          (∃ first last, Respaces s t.start first last) ∧
            ∀ first last, Respaces s t.start first last →
              (∃ t' post, Token.stream (first ++ last) = parts.map Prod.fst ++ t' :: post ∧
                t'.spelling = t.spelling ∧ t'.start = Text.byteLength first) ∧
              due.Shows first (at? (first ++ last) (Text.byteLength first)) := by
  obtain ⟨e, eof, htokens, hq⟩ := exists_orExpr_of_parse hparse hs
  have hknown := Query.known_of_parse hparse
  have hreadable : e.Readable := e.query?_isSome.mp (by rw [hq]; rfl)
  have hfst : (e.allExpectations hreadable eof).map Prod.fst = Token.stream s := by
    rw [e.map_allExpectations, htokens]
  refine ⟨e, hreadable, eof, hq, hfst, fun parts t due more hparts => ?_⟩
  have hstream : Token.stream s = parts.map Prod.fst ++ t :: more.map Prod.fst := by
    rw [← hfst, hparts, List.map_append, List.map_cons]
  have hwalks := e.allWalks hreadable eof
  rw [hparts] at hwalks
  constructor
  · have hmem : t ∈ Token.stream s := by
      rw [hstream]
      exact List.mem_append_right _ List.mem_cons_self
    have hgap : Text.Blank [' '] := by decide
    exact Token.exists_respaces hknown hmem hgap (List.cons_ne_nil _ _)
  · intro first last hrespaces
    obtain ⟨t', post, hparted, hstart, hspell⟩ :=
      Token.parted_of_respaces hknown hstream hrespaces
    refine ⟨⟨t', post, hparted.stream_eq, (List.cons.inj hspell).1, hstart⟩, ?_⟩
    exact shows_of_walks hwalks hparted

/-- With another blank after the `NOT` of `labels NOT IN (a)`, the `IN` completes an
operator begun there. -/
theorem at?_of_parse_in_after_not :
    at? "labels NOT  IN (a)" 12 = some ⟨.operator, "NOT  ", 7, some .labels⟩ ∧
      Expectation.Shows "labels NOT  " (.operator .labels (some 7))
        (at? "labels NOT  IN (a)" 12) := by
  obtain ⟨e, h, eof, _, hfst, hall⟩ := at?_of_parse (s := "labels NOT IN (a)")
    (q := .member .labels true [.word "a"]) rfl ⟨'l', by decide, by decide⟩
  have hstream : Token.stream "labels NOT IN (a)" =
      [⟨.field, "labels", 0, 6⟩, ⟨.notWord, "NOT", 7, 10⟩] ++ ⟨.inWord, "IN", 11, 13⟩ ::
        [⟨.openParen, "(", 14, 15⟩, ⟨.value, "a", 15, 16⟩, ⟨.closeParen, ")", 16, 17⟩,
          ⟨.endOfInput, "", 17, 17⟩] := by decide +kernel
  have hat : at? "labels NOT  IN (a)" 12 = some ⟨.operator, "NOT  ", 7, some .labels⟩ := by
    decide +kernel
  rw [hstream] at hfst
  obtain ⟨parts, rest, hparts, hbefore, hrest⟩ := List.map_eq_append_iff.mp hfst
  obtain ⟨⟨t, due⟩, more, rfl, rfl, _⟩ := List.map_eq_cons_iff.mp hrest
  have hspaces : Respaces "labels NOT IN (a)" 11 "labels NOT  " "IN (a)" :=
    .mk "labels NOT" " " "  " "IN (a)" rfl rfl (by decide) (by decide) (by decide)
  have hshows : due.Shows "labels NOT  " (at? "labels NOT  IN (a)" 12) :=
    ((hall parts _ due more hparts).2 _ _ hspaces).2
  refine ⟨hat, ?_⟩
  have hdue : due = .operator .labels (some 7) := by
    generalize hcontext : at? "labels NOT  IN (a)" 12 = context at hshows
    rw [hat] at hcontext
    cases hshows with
    | begunOperator f a typed _ =>
        obtain ⟨_, _, hlength, hfield⟩ := Context.mk.inj (Option.some.inj hcontext)
        rw [← hlength, Option.some.inj hfield]
    | _ => cases hcontext
  rw [← hdue]
  exact hshows

end Context

end TicketSearch
