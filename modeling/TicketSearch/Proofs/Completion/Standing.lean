/-
Where what is typed at the end of a query stands.

A context at the end of a source cuts it in two: the text before what is typed, and what is
typed.  `exists_standing` says what is known of the cut.  The tokens before it are read off the
first part, they stay when what is typed is replaced by something that fits, and they lead to a
place that offers a context of this kind.

Where the cut lies depends on what the cursor is on.  It is before the token under the cursor,
and at the cursor when there is none, since the tokens before it are complete then.  For an
operator of several words it is before the first of them.
-/
import TicketSearch.Proofs.Completion
import TicketSearch.Proofs.Completion.Replacement
import TicketSearch.Proofs.Completion.Steps

namespace TicketSearch

open Lexeme (Fits)
open Place (Begun reached exists_of_begun)

/-! ### Cutting a source before one of its tokens -/

namespace Token

/--
A source in two parts with the tokens of the first.  They stay when the second part is replaced
by one that fits, and whatever comes there when the second part is empty.
-/
structure Standing (source first rest : Text) (kept : List Token) : Prop where
  source_eq : source = first ++ rest
  starts : ∀ d, rest.head? = some d → isBlank d = false
  reads : ∀ new, (rest ≠ [] → Fits rest new) → Reads new 0 first kept

variable {source : Text} {a b : List Token} {t : Token}

/-- A source can be cut right before any of its tokens. -/
theorem exists_standing_of_token
    (h : markFields true false (lexemesFrom 0 0 source) = a ++ t :: b) :
    ∃ first rest kept, Standing source first rest kept ∧ Text.byteLength first = t.start ∧
      markFields true false kept = a := by
  have hstream : stream source =
      a ++ t :: (b ++ [⟨.endOfInput, [], Text.byteLength source, Text.byteLength source⟩]) := by
    unfold stream
    rw [h, List.append_assoc, List.cons_append]
  obtain ⟨kept, traw, e, afterIn, hraw, hmark, hrest⟩ := exists_of_stream_eq hstream
  have hkept : markFields true false kept = a := by
    have hnone := hmark []
    rw [List.append_nil] at hnone
    exact hnone.trans (List.append_nil a)
  have htokens : t :: b = markFields e afterIn traw := by
    rw [← List.cons_append] at hrest
    exact (List.append_inj' hrest rfl).1
  cases traw with
  | nil => cases htokens
  | cons raw traw =>
      obtain ⟨first, rest, hs, hstart, hne, hreads, hhead⟩ := exists_reads_before hraw
      have hlength : Text.byteLength first = t.start := by
        rw [(List.cons.inj htokens).1, markField_start, ← hstart, Nat.zero_add]
      exact ⟨first, rest, kept, ⟨hs, hhead, fun new hfits => hreads.replace hne (hfits hne)⟩,
        hlength, hkept⟩

theorem isOpenAtEnd_of_markField {e : Bool} (h : Context.isOpenAtEnd (markField e t) = false) :
    Context.isOpenAtEnd t = false := by
  rcases markField_cases e t with hsame | ⟨hfield, _⟩
  · rwa [hsame] at h
  · rw [hfield] at h
    cases h

/-- A source can be cut at its end when no token is under a cursor there. -/
theorem standing_of_not_isUnder
    (h : ∀ t ∈ stream source, Context.isUnder (Text.byteLength source) t = false) :
    Standing source source [] (lexemesFrom 0 0 source) := by
  constructor
  · exact (List.append_nil source).symm
  · intro d hd
    cases hd
  · intro new _
    refine (reads_all 0 source).extend (fun t ht hstop => ?_) new
    have hlt := (bounds_of_mem_lexemesFrom ht).2
    obtain ⟨e, hmem⟩ : ∃ e, markField e t ∈ markFields true false (lexemesFrom 0 0 source) :=
      exists_markField_mem ht
    have hnot := h _ (List.mem_append_left _ hmem)
    refine isOpenAtEnd_of_markField (e := e) ?_
    rw [Nat.zero_add] at hstop
    unfold Context.isUnder at hnot
    rw [markField_start, markField_stop, hstop] at hnot
    simpa [kind_ne_endOfInput hmem, ← hstop, hlt] using hnot

end Token

namespace Context

open Token (Standing exists_standing_of_token lexemesFrom markFields standing_of_not_isUnder stream)

/-! ### The cut at the end of a source -/

/-- A cursor is on one of the tokens, the ones before which count, or on none. -/
theorem split_cases (ts : List Token) (cursor : Nat) :
    (∃ a t b, ts = a ++ t :: b ∧ isUnder cursor t = true ∧ split ts cursor = (a, t.start)) ∨
      (∀ t ∈ ts, isUnder cursor t = false) ∧
        split ts cursor =
          (ts.takeWhile fun t => t.kind != .endOfInput && decide (t.stop ≤ cursor), cursor) := by
  unfold split
  cases hfind : ts.findIdx? (isUnder cursor) with
  | none =>
      refine Or.inr ⟨fun t ht => ?_, rfl⟩
      exact List.findIdx?_eq_none_iff.mp hfind t ht
  | some i =>
      obtain ⟨hlt, hunder, _⟩ := List.findIdx?_eq_some_iff_getElem.mp hfind
      refine Or.inl ⟨ts.take i, ts[i], ts.drop (i + 1), ?_, hunder, ?_⟩
      · rw [List.getElem_cons_drop, List.take_append_drop]
      · simp [List.getElem?_eq_getElem hlt]

theorem exists_standing_of_split (source : Text) :
    ∃ first rest kept, Standing source first rest kept ∧
      split (stream source) (Text.byteLength source) =
        (markFields true false kept, Text.byteLength first) := by
  rcases split_cases (stream source) (Text.byteLength source) with
    ⟨a, t, b, hstream, hunder, hsplit⟩ | ⟨hnone, hsplit⟩
  · have hkind : t.kind ≠ .endOfInput := by
      intro heq
      unfold isUnder at hunder
      simp [heq] at hunder
    obtain rfl | ⟨b', hmarked⟩ := Token.cases_of_stream_eq hstream
    · exact absurd rfl hkind
    obtain ⟨first, rest, kept, hstanding, hlength, hkept⟩ := exists_standing_of_token hmarked
    exact ⟨first, rest, kept, hstanding, by rw [hsplit, hkept, hlength]⟩
  · have hbefore : ∀ t ∈ markFields true false (lexemesFrom 0 0 source),
        (t.kind != .endOfInput && decide (t.stop ≤ Text.byteLength source)) = true := by
      intro t ht
      obtain ⟨raw, hraw, e, rfl⟩ := Token.exists_of_mem_markFields ht
      have hstop := (Token.reads_all 0 source).stop_le raw hraw
      rw [Nat.zero_add] at hstop
      simp [Token.kind_ne_endOfInput ht, Token.markField_stop, hstop]
    refine ⟨source, [], _, standing_of_not_isUnder hnone, ?_⟩
    rw [hsplit]
    unfold stream
    rw [List.takeWhile_append_of_pos hbefore]
    simp

/-! ### What is offered there -/

/-- What a place that holds no offset offers to complete, and for which field. -/
inductive Offers : Place → ContextKind → Option Field → Prop
  | field : Offers .field .field none
  | operator (f : Option Field) : Offers (.operator f) .operator f
  | value (f : Option Field) : Offers (.value f) .value f
  | afterIn (f : Option Field) : Offers (.afterIn f) .value f
  | listValue (f : Option Field) : Offers (.listValue f) .value f
  | keyword : Offers .keyword .keyword none

namespace Offers

variable {p : Place} {f : Option Field}

theorem eq_of_field (h : Offers p .field f) : p = .field := by
  cases h
  rfl

theorem eq_of_operator (h : Offers p .operator f) : p = .operator f := by
  cases h
  rfl

theorem eq_of_value (h : Offers p .value f) : p = .value f ∨ p = .afterIn f ∨ p = .listValue f := by
  cases h with
  | value => exact Or.inl rfl
  | afterIn => exact Or.inr (Or.inl rfl)
  | listValue => exact Or.inr (Or.inr rfl)

theorem eq_of_keyword (h : Offers p .keyword f) : p = .keyword := by
  cases h
  rfl

end Offers

variable {source : Text} {c : Context}

/-- What is offered starts where the place is reached, or at the offset that the place holds. -/
theorem ofPlace?_cases {start cursor : Nat} {p : Place}
    (h : ofPlace? source start cursor p = some c) :
    c.typed = (Text.between? source c.position cursor).getD [] ∧
      (Offers p c.kind c.field ∧ c.position = start ∨
        c.kind = .operator ∧ Begun c.field c.position p) := by
  cases p with
  | field =>
      cases h
      exact ⟨rfl, Or.inl ⟨.field, rfl⟩⟩
  | operator f =>
      cases h
      exact ⟨rfl, Or.inl ⟨.operator f, rfl⟩⟩
  | afterNot f n =>
      cases h
      exact ⟨rfl, Or.inr ⟨rfl, .afterNot⟩⟩
  | afterIs f n =>
      cases h
      exact ⟨rfl, Or.inr ⟨rfl, .afterIs⟩⟩
  | value f =>
      cases h
      exact ⟨rfl, Or.inl ⟨.value f, rfl⟩⟩
  | afterIn f =>
      cases h
      exact ⟨rfl, Or.inl ⟨.afterIn f, rfl⟩⟩
  | listValue f =>
      cases h
      exact ⟨rfl, Or.inl ⟨.listValue f, rfl⟩⟩
  | listNext f => cases h
  | keyword =>
      cases h
      exact ⟨rfl, Or.inl ⟨.keyword, rfl⟩⟩

/-- What stands behind a first part, up to the end. -/
theorem between?_behind (first rest : Text) :
    (Text.between? (first ++ rest) (Text.byteLength first)
      (Text.byteLength (first ++ rest))).getD [] = rest := by
  have hbetween := Text.between?_append first rest []
  rw [List.append_nil] at hbetween
  rw [hbetween, Option.getD_some]

theorem between?_standing {first rest : Text} {kept : List Token}
    (h : Standing source first rest kept) :
    (Text.between? source (Text.byteLength first) (Text.byteLength source)).getD [] = rest := by
  rw [h.source_eq]
  exact between?_behind first rest

/-- **Where what is typed at the end of a source stands.** -/
theorem exists_standing (h : at? source (Text.byteLength source) = some c) :
    ∃ first kept, Standing source first c.typed kept ∧ Text.byteLength first = c.position ∧
      Offers (reached (markFields true false kept)) c.kind c.field ∧
        (c.kind ≠ .operator →
          (split (stream source) (Text.byteLength source)).1 = markFields true false kept) := by
  obtain ⟨first, rest, kept, hstanding, hsplit⟩ := exists_standing_of_split source
  have hcontext : ofPlace? source (Text.byteLength first) (Text.byteLength source)
      (reached (markFields true false kept)) = some c := by
    unfold at? at h
    split_ifs at h
    rw [hsplit] at h
    exact h
  obtain ⟨htyped, ⟨hoffers, hposition⟩ | ⟨hkind, hbegun⟩⟩ := ofPlace?_cases hcontext
  · rw [hposition, between?_standing hstanding] at htyped
    rw [htyped, hsplit]
    exact ⟨first, kept, hstanding, hposition.symm, hoffers, fun _ => rfl⟩
  · -- an operator of several words: the cut moves to the first of them
    obtain ⟨a, t, b, hkept, hstart, hoperator⟩ := exists_of_begun hbegun
    have hmarked : ∃ b', markFields true false (lexemesFrom 0 0 source) = a ++ t :: b' := by
      have hreads := (hstanding.reads rest fun hrest => Lexeme.fits_of_head? rfl).lexemesFrom_eq
      rw [← hstanding.source_eq] at hreads
      obtain ⟨e, afterIn, happend⟩ := Token.markFields_append true false kept
      rw [hreads, happend, hkept, List.append_assoc]
      exact ⟨_, rfl⟩
    obtain ⟨b', hmarked⟩ := hmarked
    obtain ⟨first', rest', kept', hstanding', hlength, hkept'⟩ := exists_standing_of_token hmarked
    rw [← hstart, ← hlength, between?_standing hstanding'] at htyped
    rw [htyped, hkind]
    refine ⟨first', kept', hstanding', hlength.trans hstart, ?_, fun hne => absurd rfl hne⟩
    rw [hkept', hoperator]
    exact .operator c.field

end Context

end TicketSearch
