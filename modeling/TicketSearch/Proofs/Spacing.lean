/-
Blanks between tokens do not matter.

When the blanks before the tokens of a source are replaced by others, at least one between any
two tokens, the lexer finds the same kinds and texts again (`Token.map_spelling_stream`); only
the places are others.  To the parser such tokens are alike, place by place, so its answer is
the same query, or the same fault at the token that corresponds.
-/
import TicketSearch.Proofs.Grammar.Respelling
import TicketSearch.Proofs.Lexing.Gaps
import TicketSearch.Proofs.Parsing.Likeness
import TicketSearch.Proofs.Parsing.Rejection

namespace TicketSearch

namespace Token

/-- Of the tokens only the texts are woven. -/
theorem weave_congr {ts us : List Token} (h : ts.map text = us.map text) (gaps : List Text) :
    weave gaps ts = weave gaps us := by
  have hmap : ∀ ts : List Token,
      weave gaps ts = (List.zipWith (fun gap t => gap ++ t) gaps (ts.map text)).flatten := by
    intro ts
    unfold weave
    rw [List.zipWith_map_right]
  rw [hmap, hmap, h]

theorem map_text_markFields (expected afterIn : Bool) (ts : List Token) :
    (markFields expected afterIn ts).map text = ts.map text := by
  induction ts generalizing expected afterIn with
  | nil => rfl
  | cons t ts ih =>
      rw [markFields, List.map_cons, List.map_cons, markField_text, ih]

/-- The last gap but one is before the last token; the blanks behind that one are dropped. -/
theorem weave_stream {source : Text} {gaps : List Text}
    (h : gaps.length + 1 = (stream source).length) :
    weave gaps (stream source) = weave gaps (lexemesFrom 0 0 source) := by
  have hlength : gaps.length = (markFields true false (lexemesFrom 0 0 source)).length := by
    unfold stream at h
    rw [List.length_append] at h
    exact Nat.succ.inj h
  unfold stream
  rw [weave_concat hlength]
  exact weave_congr (map_text_markFields true false _) gaps

/-- **With other blanks between them, the tokens of a source are the same but for their places.** -/
theorem map_spelling_stream {source : Text} {gaps : List Text}
    (hlength : gaps.length + 1 = (stream source).length) (hblank : ∀ gap ∈ gaps, Text.Blank gap)
    (hinner : ∀ gap ∈ gaps.tail, gap ≠ []) :
    (stream (weave gaps (stream source))).map spelling = (stream source).map spelling := by
  have hgaps : Spacing gaps (lexemesFrom 0 0 source) := by
    refine ⟨?_, hblank, hinner⟩
    unfold stream at hlength
    rw [List.length_append, length_markFields] at hlength
    exact Nat.succ.inj hlength
  have hlexemes := map_spelling_weave (reads_all 0 source) hgaps 0
  rw [weave_stream hlength]
  unfold stream
  rw [List.map_append, List.map_append, map_markFields, map_markFields, hlexemes]
  rfl

end Token

namespace Likeness

open Token (spelling)

/-- Tokens with the same kinds and texts, wherever they stand. -/
def ofPlaces (ts us : List Token) : Likeness where
  key := id
  place m n :=
    ∃ (i : Nat) (t u : Token), ts[i]? = some t ∧ us[i]? = some u ∧ t.start = m ∧ u.start = n
  literal := Eq

variable {ts us : List Token}

theorem ofPlaces_isSound : (ofPlaces ts us).IsSound := by
  refine ⟨fun s t h => congrArg Field.resolve? h,
    fun s t h => congrArg Comparison.ofSymbol? h, ?_, ?_⟩
  · intro s t h
    have heq : s = t := h
    rw [heq]
  · intro t u hkind htext
    rw [Grammar.literal_congr (Prod.ext hkind htext : t.spelling = u.spelling)]
    cases u.literal with
    | ok value => exact .ok rfl
    | error fault => exact .error rfl

theorem ofPlaces_tokens (h : ts.map spelling = us.map spelling) :
    List.Forall₂ (ofPlaces ts us).Tokens ts us := by
  have hlength : ts.length = us.length := by
    have hmaps := congrArg List.length h
    rwa [List.length_map, List.length_map] at hmaps
  refine List.forall₂_iff_get.mpr ⟨hlength, fun i hi hi' => ?_⟩
  have hspelling : (ts.get ⟨i, hi⟩).spelling = (us.get ⟨i, hi'⟩).spelling := by
    have hget := congrArg (fun l => l[i]?) h
    simpa [hi, hi'] using hget
  obtain ⟨hkind, htext⟩ := Prod.mk.inj hspelling
  refine ⟨hkind, htext, i, _, _, ?_, ?_, rfl, rfl⟩
  · exact List.getElem?_eq_getElem hi
  · exact List.getElem?_eq_getElem hi'

theorem ofPlaces_ok_iff {a b : Except ParseError Query} (h : (ofPlaces ts us).Answers a b)
    (q : Query) : a = .ok q ↔ b = .ok q := by
  cases h with
  | ok hquery => rw [hquery.eq]
  | error _ => simp

/-- A fault with a place is the same fault at the token that corresponds. -/
theorem ofPlaces_error {a b : Except ParseError Query} {e : ParseError} {start : Nat}
    (h : (ofPlaces ts us).Answers a b) (he : a = .error e) (hstart : e.position = some start) :
    ∃ (e' : ParseError) (i : Nat) (t u : Token), b = .error e' ∧ e'.fault = e.fault ∧
      ts[i]? = some t ∧ e.position = some t.start ∧
        us[i]? = some u ∧ e'.position = some u.start := by
  obtain ⟨e', he', hfault, hposition⟩ := h.exists_error he
  have hsame : e.fault = e'.fault := by
    simpa only [ofPlaces, Fault.mapText_id] using hfault
  rw [hstart] at hposition ⊢
  generalize hplace' : e'.position = place' at hposition
  cases hposition with
  | some hplace =>
      obtain ⟨i, t, u, ht, hu, rfl, rfl⟩ := hplace
      exact ⟨e', i, t, u, he', hsame.symm, ht, rfl, hu, hplace'⟩

end Likeness

namespace Query

open Token (spelling stream weave)

/--
**Blanks between tokens do not matter.**  Let each gap of a source be replaced by blanks, not
none between two tokens, and let those at the end be dropped.  The kinds and texts of the
tokens stay.  What parsed parses to the same query and nothing else parses now; what was
rejected is rejected for the same fault, at the token that comes as far down the list.
-/
theorem parse_respaced (source : Text) (gaps : List Text)
    (hlength : gaps.length + 1 = (stream source).length) (hblank : ∀ gap ∈ gaps, Text.Blank gap)
    (hinner : ∀ gap ∈ gaps.tail, gap ≠ []) :
    let respaced := weave gaps (stream source)
    (stream respaced).map spelling = (stream source).map spelling ∧
      (∀ q, parse respaced = .ok q ↔ parse source = .ok q) ∧
        ∀ e, parse source = .error e → ∃ (e' : ParseError) (i : Nat) (t t' : Token),
          parse respaced = .error e' ∧ e'.fault = e.fault ∧
            (stream source)[i]? = some t ∧ e.position = some t.start ∧
              (stream respaced)[i]? = some t' ∧ e'.position = some t'.start := by
  intro respaced
  have hspelling : (stream respaced).map spelling = (stream source).map spelling :=
    Token.map_spelling_stream hlength hblank hinner
  have hanswers := Likeness.alike_parseTokens Likeness.ofPlaces_isSound
    (Likeness.ofPlaces_tokens hspelling.symm)
  refine ⟨hspelling, fun q => ?_, fun e he => ?_⟩
  · exact (Likeness.ofPlaces_ok_iff hanswers q).symm
  · obtain ⟨_, u, _, _, hblames⟩ := exists_blames rfl he
    exact Likeness.ofPlaces_error hanswers he hblames.position

/-- The case of `type!=bug` with blanks around its sign. -/
theorem parse_respaced_of_touching :
    let gaps : List Text := ["\t", " ", "  "]
    gaps.length + 1 = (stream "type!=bug").length ∧ (∀ gap ∈ gaps, Text.Blank gap) ∧
      (∀ gap ∈ gaps.tail, gap ≠ []) ∧ weave gaps (stream "type!=bug") = "\ttype !=  bug" ∧
        parse "\ttype !=  bug" = .ok (.compare .type .notEq (.word "bug")) := by
  intro gaps
  have hlength : gaps.length + 1 = (stream "type!=bug").length := by decide +kernel
  have hblank : ∀ gap ∈ gaps, Text.Blank gap := by decide
  have hinner : ∀ gap ∈ gaps.tail, gap ≠ [] := by decide
  have hweave : weave gaps (stream "type!=bug") = "\ttype !=  bug" := by decide +kernel
  refine ⟨hlength, hblank, hinner, hweave, ?_⟩
  rw [← hweave]
  exact ((parse_respaced _ gaps hlength hblank hinner).2.1 _).mpr (by decide +kernel)

end Query

end TicketSearch
