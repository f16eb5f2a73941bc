/-
Where a context stands in the source.

What is typed is cut out of the source between two offsets, and a suggestion is put in its place
by cutting the source there again.  Both cuts have a fallback for an offset that is past the end
or inside a character, the empty text and the unchanged source.  Neither is ever taken
(`at?_spec`): a context starts at the cursor, where the token under the cursor starts, or, for an
operator of several words, where a token before starts, and tokens start between characters.

There is no context where the cursor is at no such offset, and behind a value of a list.  The
second is the automaton's place, and it is read off the tokens (`reached_listNext_iff`).
-/
import TicketSearch.Proofs.Completion.Splice
import TicketSearch.Proofs.Lexing.Gaps

namespace TicketSearch

open Place (Begun reached exists_of_begun)
open Token (Spans spans_stream)

/-! ### Cuts of a text -/

namespace Text

variable {t a b head : Text} {m n k : Nat}

/-- An offset lies between two characters of a text, or at one of its ends. -/
def IsBoundary (t : Text) (n : Nat) : Prop :=
  ∃ head, head <+: t ∧ byteLength head = n

theorem splitAtByte?_isSome_iff : (splitAtByte? n t).isSome ↔ t.IsBoundary n := by
  constructor
  · intro h
    obtain ⟨⟨head, tail⟩, hsplit⟩ := Option.isSome_iff_exists.mp h
    obtain ⟨rfl, hlength⟩ := splitAtByte?_eq_some hsplit
    exact ⟨head, List.prefix_append head tail, hlength⟩
  · rintro ⟨head, ⟨tail, rfl⟩, rfl⟩
    rw [splitAtByte?_append]
    rfl

/-- Of two beginnings of a text, the one with fewer bytes is a beginning of the other. -/
theorem isPrefix_of_byteLength_le (ha : a <+: t) (hb : b <+: t) (h : byteLength a ≤ byteLength b) :
    a <+: b := by
  rcases List.prefix_or_prefix_of_prefix ha hb with hab | ⟨r, rfl⟩
  · exact hab
  · have hr : r = [] := by
      by_contra hne
      have hpos := byteLength_pos hne
      rw [byteLength_append] at h
      omega
    exact ⟨[], by rw [hr, List.append_nil, List.append_nil]⟩

theorem between?_eq_some_iff :
    between? t m n = some a ↔
      ∃ head tail, t = head ++ a ++ tail ∧ byteLength head = m ∧ byteLength (head ++ a) = n := by
  constructor
  · intro h
    unfold between? after? before? at h
    split_ifs at h with hle
    obtain ⟨rest, hrest, hbefore⟩ := Option.bind_eq_some_iff.mp h
    obtain ⟨⟨head, rest'⟩, hhead, rfl⟩ := Option.map_eq_some_iff.mp hrest
    obtain ⟨⟨part, tail⟩, hpart, rfl⟩ := Option.map_eq_some_iff.mp hbefore
    obtain ⟨rfl, hm⟩ := splitAtByte?_eq_some hhead
    obtain ⟨hrest, hlength⟩ := splitAtByte?_eq_some hpart
    have hrest : rest' = part ++ tail := hrest
    refine ⟨head, tail, ?_, hm, ?_⟩
    · rw [hrest, List.append_assoc]
    · rw [byteLength_append, hm, hlength]
      omega
  · rintro ⟨head, tail, rfl, rfl, rfl⟩
    exact between?_append head a tail

/-- Two offsets between characters mark a part of the text. -/
theorem exists_between? (hm : t.IsBoundary m) (hn : t.IsBoundary n) (h : m ≤ n) :
    ∃ part, between? t m n = some part := by
  obtain ⟨head, hhead, rfl⟩ := hm
  obtain ⟨front, hfront, rfl⟩ := hn
  obtain ⟨part, rfl⟩ := isPrefix_of_byteLength_le hhead hfront h
  obtain ⟨tail, rfl⟩ := hfront
  exact ⟨part, between?_append head part tail⟩

theorem isBoundary_of_between? (h : between? t m n = some a) : t.IsBoundary m := by
  obtain ⟨head, tail, rfl, rfl, _⟩ := between?_eq_some_iff.mp h
  exact ⟨head, ⟨a ++ tail, (List.append_assoc head a tail).symm⟩, rfl⟩

/-- Of two parts of a text with the same start, the one that ends first is a
beginning of the other. -/
theorem isPrefix_of_between? (ha : between? t m n = some a) (hb : between? t m k = some b)
    (h : n ≤ k) : a <+: b := by
  obtain ⟨head, tail, rfl, rfl, rfl⟩ := between?_eq_some_iff.mp ha
  obtain ⟨head', tail', heq, hlength, rfl⟩ := between?_eq_some_iff.mp hb
  have hsame : head' = head := by
    have hcut := splitAtByte?_append head' (b ++ tail')
    rw [← List.append_assoc, ← heq, hlength, List.append_assoc, splitAtByte?_append] at hcut
    exact (Prod.mk.inj (Option.some.inj hcut)).1.symm
  rw [hsame] at heq h
  have hprefix := isPrefix_of_byteLength_le ⟨tail, rfl⟩ ⟨tail', heq.symm⟩ h
  exact (List.prefix_append_right_inj head).mp hprefix

end Text

/-! ### Behind a value of a list -/

namespace Place

variable {p : Place} {t : Token} {ts : List Token} {f : Option Field}

/-- A token that stands for a value of a list, if only by mistake. -/
def IsListed (t : Token) : Prop :=
  t.kind.isValue = true ∨ t.kind = .emptyWord

/-- What leads behind a value of a list is the value, and then whatever neither
separates nor closes. -/
theorem step_eq_listNext :
    p.step t = .listNext f ↔
      (p = .listNext f ∧ t.kind ≠ .comma ∨ p = .listValue f ∧ IsListed t) ∧
      t.kind ≠ .closeParen := by
  by_cases hp : p.isListing = true
  · cases p with
    | listValue g =>
        show stepList (.listValue g) g t.kind = _ ↔ _
        unfold stepList IsListed
        split_ifs <;> simp_all [TokenKind.isValue]
    | listNext g =>
        show stepList (.listNext g) g t.kind = _ ↔ _
        unfold stepList
        split_ifs <;> simp_all
    | _ => cases hp
  · refine iff_of_false (fun h => ?_) ?_
    · have hlisting : (p.step t).isListing = true := by
        rw [h]
        rfl
      rcases isListing_step.mp hlisting with ⟨hlisting, _⟩ | ⟨⟨g, rfl⟩, hopen⟩
      · exact hp hlisting
      · rw [(Moves.listOpens hopen).step_eq] at h
        cases h
    · rintro ⟨⟨rfl, _⟩ | ⟨rfl, _⟩, _⟩
      · exact hp rfl
      · exact hp rfl

theorem IsListed.ne_comma (h : IsListed t) : t.kind ≠ .comma := by
  intro hcomma
  unfold IsListed at h
  rw [hcomma] at h
  rcases h with h | h <;> cases h

/-- In the parentheses of a list, a value counts until a comma comes. -/
theorem exists_foldl_eq_listNext_iff (h : ∀ t ∈ ts, t.kind ≠ .closeParen) :
    (∃ g, ts.foldl step (.listValue f) = .listNext g) ↔
      ∃ earlier value behind, ts = earlier ++ value :: behind ∧ IsListed value ∧
        ∀ t ∈ behind, t.kind ≠ .comma := by
  induction ts using List.reverseRecOn with
  | nil =>
      refine iff_of_false ?_ ?_
      · rintro ⟨g, hg⟩
        cases hg
      · rintro ⟨earlier, value, behind, heq, _⟩
        exact List.append_ne_nil_of_right_ne_nil earlier (List.cons_ne_nil _ _) heq.symm
  | append_singleton ts t ih =>
      have hts : ∀ u ∈ ts, u.kind ≠ .closeParen := fun u hu => h u (List.mem_append_left _ hu)
      have hclose : t.kind ≠ .closeParen :=
        h t (List.mem_append_right _ (List.mem_singleton_self t))
      rw [List.foldl_append, List.foldl_cons, List.foldl_nil]
      constructor
      · rintro ⟨g, hg⟩
        rcases (step_eq_listNext.mp hg).1 with ⟨hnext, hcomma⟩ | ⟨_, hlisted⟩
        · obtain ⟨earlier, value, behind, rfl, hlisted, hbehind⟩ := (ih hts).mp ⟨g, hnext⟩
          refine ⟨earlier, value, behind ++ [t], by simp, hlisted, fun u hu => ?_⟩
          rcases List.mem_append.mp hu with hmem | hlast
          · exact hbehind u hmem
          · rw [List.mem_singleton.mp hlast]
            exact hcomma
        · exact ⟨ts, t, [], rfl, hlisted, fun u hu => absurd hu List.not_mem_nil⟩
      · rintro ⟨earlier, value, behind, heq, hlisted, hbehind⟩
        rcases List.eq_nil_or_concat behind with rfl | ⟨behind, last, rfl⟩
        · -- the value comes last, whether or not one came before it
          obtain ⟨rfl, hlast⟩ := List.append_inj' heq rfl
          obtain rfl := (List.cons.inj hlast).1
          have hlisting := isListing_foldl (p := .listValue f) rfl hts
          cases hplace : ts.foldl step (.listValue f) with
          | listValue g => exact ⟨g, step_eq_listNext.mpr ⟨Or.inr ⟨rfl, hlisted⟩, hclose⟩⟩
          | listNext g => exact ⟨g, step_eq_listNext.mpr ⟨Or.inl ⟨rfl, hlisted.ne_comma⟩, hclose⟩⟩
          | _ =>
              rw [hplace] at hlisting
              cases hlisting
        · rw [List.concat_eq_append, ← List.cons_append, ← List.append_assoc] at heq
          obtain ⟨rfl, hlast⟩ := List.append_inj' heq rfl
          obtain rfl := (List.cons.inj hlast).1
          rw [List.concat_eq_append] at hbehind
          obtain ⟨g, hg⟩ := (ih hts).mpr
            ⟨earlier, value, behind, rfl, hlisted,
              fun u hu => hbehind u (List.mem_append_left _ hu)⟩
          have hcomma : t.kind ≠ .comma :=
            hbehind t (List.mem_append_right _ (List.mem_singleton_self t))
          exact ⟨g, step_eq_listNext.mpr ⟨Or.inl ⟨hg, hcomma⟩, hclose⟩⟩

/--
Tokens that end behind a value of a list: in the parentheses of the list there is a value, or
`EMPTY`, and no comma behind it.
-/
def BehindListed (tokens : List Token) : Prop :=
  ∃ before inWord passed opening earlier value behind,
    tokens = before ++ inWord :: (passed ++ opening :: (earlier ++ value :: behind)) ∧
      (reached before).awaitsIn = true ∧ inWord.kind = .inWord ∧ (∀ t ∈ passed, t.kind = .unknown) ∧
      opening.kind = .openParen ∧ IsListed value ∧ (∀ t ∈ behind, t.kind ≠ .comma) ∧
      ∀ t ∈ earlier ++ value :: behind, t.kind ≠ .closeParen

/-- **The automaton is behind a value of a list exactly when the tokens end behind one.** -/
theorem exists_reached_eq_listNext_iff : (∃ f, reached ts = .listNext f) ↔ BehindListed ts := by
  constructor
  · rintro ⟨f, hf⟩
    have hlisting : (reached ts).isListing = true := by
      rw [hf]
      rfl
    obtain ⟨before, inWord, passed, opening, behind, rfl, hawaits, hin, hpassed, hopen, hclose⟩ :=
      isListing_reached_iff.mp hlisting
    obtain ⟨g, hg⟩ := exists_reached_eq_foldl hawaits hin hpassed hopen behind
    rw [hg] at hf
    obtain ⟨earlier, value, behind, rfl, hlisted, hbehind⟩ :=
      (exists_foldl_eq_listNext_iff hclose).mp ⟨f, hf⟩
    exact ⟨before, inWord, passed, opening, earlier, value, behind, rfl, hawaits, hin, hpassed,
      hopen, hlisted, hbehind, hclose⟩
  · rintro ⟨before, inWord, passed, opening, earlier, value, behind, rfl, hawaits, hin, hpassed,
      hopen, hlisted, hbehind, hclose⟩
    obtain ⟨g, hg⟩ := exists_reached_eq_foldl hawaits hin hpassed hopen (earlier ++ value :: behind)
    rw [hg]
    exact (exists_foldl_eq_listNext_iff hclose).mpr ⟨earlier, value, behind, rfl, hlisted, hbehind⟩

end Place

/-! ### The tokens before the cursor -/

namespace Context

variable {source : Text} {cursor : Nat} {ts : List Token} {c : Context}

/-- Whether a token ends before a cursor, or at it, and is not under it. -/
def endsBefore (cursor : Nat) (t : Token) : Bool :=
  t.kind != .endOfInput && decide (t.stop ≤ cursor) && !isUnder cursor t

/-- The tokens before the one under the cursor. -/
def tokensBefore (source : Text) (cursor : Nat) : List Token :=
  (Token.stream source).filter (endsBefore cursor)

theorem stop_le_of_isUnder {t : Token} (h : isUnder cursor t = true) :
    t.kind ≠ .endOfInput ∧ t.start < cursor ∧ cursor ≤ t.stop := by
  unfold isUnder at h
  simp only [Bool.and_eq_true, Bool.or_eq_true, decide_eq_true_eq, bne_iff_ne, beq_iff_eq] at h
  obtain ⟨⟨hkind, hstart⟩, hwithin | ⟨hend, _⟩⟩ := h
  · exact ⟨hkind, hstart, Nat.le_of_lt hwithin⟩
  · exact ⟨hkind, hstart, Nat.le_of_eq hend⟩

/-- A token that ends behind the cursor and is not under it starts behind the cursor. -/
theorem le_start_of_not_isUnder {t : Token} (h : ¬isUnder cursor t = true)
    (hkind : t.kind ≠ .endOfInput) (hstop : cursor < t.stop) : cursor ≤ t.start := by
  by_contra hstart
  refine h ?_
  unfold isUnder
  simp [hkind, hstop, Nat.lt_of_not_le hstart]

theorem filter_endsBefore_of_behind
    (h : ∀ t ∈ ts, cursor ≤ t.start ∧ (t.kind ≠ .endOfInput → t.start < t.stop)) :
    ts.filter (endsBefore cursor) = [] := by
  refine List.filter_eq_nil_iff.mpr fun t ht => ?_
  obtain ⟨hstart, hfull⟩ := h t ht
  unfold endsBefore
  by_cases hend : t.kind = .endOfInput
  · simp [hend]
  · have hlate : ¬t.stop ≤ cursor := Nat.not_le.mpr (Nat.lt_of_le_of_lt hstart (hfull hend))
    simp [hlate]

/-- Of tokens in order, those before the token under the cursor are those that end before it. -/
theorem split_fst_eq_filter
    (hordered : ts.Pairwise fun t u => t.kind ≠ .endOfInput ∧ t.stop ≤ u.start)
    (hfull : ∀ t ∈ ts, t.kind ≠ .endOfInput → t.start < t.stop) :
    (split ts cursor).1 = ts.filter (endsBefore cursor) := by
  induction ts with
  | nil => rfl
  | cons t ts ih =>
      obtain ⟨hfirst, hordered⟩ := List.pairwise_cons.mp hordered
      obtain ⟨hnonempty, hfull⟩ := List.forall_mem_cons.mp hfull
      have hbehind (hstop : cursor ≤ t.stop) :
          ∀ u ∈ ts, cursor ≤ u.start ∧ (u.kind ≠ .endOfInput → u.start < u.stop) :=
        fun u hu => ⟨Nat.le_trans hstop (hfirst u hu).2, hfull u hu⟩
      by_cases hunder : isUnder cursor t = true
      · rw [split_of_under hunder, List.filter_cons_of_neg (by simp [endsBefore, hunder]),
          filter_endsBefore_of_behind (hbehind (stop_le_of_isUnder hunder).2.2)]
      · by_cases hend : t.kind = .endOfInput
        · -- nothing comes behind the end of the input
          have hlast : ts = [] :=
            List.eq_nil_iff_forall_not_mem.mpr fun u hu => (hfirst u hu).1 hend
          unfold split
          simp [hlast, hend, hunder, endsBefore]
        · by_cases hstop : t.stop ≤ cursor
          · rw [split_of_before (eq_false_of_ne_true hunder) hend hstop, ih hordered hfull,
              List.filter_cons_of_pos (by simp [endsBefore, hend, hstop, hunder])]
          · have hlt : cursor < t.stop := Nat.lt_of_not_le hstop
            have hall := List.forall_mem_cons.mpr
              ⟨⟨le_start_of_not_isUnder hunder hend hlt, hnonempty⟩, hbehind (Nat.le_of_lt hlt)⟩
            rw [split_of_behind hall, filter_endsBefore_of_behind hall]

theorem split_stream_fst (source : Text) (cursor : Nat) :
    (split (Token.stream source) cursor).1 = tokensBefore source cursor := by
  have hspans := spans_stream source
  obtain ⟨body, hstream, hbody⟩ := hspans.ending
  refine split_fst_eq_filter ?_ ?_
  · have hordered := hspans.ordered
    rw [hstream] at hordered ⊢
    obtain ⟨hfirst, _, hacross⟩ := List.pairwise_append.mp hordered
    refine List.pairwise_append.mpr ⟨?_, List.pairwise_singleton _ _, fun t ht u hu => ?_⟩
    · exact hfirst.imp_of_mem fun ht _ hle => ⟨(hbody _ ht).1, hle⟩
    · exact ⟨(hbody t ht).1, hacross t ht u hu⟩
  · rw [hstream]
    intro t ht hkind
    rcases List.mem_append.mp ht with hmem | hlast
    · exact (hbody t hmem).2.2
    · rw [List.mem_singleton.mp hlast] at hkind
      exact absurd rfl hkind

theorem mem_tokensBefore {t : Token} (h : t ∈ tokensBefore source cursor) :
    t ∈ Token.stream source ∧ t.stop ≤ cursor := by
  obtain ⟨hmem, hkept⟩ := List.mem_filter.mp h
  unfold endsBefore at hkept
  simp only [Bool.and_eq_true, decide_eq_true_eq] at hkept
  exact ⟨hmem, hkept.1.2⟩

/-- What is typed starts at the cursor, or where the token under it starts. -/
theorem split_stream_snd (source : Text) (cursor : Nat) :
    (split (Token.stream source) cursor).2 = cursor ∨
      ∃ t ∈ Token.stream source, isUnder cursor t = true ∧
        (split (Token.stream source) cursor).2 = t.start := by
  rcases split_cases (Token.stream source) cursor with
    ⟨a, t, b, hstream, hunder, hsplit⟩ | ⟨_, hsplit⟩
  · refine Or.inr ⟨t, ?_, hunder, ?_⟩
    · rw [hstream]
      exact List.mem_append_right a List.mem_cons_self
    · rw [hsplit]
  · rw [hsplit]
    exact Or.inl rfl

/-! ### Where a context stands -/

theorem at?_eq (source : Text) (cursor : Nat) :
    at? source cursor =
      if (Text.splitAtByte? cursor source).isSome then
        ofPlace? source (split (Token.stream source) cursor).2 cursor
          (reached (tokensBefore source cursor))
      else none := by
  rw [← split_stream_fst]
  rfl

theorem ofPlace?_eq_none_iff {start : Nat} {p : Place} :
    ofPlace? source start cursor p = none ↔ ∃ f, p = .listNext f := by
  cases p <;> simp [ofPlace?]

theorem start_le_stop {t : Token} (h : t ∈ Token.stream source) : t.start ≤ t.stop := by
  have hstop := (Token.tiles_stream source).stop_eq t h
  omega

/--
A context starts between two characters, at the cursor or before it; one that is not of an operator
starts at the cursor or where the token under it starts.
-/
theorem position_of_at? (h : at? source cursor = some c) :
    c.position ≤ cursor ∧ source.IsBoundary c.position ∧
      (c.kind ≠ .operator → c.position = cursor ∨
        ∃ t ∈ Token.stream source, t.start = c.position ∧ cursor ≤ t.stop) := by
  rw [at?_eq] at h
  split_ifs at h with hcursor
  have hboundary : ∀ t ∈ Token.stream source, source.IsBoundary t.start := fun t ht =>
    Text.isBoundary_of_between? ((spans_stream source).slices t ht)
  rcases (ofPlace?_cases h).2 with ⟨_, hposition⟩ | ⟨hkind, hbegun⟩
  · rw [hposition]
    rcases split_stream_snd source cursor with hcut | ⟨t, ht, hunder, hcut⟩
    · rw [hcut]
      exact ⟨Nat.le_refl _, Text.splitAtByte?_isSome_iff.mp hcursor, fun _ => Or.inl rfl⟩
    · obtain ⟨_, hstart, hstop⟩ := stop_le_of_isUnder hunder
      rw [hcut]
      exact ⟨Nat.le_of_lt hstart, hboundary t ht, fun _ => Or.inr ⟨t, ht, rfl, hstop⟩⟩
  · -- an operator of several words starts where the first of them does
    obtain ⟨a, t, b, hbefore, hstart, _⟩ := exists_of_begun hbegun
    have ht : t ∈ tokensBefore source cursor := by
      rw [hbefore]
      exact List.mem_append_right a List.mem_cons_self
    obtain ⟨hmem, hstop⟩ := mem_tokensBefore ht
    have hle := start_le_stop hmem
    rw [← hstart]
    exact ⟨by omega, hboundary t hmem, fun hne => absurd hkind hne⟩

theorem at?_eq_none_iff :
    at? source cursor = none ↔
      ¬source.IsBoundary cursor ∨ ∃ f, reached (tokensBefore source cursor) = .listNext f := by
  rw [at?_eq, ← Text.splitAtByte?_isSome_iff]
  by_cases hcursor : (Text.splitAtByte? cursor source).isSome = true
  · rw [if_pos hcursor, ofPlace?_eq_none_iff, or_iff_right (not_not_intro hcursor)]
  · rw [if_neg hcursor]
    exact iff_of_true rfl (Or.inl hcursor)

/-- What is typed is what stands between the start of the context and the cursor. -/
theorem between?_of_at? (h : at? source cursor = some c) :
    source.between? c.position cursor = some c.typed := by
  obtain ⟨hle, hboundary, _⟩ := position_of_at? h
  rw [at?_eq] at h
  split_ifs at h with hcursor
  obtain ⟨part, hpart⟩ :=
    Text.exists_between? hboundary (Text.splitAtByte?_isSome_iff.mp hcursor) hle
  have htyped := (ofPlace?_cases h).1
  rw [hpart, Option.getD_some] at htyped
  rw [hpart, htyped]

/--
**A context is a part of the source.**  There is none exactly where the cursor is past the end or
inside a character, or the tokens before it end behind a value of a list.  Otherwise what is
typed stands between the start of the context and the cursor, it is at most the beginning of one
token unless it is an operator, and splicing replaces it and nothing else.
-/
theorem at?_spec (source : Text) (cursor : Nat) :
    (at? source cursor = none ↔
        ¬source.IsBoundary cursor ∨ ∃ f, reached (tokensBefore source cursor) = .listNext f) ∧
      ((∃ f, reached (tokensBefore source cursor) = .listNext f) ↔
        Place.BehindListed (tokensBefore source cursor)) ∧
      ∀ c, at? source cursor = some c → c.position ≤ cursor ∧
        ∃ head tail, source.before? c.position = some head ∧
          source.between? c.position cursor = some c.typed ∧ source.after? cursor = some tail ∧
          (c.kind ≠ .operator →
            c.typed = [] ∨ ∃ t ∈ Token.stream source, t.start = c.position ∧ c.typed <+: t.text) ∧
          (∀ replacement, c.splice source replacement = head ++ replacement ++ tail) ∧
          c.splice source c.typed = source := by
  refine ⟨at?_eq_none_iff, Place.exists_reached_eq_listNext_iff, fun c hc => ?_⟩
  obtain ⟨hle, _, htoken⟩ := position_of_at? hc
  have hbetween := between?_of_at? hc
  obtain ⟨head, tail, hsource, hposition, hcursor⟩ := Text.between?_eq_some_iff.mp hbetween
  have hbefore : source.before? c.position = some head := by
    rw [hsource, ← hposition, List.append_assoc, Text.before?_append]
  have hafter : source.after? cursor = some tail := by
    rw [hsource, ← hcursor, Text.after?_append]
  have hsplice : ∀ replacement, c.splice source replacement = head ++ replacement ++ tail := by
    intro replacement
    rw [hsource, splice_append_append hposition]
  refine ⟨hle, head, tail, hbefore, hbetween, hafter, fun hkind => ?_, hsplice, ?_⟩
  · rcases htoken hkind with hnone | ⟨t, ht, hstart, hstop⟩
    · rw [← hcursor, Text.byteLength_append, hposition] at hnone
      refine Or.inl ?_
      by_contra hne
      have hpos := Text.byteLength_pos hne
      omega
    · have hslice := (spans_stream source).slices t ht
      rw [hstart] at hslice
      exact Or.inr ⟨t, ht, hstart, Text.isPrefix_of_between? hbetween hslice hstop⟩
  · rw [hsplice]
    exact hsource.symm

/-- An operator of two words, the second cut by the cursor, behind a letter of two bytes. -/
theorem at?_spec_of_words :
    at? "title = ä OR type IS NOT" 23 = some ⟨.operator, "IS N", 19, some .type⟩ ∧
      ∀ replacement,
        splice ⟨.operator, "IS N", 19, some .type⟩ "title = ä OR type IS NOT" replacement =
        "title = ä OR type " ++ replacement ++ "OT" := by
  have hcontext : at? "title = ä OR type IS NOT" 23 = some ⟨.operator, "IS N", 19, some .type⟩ := by
    decide +kernel
  have hhead : Text.before? "title = ä OR type IS NOT" 19 = some "title = ä OR type " := by decide
  have htail : Text.after? "title = ä OR type IS NOT" 23 = some "OT" := by decide
  obtain ⟨_, head, tail, hbefore, _, hafter, _, hsplice, _⟩ :=
    (at?_spec "title = ä OR type IS NOT" 23).2.2 _ hcontext
  obtain rfl := Option.some.inj (hbefore.symm.trans hhead)
  obtain rfl := Option.some.inj (hafter.symm.trans htail)
  exact ⟨hcontext, hsplice⟩

end Context

end TicketSearch
