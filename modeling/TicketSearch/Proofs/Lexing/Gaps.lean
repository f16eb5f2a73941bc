/-
The blanks between the tokens of a source.

Every source is its tokens with blanks before each of them, also where characters start no
token: `Tiles` says this of a text and tokens that stand in it, and `tiles_stream` of a source
and its tokens.  So all slices that the offsets of the tokens ask for are there, those between
the tokens are blanks, and all of them in turn are the source.

The blanks can be replaced by others, at least one between any two tokens.  No lexeme looks
past a blank, so the new source is cut into the same lexemes (`map_spelling_weave`).
-/
import TicketSearch.Proofs.Completion
import TicketSearch.Proofs.Completion.Replacement

namespace TicketSearch

namespace Token

/-- Tokens with a gap before each. -/
def weave (gaps : List Text) (tokens : List Token) : Text :=
  (List.zipWith (fun gap t => gap ++ t.text) gaps tokens).flatten

@[simp] theorem weave_nil (gaps : List Text) : weave gaps [] = [] := by
  unfold weave
  rw [List.zipWith_nil_right]
  rfl

@[simp] theorem weave_cons (gap : Text) (gaps : List Text) (t : Token) (ts : List Token) :
    weave (gap :: gaps) (t :: ts) = gap ++ (t.text ++ weave gaps ts) := by
  unfold weave
  rw [List.zipWith_cons_cons, List.flatten_cons, List.append_assoc]

/-- A source has as many gaps as tokens, the end of the input included, and the end has no text. -/
theorem weave_concat {gaps : List Text} {ts : List Token} (h : gaps.length = ts.length)
    (t : Token) : weave gaps (ts ++ [t]) = weave gaps ts := by
  unfold weave
  rw [← List.append_nil gaps, List.zipWith_append h, List.append_nil, List.zipWith_nil_left,
    List.append_nil]

/--
The parts of a source before each of its tokens, from a byte offset on; `none` when an offset
is past the end, falls inside a character, or comes after a later one.
-/
def gaps? (source : Text) (offset : Nat) : List Token → Option (List Text)
  | [] => some []
  | t :: ts =>
    (source.between? offset t.start).bind fun gap => (gaps? source t.stop ts).map (gap :: ·)

/-! ### Sources as tokens and blanks -/

/-- A text, from an offset on, is some tokens with blanks before each; they stand where they say. -/
inductive Tiles : Nat → Text → List Token → Prop
  | nil (o : Nat) : Tiles o [] []
  | cons {o : Nat} {gap s : Text} {t : Token} {ts : List Token} (blank : Text.Blank gap)
      (start : t.start = o + Text.byteLength gap) (stop : t.stop = t.start + Text.byteLength t.text)
      (more : Tiles t.stop s ts) : Tiles o (gap ++ (t.text ++ s)) (t :: ts)

namespace Tiles

variable {o : Nat} {s : Text} {t : Token} {ts : List Token}

/-- A token that starts right away has an empty gap. -/
theorem token (t : Token) (start : t.start = o) (stop : t.stop = t.start + Text.byteLength t.text)
    (more : Tiles t.stop s ts) : Tiles o (t.text ++ s) (t :: ts) :=
  .cons (fun _ hc => absurd hc List.not_mem_nil) start stop more

theorem blank {c : Char} (hc : isBlank c = true) (h : Tiles (o + c.utf8Size) s (t :: ts)) :
    Tiles o (c :: s) (t :: ts) := by
  cases h with
  | @cons _ gap s _ _ blank start stop more =>
      rw [← List.cons_append]
      refine .cons ?_ ?_ stop more
      · intro d hd
        rcases List.mem_cons.mp hd with rfl | hmem
        · exact hc
        · exact blank d hmem
      · rw [start, Text.byteLength_cons, Nat.add_assoc]

theorem le_start (h : Tiles o s ts) : ∀ t ∈ ts, o ≤ t.start := by
  induction h with
  | nil o =>
      intro t ht
      cases ht
  | cons _ start stop _ ih =>
      intro t ht
      rcases List.mem_cons.mp ht with rfl | hmem
      · omega
      · have hle := ih t hmem
        omega

/-- No token starts before an earlier one ends. -/
theorem pairwise (h : Tiles o s ts) : ts.Pairwise fun t u => t.stop ≤ u.start := by
  induction h with
  | nil o => exact .nil
  | cons _ _ _ more ih => exact .cons more.le_start ih

theorem stop_eq (h : Tiles o s ts) : ∀ t ∈ ts, t.stop = t.start + Text.byteLength t.text := by
  induction h with
  | nil o =>
      intro t ht
      cases ht
  | cons _ _ stop _ ih => exact List.forall_mem_cons.mpr ⟨stop, ih⟩

/-- A source is cut at its first token into the gap, the text of the token, and
what comes behind. -/
theorem cut {front gap : Text} (hfront : Text.byteLength front = o)
    (start : t.start = o + Text.byteLength gap) (stop : t.stop = t.start + Text.byteLength t.text)
    (s : Text) :
    Text.between? (front ++ (gap ++ (t.text ++ s))) o t.start = some gap ∧
      Text.between? (front ++ (gap ++ (t.text ++ s))) t.start t.stop = some t.text ∧
        ∃ front', front ++ (gap ++ (t.text ++ s)) = front' ++ s ∧
          Text.byteLength front' = t.stop := by
  have hstart : Text.byteLength (front ++ gap) = t.start := by
    rw [Text.byteLength_append, hfront, start]
  have hstop : Text.byteLength (front ++ gap ++ t.text) = t.stop := by
    rw [Text.byteLength_append, hstart, stop]
  have hsource : front ++ (gap ++ (t.text ++ s)) = front ++ gap ++ t.text ++ s := by
    simp only [List.append_assoc]
  refine ⟨?_, ?_, front ++ gap ++ t.text, hsource, hstop⟩
  · rw [← hfront, ← hstart, ← List.append_assoc, Text.between?_append]
  · rw [hsource, ← hstart, ← hstop, Text.between?_append]

/-- The text of a token is the part of the source that its offsets mark. -/
theorem between? (h : Tiles o s ts) {front : Text} (hfront : Text.byteLength front = o) :
    ∀ t ∈ ts, Text.between? (front ++ s) t.start t.stop = some t.text := by
  induction h generalizing front with
  | nil o =>
      intro t ht
      cases ht
  | cons _ start stop _ ih =>
      obtain ⟨_, hown, front', hsource, hstop⟩ := cut hfront start stop _
      intro u hu
      rcases List.mem_cons.mp hu with rfl | hmem
      · exact hown
      · rw [hsource]
        exact ih hstop u hmem

/-- The gaps are blanks, and with the tokens they are the text. -/
theorem exists_gaps (h : Tiles o s ts) {front : Text} (hfront : Text.byteLength front = o) :
    ∃ gaps, gaps? (front ++ s) o ts = some gaps ∧ gaps.length = ts.length ∧
      (∀ gap ∈ gaps, Text.Blank gap) ∧ weave gaps ts = s := by
  induction h generalizing front with
  | nil o => exact ⟨[], rfl, rfl, fun gap hgap => absurd hgap List.not_mem_nil, rfl⟩
  | @cons o gap s t ts blank start stop _ ih =>
      obtain ⟨hgap, _, front', hsource, hstop⟩ := cut hfront start stop s
      obtain ⟨gaps, hgaps, hlength, hblank, hweave⟩ := ih hstop
      refine ⟨gap :: gaps, ?_, congrArg Nat.succ hlength, ?_, ?_⟩
      · rw [gaps?, hgap, hsource, hgaps]
        rfl
      · exact List.forall_mem_cons.mpr ⟨blank, hblank⟩
      · rw [weave_cons, hweave]

end Tiles

/-- What the lexer reads, marked, and the end of the input make up the text with blanks. -/
theorem Reads.tiles {o n : Nat} {s : Text} {ts : List Token} (h : Reads [] o s ts)
    (hn : n = o + Text.byteLength s) (expected afterIn : Bool) :
    Tiles o s (markFields expected afterIn ts ++ [⟨.endOfInput, [], n, n⟩]) := by
  induction h generalizing expected afterIn with
  | nil o =>
      exact .token ⟨.endOfInput, [], n, n⟩ hn rfl (.nil n)
  | @blank o c s ts blank _ ih =>
      rw [Text.byteLength_cons, ← Nat.add_assoc] at hn
      have hmore := ih hn expected afterIn
      generalize hus : markFields expected afterIn ts ++ [⟨.endOfInput, [], n, n⟩] = us at hmore ⊢
      cases us with
      | nil => exact absurd hus (List.append_ne_nil_of_right_ne_nil _ (List.cons_ne_nil _ _))
      | cons u us => exact hmore.blank blank
  | @lexeme o k c l s ts _ _ _ ih =>
      rw [Text.byteLength_append, ← Nat.add_assoc] at hn
      have hmore : ∀ k' e a, Tiles o (c :: l ++ s) (⟨k', c :: l, o, o + Text.byteLength (c :: l)⟩ ::
          (markFields e a ts ++ [⟨.endOfInput, [], n, n⟩])) :=
        fun k' e a => .token ⟨k', c :: l, o, o + Text.byteLength (c :: l)⟩ rfl rfl (ih hn e a)
      rcases markField_cases expected ⟨k, c :: l, o, o + Text.byteLength (c :: l)⟩ with
        hsame | ⟨hfield, _⟩
      · rw [markFields, hsame]
        exact hmore _ _ _
      · rw [markFields, hfield]
        exact hmore _ _ _

/-- **A source is its tokens with blanks before each.** -/
theorem tiles_stream (source : Text) : Tiles 0 source (stream source) :=
  (reads_all 0 source).tiles (Nat.zero_add _).symm true false

/-- What the offsets of some tokens promise, if the tokens are those of a source. -/
structure Spans (source : Text) (tokens : List Token) : Prop where
  /-- The end of the input is the last token and no other, and no other is empty. -/
  ending : ∃ body,
    tokens = body ++ [⟨.endOfInput, [], Text.byteLength source, Text.byteLength source⟩] ∧
      ∀ t ∈ body, t.kind ≠ .endOfInput ∧ t.text ≠ [] ∧ t.start < t.stop
  /-- Tokens come in order and are disjoint. -/
  ordered : tokens.Pairwise fun t u => t.stop ≤ u.start
  /-- Tokens start and end between characters, and have the text that stands there. -/
  slices : ∀ t ∈ tokens, Text.between? source t.start t.stop = some t.text
  /-- Nothing but blanks stands before, between and behind them. -/
  gaps : ∃ gaps, gaps? source 0 tokens = some gaps ∧ gaps.length = tokens.length ∧
    (∀ gap ∈ gaps, Text.Blank gap) ∧ weave gaps tokens = source

/-- **The tokens of a source keep what their offsets promise.** -/
theorem spans_stream (source : Text) : Spans source (stream source) := by
  have htiles := tiles_stream source
  have hfront : Text.byteLength [] = 0 := rfl
  refine ⟨⟨markFields true false (lexemesFrom 0 0 source), rfl, ?_⟩, htiles.pairwise,
    htiles.between? hfront, htiles.exists_gaps hfront⟩
  intro t ht
  obtain ⟨raw, hraw, b, rfl⟩ := exists_of_mem_markFields ht
  have hstop := htiles.stop_eq _ (List.mem_append_left _ ht)
  have hbounds := bounds_of_mem_lexemesFrom hraw
  rw [markField_start, markField_stop] at hstop ⊢
  refine ⟨kind_ne_endOfInput ht, ?_, hbounds.2⟩
  intro hempty
  rw [hempty, Text.byteLength_nil] at hstop
  omega

/-! ### Other blanks -/

theorem lexemesFrom_of_blank {gap : Text} (h : Text.Blank gap) (o : Nat) (s : Text) :
    lexemesFrom o 0 (gap ++ s) = lexemesFrom (o + Text.byteLength gap) 0 s := by
  induction gap generalizing o with
  | nil => rfl
  | cons c gap ih =>
      have hgap : Text.Blank gap := fun d hd => h d (List.mem_cons_of_mem c hd)
      rw [List.cons_append, lexemesFrom_blank (h c List.mem_cons_self), ih hgap,
        Text.byteLength_cons, Nat.add_assoc]

/-- Gaps that can stand before tokens: blanks, and at least one but before the first token. -/
structure Spacing (gaps : List Text) (tokens : List Token) : Prop where
  length : gaps.length = tokens.length
  blank : ∀ gap ∈ gaps, Text.Blank gap
  inner : ∀ gap ∈ gaps.tail, gap ≠ []

/-- Behind a token, what comes next separates. -/
theorem Spacing.separates {gap : Text} {gaps : List Text} {t : Token} {ts : List Token}
    (h : Spacing (gap :: gaps) (t :: ts)) : Lexeme.Separates (weave gaps ts) := by
  cases ts with
  | nil =>
      rw [weave_nil]
      exact Lexeme.separates_nil
  | cons u ts =>
      obtain ⟨next, gaps, rfl⟩ := List.exists_cons_of_length_eq_add_one (Nat.succ.inj h.length)
      rw [weave_cons]
      exact separates_of_blank (h.blank next (List.mem_cons_of_mem _ List.mem_cons_self))
        (h.inner next List.mem_cons_self)

theorem Spacing.tail {gap : Text} {gaps : List Text} {t : Token} {ts : List Token}
    (h : Spacing (gap :: gaps) (t :: ts)) : Spacing gaps ts :=
  ⟨Nat.succ.inj h.length, fun g hg => h.blank g (List.mem_cons_of_mem gap hg),
    fun g hg => h.inner g (List.mem_of_mem_tail hg)⟩

/-- **Lexemes that stand apart are read one by one**, with whatever blanks between them. -/
theorem map_spelling_weave {o : Nat} {s : Text} {ts : List Token} (h : Reads [] o s ts)
    {gaps : List Text} (hgaps : Spacing gaps ts) (o' : Nat) :
    (lexemesFrom o' 0 (weave gaps ts)).map spelling = ts.map spelling := by
  induction h generalizing gaps o' with
  | nil o =>
      rw [weave_nil]
      rfl
  | blank _ _ ih => exact ih hgaps o'
  | @lexeme o k c l s ts starts scans more ih =>
      obtain ⟨gap, gaps, rfl⟩ := List.exists_cons_of_length_eq_add_one hgaps.length
      have hscan : Lexeme.scan c (l ++ weave gaps ts) = (k, c :: l) := by
        cases s with
        | nil =>
            cases more
            rw [weave_nil]
            exact scans
        | cons d s =>
            refine Lexeme.scan_of_fits scans (List.cons_ne_nil _ _) ?_
            exact Lexeme.fits_of_separates hgaps.separates
      rw [weave_cons, lexemesFrom_of_blank (hgaps.blank gap List.mem_cons_self), List.cons_append,
        lexemesFrom_scan starts, hscan, List.map_cons, List.map_cons]
      refine congrArg₂ List.cons rfl ?_
      show (lexemesFrom _ l.length (l ++ weave gaps ts)).map spelling = _
      rw [lexemesFrom_skip]
      exact ih hgaps.tail _

end Token

end TicketSearch
