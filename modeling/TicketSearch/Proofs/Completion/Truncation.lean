/-
Completion sees only the text before the cursor.

The automaton behind completion is fed with the tokens of the whole query, and the lexer
looks ahead, so that this is no matter of course.  It comes from what happens when a text
is cut off.  A lexeme that ends before the cut is the same without the rest of the text;
one that reaches across the cut becomes a single lexeme from its start up to the cut, of a
kind that is still open there (`scan_truncates`).  So the tokens of the part are those of
the whole up to the cursor, but for the one under it (`lexemesFrom_truncates`), and of
that one completion only asks where it starts.
-/
import TicketSearch.Proofs.Completion.Cursor

namespace TicketSearch

open Context (isOpenAtEnd isUnder)

/-! ### Cutting off a lexeme -/

namespace Lexeme

variable {c : Char} {a b : Text}

/-- A lexeme of some kind that is not complete: what is typed next may belong to it. -/
def IsOpen (k : TokenKind) (l : Text) : Prop :=
  ∀ start stop, isOpenAtEnd ⟨k, l, start, stop⟩ = true

theorem isOpen_unknown (l : Text) : IsOpen .unknown l :=
  fun _ _ => rfl

theorem isOpen_sign (h : c = '<' ∨ c = '>') : IsOpen .operator [c] := by
  intro start stop
  rcases h with rfl | rfl <;> rfl

/-- A word is always open. -/
theorem isOpen_wordKind (l : Text) : IsOpen (wordKind l) l := by
  have hkeywords : ∀ entry ∈ keywords, entry.2 ∈ [TokenKind.andWord, .orWord, .notWord, .inWord,
      .isWord, .emptyWord] := by decide
  intro start stop
  unfold isOpenAtEnd
  rcases wordKind_cases l with ⟨hk, _⟩ | ⟨hk, _⟩ | ⟨hk, _⟩ | hk | hk
  · rw [hk]
  · rw [hk]
  · rw [hk]
  · rw [hk]
  · have hmem : wordKind l ∈ _ := hkeywords _ hk
    generalize wordKind l = k at hmem
    simp only [List.mem_cons, List.not_mem_nil, or_false] at hmem
    rcases hmem with rfl | rfl | rfl | rfl | rfl | rfl <;> rfl

/--
The first lexeme of a text that goes on behind a part `c :: a` of it, and the first lexeme of
that part alone: the same one, or the whole of the part as the beginning of a longer one.
-/
inductive Truncates (c : Char) (a : Text) : TokenKind × Text → TokenKind × Text → Prop
  | same (lexeme : TokenKind × Text) : Truncates c a lexeme lexeme
  | cut (k k' : TokenKind) (x : Text) (more : x ≠ []) (isOpen : IsOpen k' (c :: a)) :
      Truncates c a (k, c :: (a ++ x)) (k', c :: a)

theorem withEquals_truncates {alone : TokenKind} (hopen : IsOpen alone [c]) :
    Truncates c a (withEquals alone c (a ++ b)) (withEquals alone c a) := by
  cases a with
  | nil =>
      by_cases heq : b.head? = some '='
      · obtain ⟨r, rfl⟩ := List.head?_eq_some_iff.mp heq
        exact .cut .operator alone ['='] (List.cons_ne_nil _ _) hopen
      · rw [List.nil_append, withEquals_of_ends alone heq]
        exact .same _
  | cons d a =>
      have hsame : withEquals alone c (d :: a ++ b) = withEquals alone c (d :: a) := by
        by_cases hd : d = '='
        · rw [hd]
          rfl
        · have hne : ∀ r : Text, (d :: r).head? ≠ some '=' := fun r h => hd (Option.some.inj h)
          rw [List.cons_append, withEquals_of_ends alone (hne _), withEquals_of_ends alone (hne _)]
      rw [hsame]
      exact .same _

theorem quoted_of_open (h : ∀ d ∈ a, d ≠ '"') : quoted a = (.unknown, '"' :: a) := by
  have hdrop : a.dropWhile (· != '"') = [] :=
    List.dropWhile_eq_nil_iff.mpr fun d hd => bne_iff_ne.mpr (h d hd)
  unfold quoted
  rw [hdrop]

theorem quoted_truncates : Truncates '"' a (quoted (a ++ b)) (quoted a) := by
  by_cases hclosed : '"' ∈ a
  · obtain ⟨body, r, rfl, hbody⟩ := List.eq_append_cons_of_mem hclosed
    have hcloses : ∀ d ∈ body, d ≠ '"' := fun d hd heq => hbody (heq ▸ hd)
    rw [List.append_assoc, List.cons_append, quoted_of_closes hcloses, quoted_of_closes hcloses]
    exact .same _
  · have ha : ∀ d ∈ a, d ≠ '"' := fun d hd heq => hclosed (heq ▸ hd)
    rw [quoted_of_open ha]
    by_cases hlater : '"' ∈ b
    · obtain ⟨body, r, rfl, hbody⟩ := List.eq_append_cons_of_mem hlater
      have hcloses : ∀ d ∈ a ++ body, d ≠ '"' :=
        List.forall_mem_append.mpr ⟨ha, fun d hd heq => hbody (heq ▸ hd)⟩
      rw [← List.append_assoc, quoted_of_closes hcloses, List.cons_append, List.append_assoc]
      exact .cut .string .unknown (body ++ ['"']) (by simp) (isOpen_unknown _)
    · have hb : ∀ d ∈ a ++ b, d ≠ '"' :=
        List.forall_mem_append.mpr ⟨ha, fun d hd heq => hlater (heq ▸ hd)⟩
      rw [quoted_of_open hb]
      by_cases hnil : b = []
      · rw [hnil, List.append_nil]
        exact .same _
      · exact .cut .unknown .unknown b hnil (isOpen_unknown _)

/-- More text behind a character can only make it the start of a word. -/
theorem startsWord_append (h : startsWord c a = true) : startsWord c (a ++ b) = true := by
  cases a with
  | nil =>
      unfold startsWord at h ⊢
      have hdash : (c == '-' && ([] : Text).head?.any Char.isDigit) = false := Bool.and_false _
      rw [hdash, Bool.or_false] at h
      rw [h, Bool.true_or]
  | cons d a => exact h

/-- The lexeme that starts where no mark, sign or quote does. -/
def bareWord (c : Char) (rest : Text) : TokenKind × Text :=
  if startsWord c rest then
    (wordKind (c :: rest.takeWhile isWordChar), c :: rest.takeWhile isWordChar)
  else (.unknown, [c])

/-- Only the longest run of word characters counts. -/
theorem bareWord_congr (h : a.takeWhile isWordChar = b.takeWhile isWordChar) :
    bareWord c a = bareWord c b := by
  unfold bareWord
  rw [← startsWord_takeWhile, h, startsWord_takeWhile]

theorem bareWord_truncates : Truncates c a (bareWord c (a ++ b)) (bareWord c a) := by
  by_cases hall : ∀ d ∈ a, isWordChar d = true
  · have hpart : a.takeWhile isWordChar = a := List.takeWhile_eq_self_iff.mpr hall
    have hwhole : (a ++ b).takeWhile isWordChar = a ++ b.takeWhile isWordChar :=
      List.takeWhile_append_of_pos hall
    cases hmore : b.takeWhile isWordChar with
    | nil =>
        rw [hmore, List.append_nil] at hwhole
        rw [bareWord_congr (hwhole.trans hpart.symm)]
        exact .same _
    | cons d x =>
        rw [hmore] at hwhole
        unfold bareWord
        rw [hwhole, hpart]
        by_cases hstarts : startsWord c (a ++ b) = true
        · rw [if_pos hstarts]
          by_cases hstartsPart : startsWord c a = true
          · rw [if_pos hstartsPart]
            exact .cut _ _ (d :: x) (List.cons_ne_nil _ _) (isOpen_wordKind _)
          · -- a dash, of which the digit behind it is cut off
            have hnil : a = [] := by
              cases a with
              | nil => rfl
              | cons e a => exact absurd hstarts hstartsPart
            rw [if_neg hstartsPart, hnil]
            exact .cut _ _ (d :: x) (List.cons_ne_nil _ _) (isOpen_unknown _)
        · rw [if_neg hstarts, if_neg fun h => hstarts (startsWord_append h)]
          exact .same _
  · have hlength : ¬(a.takeWhile isWordChar).length = a.length := by
      intro hlength
      have heq : a.takeWhile isWordChar = a :=
        (List.takeWhile_sublist _).eq_of_length hlength
      exact hall (List.takeWhile_eq_self_iff.mp heq)
    have hsame : (a ++ b).takeWhile isWordChar = a.takeWhile isWordChar := by
      rw [List.takeWhile_append, if_neg hlength]
    rw [bareWord_congr hsame]
    exact .same _

/-- What sort of lexeme starts with a character does not depend on what comes behind it. -/
theorem scan_cases (c : Char) :
    (∃ k, ∀ rest, scan c rest = (k, [c])) ∨
      (∃ alone, IsOpen alone [c] ∧ ∀ rest, scan c rest = withEquals alone c rest) ∨
      (c = '"' ∧ ∀ rest, scan c rest = quoted rest) ∨ ∀ rest, scan c rest = bareWord c rest := by
  cases hmark : markKind? c with
  | some k => exact Or.inl ⟨k, fun rest => scan_of_mark hmark⟩
  | none =>
      refine Or.inr ?_
      by_cases hsign : c = '<' ∨ c = '>'
      · refine Or.inl ⟨.operator, isOpen_sign hsign, fun rest => ?_⟩
        rw [scan_of_not_mark hmark, if_pos hsign]
      · by_cases hbang : c = '!'
        · refine Or.inl ⟨.unknown, isOpen_unknown _, fun rest => ?_⟩
          rw [scan_of_not_mark hmark, if_neg hsign, if_pos hbang]
        · refine Or.inr ?_
          by_cases hquote : c = '"'
          · refine Or.inl ⟨hquote, fun rest => ?_⟩
            rw [scan_of_not_mark hmark, if_neg hsign, if_neg hbang, if_pos hquote]
          · refine Or.inr fun rest => ?_
            rw [scan_of_not_mark hmark, if_neg hsign, if_neg hbang, if_neg hquote]
            rfl

/-- **A text that is cut off leaves its first lexeme as it is, or leaves the
open beginning of it.** -/
theorem scan_truncates (c : Char) (a b : Text) : Truncates c a (scan c (a ++ b)) (scan c a) := by
  rcases scan_cases c with ⟨k, h⟩ | ⟨alone, hopen, h⟩ | ⟨rfl, h⟩ | h
  · rw [h, h]
    exact .same _
  · rw [h, h]
    exact withEquals_truncates hopen
  · rw [h, h]
    exact quoted_truncates
  · rw [h, h]
    exact bareWord_truncates

/-- A lexeme starts with the character it is found at, and goes on with what follows it. -/
theorem exists_scan_eq (c : Char) (rest : Text) :
    ∃ l r, (scan c rest).2 = c :: l ∧ rest = l ++ r := by
  rcases scan_cases c with ⟨k, h⟩ | ⟨alone, _, h⟩ | ⟨rfl, h⟩ | h
  · exact ⟨[], rest, by rw [h], rfl⟩
  · by_cases heq : rest.head? = some '='
    · obtain ⟨r, rfl⟩ := List.head?_eq_some_iff.mp heq
      exact ⟨['='], r, by rw [h, withEquals_cons], rfl⟩
    · exact ⟨[], rest, by rw [h, withEquals_of_ends alone heq], rfl⟩
  · by_cases hclosed : '"' ∈ rest
    · obtain ⟨body, r, rfl, hbody⟩ := List.eq_append_cons_of_mem hclosed
      have hcloses : ∀ d ∈ body, d ≠ '"' := fun d hd heq => hbody (heq ▸ hd)
      refine ⟨body ++ ['"'], r, ?_, (List.append_cons body '"' r)⟩
      rw [h, quoted_of_closes hcloses]
      rfl
    · have hopen : ∀ d ∈ rest, d ≠ '"' := fun d hd heq => hclosed (heq ▸ hd)
      exact ⟨rest, [], by rw [h, quoted_of_open hopen], (List.append_nil rest).symm⟩
  · by_cases hstarts : startsWord c rest = true
    · refine ⟨rest.takeWhile isWordChar, rest.dropWhile isWordChar, ?_,
        List.takeWhile_append_dropWhile.symm⟩
      rw [h, bareWord, if_pos hstarts]
    · exact ⟨[], rest, by rw [h, bareWord, if_neg hstarts], rfl⟩

end Lexeme

/-! ### Cutting off a text -/

namespace Token

open Lexeme (scan)

/--
The tokens of a text and those of the part of it before an offset.  They are the same up to
there; behind them the part has no token, or what is left of one that reaches across.
-/
inductive Truncates (cursor : Nat) : List Token → List Token → Prop
  | between (rest : List Token) (behind : ∀ t ∈ rest, cursor ≤ t.start ∧ t.start < t.stop) :
      Truncates cursor rest []
  | across (t t' : Token) (rest : List Token) (start : t'.start = t.start)
      (starts : t.start < cursor) (reaches : cursor < t.stop) (stop : t'.stop = cursor)
      (isOpen : isOpenAtEnd t' = true) : Truncates cursor (t :: rest) [t']
  | before (t : Token) (ends : t.stop ≤ cursor) {ts ts' : List Token}
      (rest : Truncates cursor ts ts') : Truncates cursor (t :: ts) (t :: ts')

/-- Marking the fields looks only back. -/
theorem Truncates.markFields {cursor : Nat} {ts ts' : List Token} (h : Truncates cursor ts ts')
    (expected afterIn : Bool) :
    Truncates cursor (markFields expected afterIn ts) (markFields expected afterIn ts') := by
  induction h generalizing expected afterIn with
  | between rest behind =>
      refine .between _ fun t ht => ?_
      obtain ⟨raw, hraw, b, rfl⟩ := exists_of_mem_markFields ht
      rw [markField_start, markField_stop]
      exact behind raw hraw
  | across t t' rest start starts reaches stop isOpen =>
      refine .across _ _ _ ?_ ?_ ?_ ?_ ?_
      · rw [markField_start, markField_start, start]
      · rw [markField_start]
        exact starts
      · rw [markField_stop]
        exact reaches
      · rw [markField_stop]
        exact stop
      · rcases markField_cases expected t' with h | ⟨h, _⟩
        · rw [h]
          exact isOpen
        · rw [h]
          rfl
  | before t ends _ ih =>
      refine .before _ ?_ (ih _ _)
      rw [markField_stop]
      exact ends

/-- Tokens start where the text does or later, and none is empty. -/
theorem bounds_of_mem_lexemesFrom {o skip : Nat} {s : Text} {t : Token}
    (h : t ∈ lexemesFrom o skip s) : o ≤ t.start ∧ t.start < t.stop := by
  induction s generalizing o skip with
  | nil => cases skip <;> cases h
  | cons c cs ih =>
      cases skip with
      | succ skip =>
          have hrest : o + c.utf8Size ≤ t.start ∧ t.start < t.stop := ih h
          omega
      | zero =>
          by_cases hblank : isBlank c = true
          · rw [lexemesFrom_blank hblank] at h
            have hrest := ih h
            omega
          · rw [lexemesFrom_scan (eq_false_of_ne_true hblank)] at h
            rcases List.mem_cons.mp h with rfl | hmem
            · obtain ⟨l, r, hl, _⟩ := Lexeme.exists_scan_eq c cs
              have hc := c.utf8Size_pos
              simp only [hl, Text.byteLength_cons]
              omega
            · have hrest := ih hmem
              omega

/-- **The tokens of a part are those of the text up to its end.** -/
theorem lexemesFrom_truncates (o : Nat) (first last : Text) :
    Truncates (o + Text.byteLength first) (lexemesFrom o 0 (first ++ last))
      (lexemesFrom o 0 first) := by
  induction hlength : first.length using Nat.strongRecOn generalizing o first with
  | ind n ih =>
      cases first with
      | nil => exact .between _ fun t ht => bounds_of_mem_lexemesFrom ht
      | cons c first =>
          by_cases hblank : isBlank c = true
          · rw [List.cons_append, lexemesFrom_blank hblank, lexemesFrom_blank hblank,
              Text.byteLength_cons, ← Nat.add_assoc]
            refine ih first.length ?_ _ first rfl
            rw [← hlength, List.length_cons]
            omega
          · have hc : isBlank c = false := eq_false_of_ne_true hblank
            rw [List.cons_append, lexemesFrom_scan hc, lexemesFrom_scan hc]
            have htrunc := Lexeme.scan_truncates c first last
            generalize scan c (first ++ last) = lexeme at htrunc ⊢
            generalize hpart : scan c first = lexeme' at htrunc ⊢
            cases htrunc with
            | same _ =>
                obtain ⟨l, r, hl, rfl⟩ := Lexeme.exists_scan_eq c first
                rw [hpart] at hl
                have hends : o + Text.byteLength lexeme.2 ≤
                    o + Text.byteLength (c :: (l ++ r)) := by
                  rw [hl, Text.byteLength_cons, Text.byteLength_cons, Text.byteLength_append]
                  omega
                refine .before _ hends ?_
                rw [hl, List.append_assoc]
                show Truncates _ (lexemesFrom _ l.length _) (lexemesFrom _ l.length _)
                rw [lexemesFrom_skip, lexemesFrom_skip, Text.byteLength_cons,
                  Text.byteLength_append, ← Nat.add_assoc, ← Nat.add_assoc]
                refine ih r.length ?_ _ r rfl
                rw [← hlength, List.length_cons, List.length_append]
                omega
            | cut k k' x more isOpen =>
                have hnone : lexemesFrom (o + c.utf8Size) first.length first = [] := by
                  have h := lexemesFrom_skip (o + c.utf8Size) first []
                  rwa [List.append_nil] at h
                have hx := Text.byteLength_pos more
                have hc := c.utf8Size_pos
                show Truncates _ _ (_ :: lexemesFrom _ first.length first)
                rw [hnone]
                refine .across _ _ _ rfl ?_ ?_ rfl (isOpen _ _)
                · show o < o + Text.byteLength (c :: first)
                  rw [Text.byteLength_cons]
                  omega
                · show o + Text.byteLength (c :: first) < o + Text.byteLength (c :: (first ++ x))
                  rw [Text.byteLength_cons, Text.byteLength_cons, Text.byteLength_append]
                  omega

end Token

/-! ### What is under the cursor -/

namespace Context

open Token (Truncates)

variable {cursor : Nat} {t : Token} {ts : List Token}

/-- What is left of a token that reaches across the cursor is under it as the token is. -/
theorem isUnder_across {t' : Token} (hkind : t.kind ≠ .endOfInput) (hkind' : t'.kind ≠ .endOfInput)
    (start : t'.start = t.start) (starts : t.start < cursor) (reaches : cursor < t.stop)
    (stop : t'.stop = cursor) (isOpen : isOpenAtEnd t' = true) :
    isUnder cursor t = true ∧ isUnder cursor t' = true := by
  unfold isUnder
  constructor
  · simp [hkind, starts, reaches]
  · simp [hkind', start, starts, stop, isOpen]

/-- The tokens of a text and those of its part before the cursor split alike. -/
theorem split_truncates {ts' : List Token} (h : Truncates cursor ts ts')
    (hkinds : ∀ t ∈ ts, t.kind ≠ .endOfInput) (hkinds' : ∀ t ∈ ts', t.kind ≠ .endOfInput)
    {eof eof' : Token} (heof : eof.kind = .endOfInput) (heof' : eof'.kind = .endOfInput)
    (hstart : cursor ≤ eof.start) (hstart' : cursor ≤ eof'.start) :
    split (ts ++ [eof]) cursor = split (ts' ++ [eof']) cursor := by
  induction h with
  | between rest behind =>
      rw [split_of_behind, split_of_behind]
      · intro t ht
        cases List.mem_singleton.mp ht
        exact ⟨hstart', fun hne => absurd heof' hne⟩
      · intro t ht
        rcases List.mem_append.mp ht with hmem | hend
        · exact ⟨(behind t hmem).1, fun _ => (behind t hmem).2⟩
        · cases List.mem_singleton.mp hend
          exact ⟨hstart, fun hne => absurd heof hne⟩
  | across t t' rest start starts reaches stop isOpen =>
      obtain ⟨hunder, hunder'⟩ := isUnder_across (hkinds t List.mem_cons_self)
        (hkinds' t' List.mem_cons_self) start starts reaches stop isOpen
      rw [List.cons_append, List.cons_append, split_of_under hunder, split_of_under hunder', start]
  | @before t ends ts ts' _ ih =>
      have hsplit := ih (fun u hu => hkinds u (List.mem_cons_of_mem _ hu))
        (fun u hu => hkinds' u (List.mem_cons_of_mem _ hu))
      rw [List.cons_append, List.cons_append]
      by_cases hunder : isUnder cursor t = true
      · rw [split_of_under hunder, split_of_under hunder]
      · have hfalse := eq_false_of_ne_true hunder
        have hkind := hkinds t List.mem_cons_self
        rw [split_of_before hfalse hkind ends, split_of_before hfalse hkind ends, hsplit]

end Context

/-! ### The context -/

namespace Text

/-- A cut within a first part of a text is a cut of that part. -/
theorem splitAtByte?_append_of_le {s t : Text} {n : Nat} (h : n ≤ byteLength s) :
    splitAtByte? n (s ++ t) = (splitAtByte? n s).map fun parts => (parts.1, parts.2 ++ t) := by
  induction s generalizing n with
  | nil =>
      obtain rfl : n = 0 := Nat.le_zero.mp h
      simp [splitAtByte?]
  | cons c s ih =>
      cases n with
      | zero => simp [splitAtByte?]
      | succ n =>
          rw [byteLength_cons] at h
          simp only [List.cons_append, splitAtByte?]
          by_cases hc : c.utf8Size ≤ n + 1
          · rw [if_pos hc, if_pos hc, ih (by omega)]
            simp [Option.map_map, Function.comp_def]
          · rw [if_neg hc, if_neg hc]
            rfl

/-- What stands before the end of a first part of a text stands in that part. -/
theorem between?_append_left (s t : Text) (p : Nat) :
    between? (s ++ t) p (byteLength s) = between? s p (byteLength s) := by
  unfold between?
  by_cases h : p ≤ byteLength s
  · rw [if_pos h, if_pos h]
    unfold after? before?
    rw [splitAtByte?_append_of_le h]
    cases hsplit : splitAtByte? p s with
    | none => rfl
    | some parts =>
        obtain ⟨a, b⟩ := parts
        obtain ⟨hs, ha⟩ := splitAtByte?_eq_some hsplit
        have hb : byteLength s - p = byteLength b := by
          rw [hs, byteLength_append]
          omega
        have hwhole := splitAtByte?_append b []
        rw [List.append_nil] at hwhole
        rw [hb]
        simp [hwhole]
  · rw [if_neg h, if_neg h]

end Text

namespace Context

/-- The context of a place does not depend on what stands behind the cursor. -/
theorem ofPlace?_append (first last : Text) (start : Nat) (place : Place) :
    ofPlace? (first ++ last) start (Text.byteLength first) place =
      ofPlace? first start (Text.byteLength first) place := by
  unfold ofPlace?
  simp only [Text.between?_append_left]

/-- What comes behind the cursor can be left out. -/
theorem at?_append (first last : Text) :
    at? (first ++ last) (Text.byteLength first) = at? first (Text.byteLength first) := by
  have htrunc := (Token.lexemesFrom_truncates 0 first last).markFields true false
  rw [Nat.zero_add] at htrunc
  have hsplit : split (Token.stream (first ++ last)) (Text.byteLength first) =
      split (Token.stream first) (Text.byteLength first) := by
    refine split_truncates htrunc (fun t ht => Token.kind_ne_endOfInput ht)
      (fun t ht => Token.kind_ne_endOfInput ht) rfl rfl ?_ (Nat.le_refl _)
    show Text.byteLength first ≤ Text.byteLength (first ++ last)
    rw [Text.byteLength_append]
    exact Nat.le_add_right _ _
  have hall := Text.splitAtByte?_append first []
  rw [List.append_nil] at hall
  unfold at?
  rw [Text.splitAtByte?_append, hall, if_pos Option.isSome_some, if_pos Option.isSome_some, hsplit]
  simp only [ofPlace?_append]

/--
**The context at a cursor depends on the text before the cursor only.**  It is what the
context would be if the query ended there; and there is none at an offset that does not
lie between two characters.
-/
theorem at?_eq_bind_before (source : Text) (cursor : Nat) :
    at? source cursor = (source.before? cursor).bind fun head => at? head cursor := by
  unfold Text.before?
  cases hsplit : Text.splitAtByte? cursor source with
  | none =>
      unfold at?
      rw [hsplit]
      rfl
  | some parts =>
      obtain ⟨first, last⟩ := parts
      obtain ⟨rfl, rfl⟩ := Text.splitAtByte?_eq_some hsplit
      exact at?_append first last

end Context

end TicketSearch
