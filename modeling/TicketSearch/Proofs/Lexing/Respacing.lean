/-
Changing the blanks before a token.

A source can be cut between two of its tokens.  What stands before the cut is lexed as
before when something else that separates comes after it, and what stands after it is the
same lexemes wherever it starts (`Lexes.cut`).  So the blanks before a token can be
replaced by any others, at least one: the tokens before are the same to the byte, and
those after are spelled the same (`parted_of_respaces`).
-/
import TicketSearch.Proofs.Lexing

namespace TicketSearch

namespace Text

/-- Whether a text is made of blanks alone. -/
def Blank (t : Text) : Prop :=
  ∀ c ∈ t, isBlank c = true

instance (t : Text) : Decidable (Blank t) :=
  decidable_of_iff (t.all isBlank = true) List.all_eq_true

theorem byteLength_pos {t : Text} (h : t ≠ []) : 0 < byteLength t := by
  obtain ⟨c, t, rfl⟩ := List.exists_cons_of_ne_nil h
  have hc := c.utf8Size_pos
  rw [byteLength_cons]
  omega

/-- Of two first parts of a text the shorter is the first part of the longer. -/
theorem exists_append_of_le {a b c d : Text} (h : a ++ b = c ++ d)
    (hle : byteLength a ≤ byteLength c) : ∃ x, c = a ++ x ∧ b = x ++ d := by
  rcases List.append_eq_append_iff.mp h with hx | ⟨x, ha, hd⟩
  · exact hx
  · cases x with
    | nil =>
        refine ⟨[], ?_, hd.symm⟩
        rw [ha, List.append_nil, List.append_nil]
    | cons e x =>
        have he := e.utf8Size_pos
        rw [ha, byteLength_append, byteLength_cons] at hle
        omega

end Text

namespace Lexeme

variable {k : TokenKind} {l r r' : Text}

/-- Of what stands behind a lexeme only the first character matters. -/
theorem Scans.of_head? (h : Scans k l r) (hr : r'.head? = r.head?) : Scans k l r' := by
  cases h with
  | mark c mark => exact .mark c mark
  | sign c sign ends => exact .sign c sign (hr ▸ ends)
  | signEquals c sign => exact .signEquals c sign
  | quoted body closes => exact .quoted body closes
  | word c cs starts goes ends => exact .word c cs starts goes (hr ▸ ends)

theorem not_isBlank_of_isWordChar {c : Char} (h : isWordChar c = true) : isBlank c = false := by
  rw [← Bool.not_eq_true]
  intro hblank
  rw [isWordChar_of_isBlank hblank] at h
  cases h

/-- A lexeme does not end with a blank either. -/
theorem Scans.exists_concat (h : Scans k l r) : ∃ init c, l = init ++ [c] ∧ isBlank c = false := by
  have hcons := h.exists_cons
  cases h with
  | mark c _ | sign c _ _ =>
      obtain ⟨d, rest, heq, hblank⟩ := hcons
      cases heq
      exact ⟨[], c, rfl, hblank⟩
  | signEquals c _ => exact ⟨[c], '=', rfl, by decide⟩
  | quoted body _ => exact ⟨'"' :: body, '"', rfl, by decide⟩
  | word c cs starts goes _ =>
      by_cases hcs : cs = []
      · rw [hcs]
        exact ⟨[], c, rfl, not_isBlank_of_isWordChar (isWordChar_of_startsWord starts)⟩
      · refine ⟨c :: cs.dropLast, cs.getLast hcs, ?_, ?_⟩
        · rw [List.cons_append, List.dropLast_concat_getLast]
        · exact not_isBlank_of_isWordChar (goes _ (List.getLast_mem hcs))

theorem Scans.byteLength_pos (h : Scans k l r) : 0 < Text.byteLength l := by
  obtain ⟨c, rest, rfl, _⟩ := h.exists_cons
  have hc := c.utf8Size_pos
  rw [Text.byteLength_cons]
  omega

end Lexeme

namespace Token

open Lexeme (Scans Separates)

variable {o : Nat} {s : Text} {pre ts : List Token}

/-! ### Where tokens stand -/

/-- A token stands within its text, and is not empty. -/
theorem Lexes.bounds (h : Lexes o s ts) :
    ∀ t ∈ ts, o ≤ t.start ∧ t.start < t.stop ∧ t.stop ≤ o + Text.byteLength s := by
  induction h with
  | nil o =>
      intro t ht
      cases ht
  | @blank o c r ts blank _ ih =>
      intro t ht
      have hbounds := ih t ht
      rw [Text.byteLength_cons]
      omega
  | @lexeme o k l r ts scans _ ih =>
      intro t ht
      have hl := scans.byteLength_pos
      rw [Text.byteLength_append]
      rcases List.mem_cons.mp ht with rfl | hrest
      · exact ⟨Nat.le_refl o, by show o < o + Text.byteLength l; omega,
          by show o + Text.byteLength l ≤ _; omega⟩
      · have hbounds := ih t hrest
        omega

/-- A token starts between two characters of its text. -/
theorem Lexes.exists_split (h : Lexes o s ts) :
    ∀ t ∈ ts, ∃ a b, s = a ++ b ∧ o + Text.byteLength a = t.start := by
  induction h with
  | nil o =>
      intro t ht
      cases ht
  | @blank o c r ts blank _ ih =>
      intro t ht
      obtain ⟨a, b, rfl, hstart⟩ := ih t ht
      refine ⟨c :: a, b, rfl, ?_⟩
      rw [Text.byteLength_cons, ← hstart, Nat.add_assoc]
  | @lexeme o k l r ts scans _ ih =>
      intro t ht
      rcases List.mem_cons.mp ht with rfl | hrest
      · exact ⟨[], l ++ r, rfl, rfl⟩
      · obtain ⟨a, b, rfl, hstart⟩ := ih t hrest
        refine ⟨l ++ a, b, (List.append_assoc l a b).symm, ?_⟩
        rw [Text.byteLength_append, ← hstart, Nat.add_assoc]

/-- The offset at which the last of the tokens of a text start: that of the
first of them, or the end. -/
def boundary (o : Nat) (s : Text) (ts : List Token) : Nat :=
  ts.head?.elim (o + Text.byteLength s) Token.start

theorem boundary_cons (o : Nat) (s : Text) (t : Token) (ts : List Token) :
    boundary o s (t :: ts) = t.start := rfl

/-- A first part of the text does not count. -/
theorem boundary_append (o : Nat) (l r : Text) (ts : List Token) :
    boundary (o + Text.byteLength l) r ts = boundary o (l ++ r) ts := by
  cases ts with
  | nil =>
      show o + Text.byteLength l + Text.byteLength r = o + Text.byteLength (l ++ r)
      rw [Text.byteLength_append, Nat.add_assoc]
  | cons t ts => rfl

theorem Lexes.le_boundary {us : List Token} (h : Lexes o s us) (hts : ts <:+ us) :
    o ≤ boundary o s ts := by
  cases ts with
  | nil => exact Nat.le_add_right o _
  | cons t ts => exact (h.bounds t (hts.subset List.mem_cons_self)).1

/-- Tokens start right away where no blank stands. -/
theorem Lexes.boundary_eq_iff (h : Lexes o s ts) :
    boundary o s ts = o ↔ ∀ c, s.head? = some c → isBlank c = false := by
  cases h with
  | nil o =>
      constructor
      · intro _ c hc
        cases hc
      · exact fun _ => rfl
  | @blank _ c r _ blank rest =>
      have hle := rest.le_boundary List.suffix_rfl
      have hc := c.utf8Size_pos
      have heq := boundary_append o [c] r ts
      rw [Text.byteLength_cons, Text.byteLength_nil, Nat.add_zero] at heq
      constructor
      · intro h
        rw [List.singleton_append] at heq
        omega
      · intro h
        have hfalse := h c rfl
        rw [blank] at hfalse
        cases hfalse
  | @lexeme _ k l r ts scans rest =>
      obtain ⟨c, cs, rfl, hblank⟩ := scans.exists_cons
      refine ⟨fun _ d hd => ?_, fun _ => rfl⟩
      cases hd
      exact hblank

/-- Only blanks stand before the place at which tokens start. -/
theorem Lexes.eq_nil_of_boundary (h : Lexes o s (pre ++ ts)) (hb : boundary o s ts = o) :
    pre = [] := by
  cases pre with
  | nil => rfl
  | cons p pre =>
      have hlt : o < boundary o s ts := by
        generalize hus : p :: pre ++ ts = us at h
        cases h with
        | nil => cases hus
        | @blank _ c r _ blank rest =>
            have hle : o + Text.byteLength [c] ≤ boundary (o + Text.byteLength [c]) r ts :=
              rest.le_boundary (hus ▸ List.suffix_append (p :: pre) ts)
            have hc := c.utf8Size_pos
            rw [boundary_append, Text.byteLength_cons] at hle
            exact Nat.lt_of_lt_of_le (by omega) hle
        | @lexeme _ k l r us scans rest =>
            cases hus
            have hle := rest.le_boundary (List.suffix_append pre ts)
            have hl := scans.byteLength_pos
            rw [boundary_append] at hle
            omega
      omega

/-! ### Cutting a text between two tokens -/

theorem Lexes.of_blank {space tail : Text} (hspace : Text.Blank space)
    (h : Lexes o (space ++ tail) ts) : Lexes (o + Text.byteLength space) tail ts := by
  induction space generalizing o with
  | nil => exact h
  | cons c space ih =>
      have hc := hspace c List.mem_cons_self
      rw [Text.byteLength_cons, ← Nat.add_assoc]
      refine ih (fun d hd => hspace d (List.mem_cons_of_mem c hd)) ?_
      generalize hs : c :: space ++ tail = s at h
      cases h with
      | nil => cases hs
      | blank _ rest =>
          cases hs
          exact rest
      | lexeme scans _ =>
          obtain ⟨d, ds, rfl, hd⟩ := scans.exists_cons
          obtain ⟨rfl, _⟩ := List.cons.inj hs
          rw [hc] at hd
          cases hd

/-- Only blanks have no tokens. -/
theorem Lexes.blank_of_nil (h : Lexes o s []) : Text.Blank s := by
  generalize hts : ([] : List Token) = ts at h
  induction h with
  | nil o =>
      intro c hc
      cases hc
  | blank blank _ ih =>
      intro d hd
      rcases List.mem_cons.mp hd with rfl | hmem
      · exact blank
      · exact ih hts d hmem
  | lexeme _ _ _ => cases hts

theorem Lexes.to_blank {gap tail : Text} (hgap : Text.Blank gap)
    (h : Lexes (o + Text.byteLength gap) tail ts) : Lexes o (gap ++ tail) ts := by
  induction gap generalizing o with
  | nil => exact h
  | cons c gap ih =>
      refine .blank (hgap c List.mem_cons_self)
        (ih (fun d hd => hgap d (List.mem_cons_of_mem c hd)) ?_)
      rw [Nat.add_assoc]
      exact h

/-- A text is spelled the same wherever it starts. -/
theorem Lexes.spells (h : Lexes o s ts) : Spells s (ts.map spelling) := by
  induction h with
  | nil _ => exact spells_nil
  | blank blank _ ih => exact ih.blank blank
  | lexeme scans _ ih => exact ih.lexeme scans

/-- A lexeme that ends no later than some blanks ends before them. -/
theorem append_of_scans {k : TokenKind} {l r head space tail : Text} (h : Scans k l r)
    (hspace : Text.Blank space) (hs : l ++ r = head ++ (space ++ tail))
    (hle : Text.byteLength l ≤ Text.byteLength (head ++ space)) :
    ∃ head', head = l ++ head' ∧ r = head' ++ (space ++ tail) := by
  by_cases hlong : Text.byteLength l ≤ Text.byteLength head
  · exact Text.exists_append_of_le hs hlong
  · exfalso
    obtain ⟨spill, hl, hrest⟩ := Text.exists_append_of_le hs.symm (by omega)
    have hover : Text.byteLength spill ≤ Text.byteLength space := by
      rw [hl, Text.byteLength_append, Text.byteLength_append] at hle
      omega
    obtain ⟨more, hspace', _⟩ := Text.exists_append_of_le hrest.symm hover
    -- What reaches into the blanks would end with one of them.
    obtain ⟨init, c, hlast, hc⟩ := h.exists_concat
    have hmem : c ∈ spill := by
      rcases List.eq_nil_or_concat spill with rfl | ⟨front, d, rfl⟩
      · rw [hl, List.append_nil] at hlong
        exact absurd (Nat.le_refl _) hlong
      · rw [hl, List.concat_eq_append, ← List.append_assoc] at hlast
        obtain ⟨rfl⟩ := (List.append_inj' hlast rfl).2
        simp
    have hblank := hspace c (hspace' ▸ List.mem_append_left more hmem)
    rw [hc] at hblank
    cases hblank

/--
A text that is cut between two tokens, without the blanks `space` at the cut.  Those behind
the cut are the tokens of `tail`; those before it stay when something else comes there.
-/
structure Cut (o : Nat) (head space tail : Text) (pre ts : List Token) : Prop where
  behind : Lexes (o + Text.byteLength (head ++ space)) tail ts
  before : ∀ r ts', Separates r → Lexes (o + Text.byteLength head) r ts' →
    Lexes o (head ++ r) (pre ++ ts')

variable {head space tail : Text}

theorem Cut.nil (h : Lexes (o + Text.byteLength space) tail ts) : Cut o [] space tail [] ts :=
  ⟨h, fun _ _ _ hr => hr⟩

theorem Cut.blank {c : Char} (blank : isBlank c = true)
    (h : Cut (o + c.utf8Size) head space tail pre ts) : Cut o (c :: head) space tail pre ts := by
  constructor
  · have hbehind := h.behind
    rw [Nat.add_assoc] at hbehind
    exact hbehind
  · intro r ts' hseparates hr
    rw [Text.byteLength_cons, ← Nat.add_assoc] at hr
    exact .blank blank (h.before r ts' hseparates hr)

theorem Cut.lexeme {k : TokenKind} {l : Text} (scans : Scans k l (head ++ (space ++ tail)))
    (h : Cut (o + Text.byteLength l) head space tail pre ts) :
    Cut o (l ++ head) space tail (⟨k, l, o, o + Text.byteLength l⟩ :: pre) ts := by
  constructor
  · have hbehind := h.behind
    rw [Nat.add_assoc, ← Text.byteLength_append, ← List.append_assoc] at hbehind
    exact hbehind
  · intro r ts' hseparates hr
    rw [Text.byteLength_append, ← Nat.add_assoc] at hr
    have hscans : Scans k l (head ++ r) := by
      cases head with
      | nil => exact scans.of_separates hseparates
      | cons d head => exact scans.of_head? rfl
    rw [List.append_assoc]
    exact .lexeme hscans (h.before r ts' hseparates hr)

/-- A text can be cut where the last of its tokens start. -/
theorem Lexes.cut (hspace : Text.Blank space) (h : Lexes o (head ++ (space ++ tail)) (pre ++ ts))
    (hb : boundary o (head ++ (space ++ tail)) ts = o + Text.byteLength (head ++ space)) :
    Cut o head space tail pre ts := by
  induction hlength : head.length using Nat.strongRecOn generalizing o head pre with
  | ind n ih =>
      by_cases hhead : head = []
      · subst hhead
        have htail := h.of_blank hspace
        obtain rfl := htail.eq_nil_of_boundary ((boundary_append o space tail ts).trans hb)
        exact .nil htail
      · generalize hs : head ++ (space ++ tail) = s at h hb
        generalize hus : pre ++ ts = us at h
        cases h with
        | nil => exact absurd (List.append_eq_nil_iff.mp hs).1 hhead
        | @blank _ c r _ blank rest =>
            obtain ⟨c', head, rfl⟩ := List.exists_cons_of_ne_nil hhead
            obtain ⟨rfl, rfl⟩ := List.cons.inj hs
            subst hus
            refine .blank blank (ih head.length ?_ rest ?_ rfl)
            · rw [← hlength, List.length_cons]
              omega
            · rw [Nat.add_assoc]
              exact (boundary_append o [c'] _ ts).trans hb
        | @lexeme _ k l r us scans rest =>
            cases pre with
            | nil =>
                -- The first token starts behind a character of `head`.
                obtain ⟨c, head, rfl⟩ := List.exists_cons_of_ne_nil hhead
                have hc := c.utf8Size_pos
                rw [List.nil_append] at hus
                rw [hus, boundary_cons, List.cons_append, Text.byteLength_cons] at hb
                have hstart : o = o + (c.utf8Size + Text.byteLength (head ++ space)) := hb
                omega
            | cons p pre =>
                obtain ⟨rfl, rfl⟩ := List.cons.inj hus
                have hle := rest.le_boundary (List.suffix_append pre ts)
                rw [boundary_append, hb] at hle
                obtain ⟨head, rfl, rfl⟩ := append_of_scans scans hspace hs.symm (by omega)
                refine .lexeme scans (ih head.length ?_ rest ?_ rfl)
                · obtain ⟨c, cs, rfl, _⟩ := scans.exists_cons
                  rw [← hlength, List.length_append, List.length_cons]
                  omega
                · rw [boundary_append, hb, List.append_assoc, Text.byteLength_append, Nat.add_assoc]

/-! ### The blanks before a token of a source -/

theorem length_markFields (expected afterIn : Bool) (ts : List Token) :
    (markFields expected afterIn ts).length = ts.length := by
  induction ts generalizing expected afterIn with
  | nil => rfl
  | cons t ts ih => exact congrArg Nat.succ (ih _ _)

/-- Fields are marked from left to right. -/
theorem markFields_append (expected afterIn : Bool) (pre : List Token) :
    ∃ e a, ∀ ts, markFields expected afterIn (pre ++ ts) =
      markFields expected afterIn pre ++ markFields e a ts := by
  induction pre generalizing expected afterIn with
  | nil => exact ⟨expected, afterIn, fun ts => rfl⟩
  | cons t pre ih =>
      obtain ⟨e, a, h⟩ := ih (expectsFieldAfter afterIn (markField expected t).kind)
        ((markField expected t).kind == .inWord)
      exact ⟨e, a, fun ts => congrArg (markField expected t :: ·) (h ts)⟩

theorem known_of_markFields {expected afterIn : Bool}
    (h : ∀ t ∈ markFields expected afterIn ts, t.kind ≠ .unknown) :
    ∀ t ∈ ts, t.kind ≠ .unknown := by
  intro t ht hunknown
  obtain ⟨e, hmem⟩ : ∃ e, markField e t ∈ markFields expected afterIn ts := exists_markField_mem ht
  have hmarked := h _ hmem
  rcases markField_cases e t with hsame | ⟨_, hvalue⟩
  · rw [hsame] at hmarked
    exact hmarked hunknown
  · rw [hunknown] at hvalue
    cases hvalue

theorem markField_start (expected : Bool) (t : Token) : (markField expected t).start = t.start := by
  rcases markField_cases expected t with h | ⟨h, _⟩ <;> rw [h]

theorem markField_stop (expected : Bool) (t : Token) : (markField expected t).stop = t.stop := by
  rcases markField_cases expected t with h | ⟨h, _⟩ <;> rw [h]

/-- The last tokens of a source, with the end of the input, start where its last lexemes do. -/
theorem start_eq_boundary {e a : Bool} {n : Nat} {t : Token} {post : List Token}
    (h : t :: post = markFields e a ts ++ [⟨.endOfInput, [], n, n⟩])
    (hn : n = o + Text.byteLength s) : t.start = boundary o s ts := by
  cases ts with
  | nil =>
      obtain ⟨rfl, _⟩ := List.cons.inj h
      exact hn
  | cons raw ts =>
      obtain ⟨rfl, _⟩ := List.cons.inj h
      exact markField_start e raw

/-- The tokens of a source before one of them are its first lexemes, marked. -/
theorem exists_of_stream_eq {t : Token} {post : List Token} (h : stream s = pre ++ t :: post) :
    ∃ praw traw e a, lexemesFrom 0 0 s = praw ++ traw ∧
      (∀ ts, markFields true false (praw ++ ts) = pre ++ markFields e a ts) ∧
      t :: post =
        markFields e a traw ++ [⟨.endOfInput, [], Text.byteLength s, Text.byteLength s⟩] := by
  obtain ⟨e, a, hmark⟩ := markFields_append true false ((lexemesFrom 0 0 s).take pre.length)
  have hraw := (List.take_append_drop pre.length (lexemesFrom 0 0 s)).symm
  have hlength := congrArg List.length h
  unfold stream at h hlength
  rw [List.length_append, List.length_append, length_markFields, List.length_cons] at hlength
  rw [hraw, hmark, List.append_assoc] at h
  have hpre : (markFields true false ((lexemesFrom 0 0 s).take pre.length)).length =
      pre.length := by
    rw [length_markFields, List.length_take]
    have hle : (lexemesFrom 0 0 s).length + 1 = pre.length + (post.length + 1) := hlength
    omega
  obtain ⟨hfirst, hlast⟩ := List.append_inj h hpre
  refine ⟨_, _, e, a, hraw, fun ts => ?_, hlast.symm⟩
  rw [hmark, hfirst]

/--
A source with the blanks before a place replaced by others, at least one.  The two parts are
what comes before the place and what comes behind it.
-/
inductive Respaces (s : Text) (place : Nat) : Text → Text → Prop
  | mk (head space gap tail : Text) (source : s = head ++ (space ++ tail))
      (reaches : Text.byteLength (head ++ space) = place) (blank : Text.Blank space)
      (gapBlank : Text.Blank gap) (gapNonempty : gap ≠ []) : Respaces s place (head ++ gap) tail

/-- A source in two parts with its tokens: those of the first part end before it does. -/
structure Parted (first last : Text) (pre post : List Token) : Prop where
  stream_eq : stream (first ++ last) = pre ++ post
  before : ∀ t ∈ pre, t.kind ≠ .endOfInput ∧ t.stop < Text.byteLength first ∧
    ∃ a b, first = a ++ b ∧ Text.byteLength a = t.start
  behind : ∀ t ∈ post, Text.byteLength first ≤ t.start ∧ (t.kind ≠ .endOfInput → t.start < t.stop)

theorem bounds_of_mem_markFields {expected afterIn : Bool} (h : Lexes o s ts) {t : Token}
    (ht : t ∈ markFields expected afterIn ts) :
    o ≤ t.start ∧ t.start < t.stop ∧ t.stop ≤ o + Text.byteLength s ∧
      ∃ a b, s = a ++ b ∧ o + Text.byteLength a = t.start := by
  obtain ⟨raw, hraw, b, rfl⟩ := exists_of_mem_markFields ht
  rw [markField_start, markField_stop]
  obtain ⟨hle, hlt, hstop⟩ := h.bounds raw hraw
  exact ⟨hle, hlt, hstop, h.exists_split raw hraw⟩

theorem separates_of_blank {gap tail : Text} (hgap : Text.Blank gap) (hne : gap ≠ []) :
    Separates (gap ++ tail) := by
  obtain ⟨c, gap, rfl⟩ := List.exists_cons_of_ne_nil hne
  exact Lexeme.separates_of_isBlank (hgap c List.mem_cons_self)

/-- A source can be respaced before any of its tokens. -/
theorem exists_respaces (hknown : ∀ t ∈ stream s, t.kind ≠ .unknown) {t : Token}
    (ht : t ∈ stream s) {gap : Text} (hgap : Text.Blank gap) (hne : gap ≠ []) :
    ∃ first last, Respaces s t.start first last := by
  have hsplit : ∃ a b, s = a ++ b ∧ Text.byteLength a = t.start := by
    rcases List.mem_append.mp ht with hmem | hend
    · have hlexes := lexes_of_known
        (known_of_markFields fun u hu => hknown u (List.mem_append_left _ hu))
      obtain ⟨_, _, _, a, b, hs, ha⟩ := bounds_of_mem_markFields hlexes hmem
      exact ⟨a, b, hs, (Nat.zero_add _).symm.trans ha⟩
    · cases List.mem_singleton.mp hend
      exact ⟨s, [], (List.append_nil s).symm, rfl⟩
  obtain ⟨a, b, hs, ha⟩ := hsplit
  refine ⟨a ++ gap, b, .mk a [] gap b hs ?_ (fun c hc => by cases hc) hgap hne⟩
  rw [List.append_nil]
  exact ha

/-- The blanks at a cut can be replaced by others. -/
theorem Cut.respaced {gap : Text} (h : Cut 0 head space tail pre ts) (hgap : Text.Blank gap)
    (hne : gap ≠ []) :
    ∃ ts', Lexes (Text.byteLength (head ++ gap)) tail ts' ∧ ts'.map spelling = ts.map spelling ∧
      Lexes 0 (head ++ gap ++ tail) (pre ++ ts') := by
  obtain ⟨ts', htail, hspell⟩ := h.behind.spells (Text.byteLength (head ++ gap))
  refine ⟨ts', htail, hspell, ?_⟩
  rw [List.append_assoc]
  refine h.before _ _ (separates_of_blank hgap hne) (Lexes.to_blank hgap ?_)
  rw [Nat.zero_add, ← Text.byteLength_append]
  exact htail

/-- Lexemes before and behind some blanks make up a source in two parts. -/
theorem parted_of_lexes {gap : Text} {praw traw post : List Token} {e a : Bool} (hne : gap ≠ [])
    (hhead : Lexes 0 head praw) (htail : Lexes (Text.byteLength (head ++ gap)) tail traw)
    (hall : Lexes 0 (head ++ gap ++ tail) (praw ++ traw))
    (hmark : ∀ ts, markFields true false (praw ++ ts) = pre ++ markFields e a ts)
    (hpost : post = markFields e a traw ++ [⟨.endOfInput, [], Text.byteLength (head ++ gap ++ tail),
      Text.byteLength (head ++ gap ++ tail)⟩]) :
    Parted (head ++ gap) tail pre post := by
  have hpre : pre = markFields true false praw := by
    have h := hmark []
    rw [List.append_nil] at h
    exact (h.trans (List.append_nil pre)).symm
  have hgap : 0 < Text.byteLength gap := by
    obtain ⟨c, gap, rfl⟩ := List.exists_cons_of_ne_nil hne
    have hc := c.utf8Size_pos
    rw [Text.byteLength_cons]
    omega
  constructor
  · unfold stream
    rw [hall.lexemesFrom_eq, hmark, List.append_assoc, hpost]
  · intro t ht
    rw [hpre] at ht
    obtain ⟨_, _, hstop, x, y, hsplit, hx⟩ := bounds_of_mem_markFields hhead ht
    refine ⟨kind_ne_endOfInput (hhead.lexemesFrom_eq ▸ ht), ?_, x, y ++ gap, ?_, ?_⟩
    · rw [Text.byteLength_append]
      omega
    · rw [hsplit, List.append_assoc]
    · omega
  · intro t ht
    rw [hpost] at ht
    rcases List.mem_append.mp ht with hmem | hend
    · obtain ⟨hle, hlt, _⟩ := bounds_of_mem_markFields htail hmem
      exact ⟨hle, fun _ => hlt⟩
    · cases List.mem_singleton.mp hend
      refine ⟨?_, fun hkind => absurd rfl hkind⟩
      show Text.byteLength (head ++ gap) ≤ Text.byteLength (head ++ gap ++ tail)
      rw [Text.byteLength_append _ tail]
      exact Nat.le_add_right _ _

/--
The blanks before a token do not matter.  The tokens before it are the same, it starts
right behind the blanks, and from there on all tokens are spelled as they were.
-/
theorem parted_of_respaces (hknown : ∀ t ∈ stream s, t.kind ≠ .unknown) {t : Token}
    {post : List Token} (hstream : stream s = pre ++ t :: post) {first last : Text}
    (h : Respaces s t.start first last) :
    ∃ t' post', Parted first last pre (t' :: post') ∧ t'.start = Text.byteLength first ∧
      (t' :: post').map spelling = (t :: post).map spelling := by
  obtain ⟨praw, traw, e, a, hraw, hmark, hpost⟩ := exists_of_stream_eq hstream
  have hlexes : Lexes 0 s (praw ++ traw) := by
    have h := lexes_of_known (known_of_markFields fun u hu => hknown u (List.mem_append_left _ hu))
    rwa [hraw] at h
  have hstart : t.start = boundary 0 s traw := start_eq_boundary hpost (Nat.zero_add _).symm
  obtain ⟨head, space, gap, tail, rfl, hplace, hspace, hgap, hne⟩ := h
  have hcut : Cut 0 head space last praw traw :=
    hlexes.cut hspace (by rw [← hstart, ← hplace, Nat.zero_add])
  have hhead : Lexes 0 head praw := by
    have h := hcut.before [] [] Lexeme.separates_nil (.nil _)
    rwa [List.append_nil, List.append_nil] at h
  obtain ⟨traw', htail, hspell, hall⟩ := hcut.respaced hgap hne
  obtain ⟨t', post', hpost'⟩ := List.exists_cons_of_ne_nil (List.append_ne_nil_of_right_ne_nil
    (markFields e a traw') (List.cons_ne_nil
      ⟨.endOfInput, [], Text.byteLength (head ++ gap ++ last),
        Text.byteLength (head ++ gap ++ last)⟩ []))
  refine ⟨t', post', parted_of_lexes hne hhead htail hall hmark hpost'.symm, ?_, ?_⟩
  · rw [start_eq_boundary hpost'.symm (Text.byteLength_append _ _)]
    refine htail.boundary_eq_iff.mpr (hcut.behind.boundary_eq_iff.mp ?_)
    have h := boundary_append 0 (head ++ space) last traw
    rw [Nat.zero_add] at h ⊢
    rw [h, hplace, hstart, List.append_assoc]
  · rw [← hpost', hpost, List.map_append, List.map_append, map_markFields, map_markFields, hspell]
    rfl

end Token

end TicketSearch
