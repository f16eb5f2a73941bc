/-
Replacing what comes behind some tokens.

`Reads` says which tokens the lexer has read off the first part of a text while the rest of
the text stands behind it.  The rest matters, since the last lexeme could go on into it; it
does not matter which rest it is, as long as it joins no lexeme that the old one does not
join (`Fits`).  So the rest can be replaced, and the tokens before it stay as they are
(`Reads.replace`); anything can be put behind tokens that are complete (`Reads.extend`).

Unlike `Lexes`, this is also about texts with characters that start no token.
-/
import TicketSearch.Proofs.Completion.Truncation

namespace TicketSearch

open Context (isOpenAtEnd)

namespace Lexeme

variable {k : TokenKind} {c : Char} {l old new : Text}

/-- Whether a text joins no lexeme before it that another one, in its place, does not join. -/
structure Fits (old new : Text) : Prop where
  word : new.head?.any isWordChar = true → old.head?.any isWordChar = true
  equals : new.head? = some '=' → old.head? = some '='
  digit : new.head?.any Char.isDigit = true → old.head?.any Char.isDigit = true

/-- Only the first characters count. -/
theorem fits_of_head? (h : new.head? = old.head?) : Fits old new := by
  constructor <;> (rw [h]; exact id)

/-- What separates fits everywhere. -/
theorem fits_of_separates (h : Separates new) : Fits old new := by
  have hword : ∀ d, new.head? = some d → isWordChar d = false := fun d hd => (h d hd).1
  constructor
  · intro hany
    obtain ⟨d, hd, hd'⟩ := (Option.any_eq_true _ _).mp hany
    rw [hword d hd] at hd'
    cases hd'
  · intro hequals
    exact absurd rfl (h '=' hequals).2
  · intro hany
    obtain ⟨d, hd, hd'⟩ := (Option.any_eq_true _ _).mp hany
    have hfalse := hword d hd
    rw [isWordChar_of_isDigit hd'] at hfalse
    cases hfalse

/-- Behind a common first part, both texts still fit. -/
theorem Fits.append (h : Fits old new) (first : Text) : Fits (first ++ old) (first ++ new) := by
  cases first with
  | nil => exact h
  | cons d first => exact fits_of_head? rfl

theorem withEquals_of_fits {alone : TokenKind} (hscan : withEquals alone c (l ++ old) = (k, c :: l))
    (h : Fits old new) : withEquals alone c (l ++ new) = (k, c :: l) := by
  cases l with
  | nil =>
      have hends : old.head? ≠ some '=' := by
        intro heq
        obtain ⟨r, rfl⟩ := List.head?_eq_some_iff.mp heq
        cases hscan
      rw [List.nil_append, withEquals_of_ends alone hends] at hscan
      rw [List.nil_append, withEquals_of_ends alone fun heq => hends (h.equals heq)]
      exact hscan
  | cons d l =>
      by_cases hd : d = '='
      · rw [hd] at hscan ⊢
        exact hscan
      · have hends : (d :: l ++ old).head? ≠ some '=' := fun heq => hd (Option.some.inj heq)
        rw [withEquals_of_ends alone hends] at hscan
        cases hscan

theorem quoted_of_fits (hscan : quoted (l ++ old) = (k, '"' :: l)) (hold : old ≠ []) :
    quoted (l ++ new) = (k, '"' :: l) := by
  by_cases hclosed : '"' ∈ l
  · obtain ⟨body, r, rfl, hbody⟩ := List.eq_append_cons_of_mem hclosed
    have hcloses : ∀ d ∈ body, d ≠ '"' := fun d hd heq => hbody (heq ▸ hd)
    rw [List.append_assoc, List.cons_append, quoted_of_closes hcloses] at hscan ⊢
    exact hscan
  · -- an open quote takes all of the text, and one that is closed later some more of it
    exfalso
    have hl : ∀ d ∈ l, d ≠ '"' := fun d hd heq => hclosed (heq ▸ hd)
    have hlength : (quoted (l ++ old)).2.length = l.length + 1 := by
      rw [hscan]
      rfl
    by_cases hlater : '"' ∈ old
    · obtain ⟨body, r, rfl, hbody⟩ := List.eq_append_cons_of_mem hlater
      have hcloses : ∀ d ∈ l ++ body, d ≠ '"' :=
        List.forall_mem_append.mpr ⟨hl, fun d hd heq => hbody (heq ▸ hd)⟩
      rw [← List.append_assoc, quoted_of_closes hcloses] at hlength
      simp only [List.length_append, List.length_cons] at hlength
      omega
    · have hopen : ∀ d ∈ l ++ old, d ≠ '"' :=
        List.forall_mem_append.mpr ⟨hl, fun d hd heq => hlater (heq ▸ hd)⟩
      rw [quoted_of_open hopen, List.length_cons, List.length_append] at hlength
      exact hold (List.eq_nil_of_length_eq_zero (by omega))

theorem bareWord_of_fits (hscan : bareWord c (l ++ old) = (k, c :: l)) (h : Fits old new) :
    bareWord c (l ++ new) = (k, c :: l) := by
  by_cases hstarts : startsWord c (l ++ old) = true
  · have hrun : (l ++ old).takeWhile isWordChar = l := by
      unfold bareWord at hscan
      rw [if_pos hstarts] at hscan
      exact (List.cons.inj (Prod.mk.inj hscan).2).2
    have hgoes : ∀ d ∈ l, isWordChar d = true := by
      intro d hd
      rw [← hrun] at hd
      exact List.mem_takeWhile_imp hd
    have hends : ∀ d, new.head? = some d → isWordChar d = false := by
      intro d hd
      by_contra hword
      obtain ⟨e, he, hword'⟩ := (Option.any_eq_true _ _).mp
        (h.word ((Option.any_eq_true _ _).mpr ⟨d, hd, eq_true_of_ne_false hword⟩))
      obtain ⟨r, rfl⟩ := List.head?_eq_some_iff.mp he
      rw [List.takeWhile_append_of_pos hgoes, List.takeWhile_cons_of_pos hword',
        List.append_right_eq_self] at hrun
      cases hrun
    rw [bareWord_congr ((takeWhile_append_of_ends hgoes hends).trans hrun.symm)]
    exact hscan
  · have hsingle : (TokenKind.unknown, [c]) = (k, c :: l) := by
      unfold bareWord at hscan
      rw [if_neg hstarts] at hscan
      exact hscan
    cases hsingle
    have hstarts' : ¬startsWord c ([] ++ new) = true := by
      intro hnew
      refine hstarts ?_
      unfold startsWord at hnew ⊢
      simp only [Bool.or_eq_true, Bool.and_eq_true] at hnew ⊢
      exact hnew.imp_right (And.imp_right h.digit)
    unfold bareWord
    rw [if_neg hstarts']

/-- **A lexeme stays when what comes behind it is replaced by what fits.** -/
theorem scan_of_fits (hscan : scan c (l ++ old) = (k, c :: l)) (hold : old ≠ [])
    (h : Fits old new) : scan c (l ++ new) = (k, c :: l) := by
  rcases scan_cases c with ⟨k', hc⟩ | ⟨alone, _, hc⟩ | ⟨rfl, hc⟩ | hc
  · rw [hc] at hscan ⊢
    exact hscan
  · rw [hc] at hscan ⊢
    exact withEquals_of_fits hscan h
  · rw [hc] at hscan ⊢
    exact quoted_of_fits hscan hold
  · rw [hc] at hscan ⊢
    exact bareWord_of_fits hscan h

/-- A lexeme that is complete stays whatever is put behind it. -/
theorem scan_of_complete (hscan : scan c l = (k, c :: l)) {start stop : Nat}
    (hclosed : isOpenAtEnd ⟨k, c :: l, start, stop⟩ = false) (new : Text) :
    scan c (l ++ new) = (k, c :: l) := by
  have htrunc := scan_truncates c l new
  rw [hscan] at htrunc
  generalize scan c (l ++ new) = lexeme at htrunc ⊢
  cases htrunc with
  | same _ => rfl
  | cut k' _ x more isOpen =>
      rw [isOpen start stop] at hclosed
      cases hclosed

end Lexeme

namespace Token

open Lexeme (Fits Scans scan)

/-! ### The tokens of a first part -/

/-- The tokens that the lexer reads off a text, from some offset on, with `rest` behind the text. -/
inductive Reads (rest : Text) : Nat → Text → List Token → Prop
  | nil (o : Nat) : Reads rest o [] []
  | blank {o : Nat} {c : Char} {s : Text} {ts : List Token} (blank : isBlank c = true)
      (more : Reads rest (o + c.utf8Size) s ts) : Reads rest o (c :: s) ts
  | lexeme {o : Nat} {k : TokenKind} {c : Char} {l s : Text} {ts : List Token}
      (starts : isBlank c = false) (scans : scan c (l ++ (s ++ rest)) = (k, c :: l))
      (more : Reads rest (o + Text.byteLength (c :: l)) s ts) :
      Reads rest o (c :: l ++ s) (⟨k, c :: l, o, o + Text.byteLength (c :: l)⟩ :: ts)

namespace Reads

variable {o : Nat} {a b s rest new : Text} {ts us : List Token}

/-- The lexer goes on behind the text. -/
theorem lexemesFrom_eq (h : Reads rest o s ts) :
    lexemesFrom o 0 (s ++ rest) = ts ++ lexemesFrom (o + Text.byteLength s) 0 rest := by
  induction h with
  | nil o => rfl
  | blank blank _ ih =>
      rw [List.cons_append, lexemesFrom_blank blank, ih, Text.byteLength_cons, Nat.add_assoc]
  | @lexeme o k c l s ts starts scans _ ih =>
      rw [List.cons_append, List.cons_append, List.append_assoc, lexemesFrom_scan starts, scans]
      have hskip : lexemesFrom (o + c.utf8Size) l.length (l ++ (s ++ rest)) =
          ts ++ lexemesFrom (o + Text.byteLength (c :: l ++ s)) 0 rest := by
        rw [lexemesFrom_skip, Nat.add_assoc, ← Text.byteLength_cons, ih, Text.byteLength_append,
          Nat.add_assoc]
      exact congrArg _ hskip

theorem append (ha : Reads (b ++ rest) o a ts) (hb : Reads rest (o + Text.byteLength a) b us) :
    Reads rest o (a ++ b) (ts ++ us) := by
  induction ha with
  | nil o => exact hb
  | blank blank _ ih =>
      rw [Text.byteLength_cons, ← Nat.add_assoc] at hb
      exact .blank blank (ih hb)
  | lexeme starts scans _ ih =>
      rw [Text.byteLength_append, ← Nat.add_assoc] at hb
      rw [← List.append_assoc _ b rest] at scans
      rw [List.append_assoc]
      exact .lexeme starts scans (ih hb)

/-- The tokens end where the text does or before. -/
theorem stop_le (h : Reads rest o s ts) : ∀ t ∈ ts, t.stop ≤ o + Text.byteLength s := by
  induction h with
  | nil o =>
      intro t ht
      cases ht
  | blank _ _ ih =>
      intro t ht
      have hstop := ih t ht
      rw [Text.byteLength_cons]
      omega
  | lexeme _ _ _ ih =>
      intro t ht
      rw [Text.byteLength_append]
      rcases List.mem_cons.mp ht with rfl | hmem
      · exact Nat.add_le_add_left (Nat.le_add_right _ _) _
      · have hstop := ih t hmem
        omega

/-- **What comes behind the tokens can be replaced by what fits.** -/
theorem replace (h : Reads rest o s ts) (hrest : rest ≠ []) (hfits : Fits rest new) :
    Reads new o s ts := by
  induction h with
  | nil o => exact .nil o
  | blank blank _ ih => exact .blank blank ih
  | @lexeme o k c l s ts starts scans _ ih =>
      refine .lexeme starts (Lexeme.scan_of_fits scans ?_ (hfits.append s)) ih
      exact List.append_ne_nil_of_right_ne_nil s hrest

/-- **Anything can be put behind tokens of which the last is complete, if it reaches the end.** -/
theorem extend (h : Reads [] o s ts)
    (hclosed : ∀ t ∈ ts, t.stop = o + Text.byteLength s → isOpenAtEnd t = false) (new : Text) :
    Reads new o s ts := by
  induction h with
  | nil o => exact .nil o
  | blank blank _ ih =>
      refine .blank blank (ih fun t ht hstop => hclosed t ht ?_)
      rw [hstop, Text.byteLength_cons, Nat.add_assoc]
  | @lexeme o k c l s ts starts scans _ ih =>
      refine .lexeme starts ?_ (ih fun t ht hstop => hclosed t (List.mem_cons_of_mem _ ht) ?_)
      · cases s with
        | nil =>
            rw [List.append_nil, List.append_nil] at scans
            refine Lexeme.scan_of_complete scans (hclosed _ List.mem_cons_self ?_) new
            rw [List.append_nil]
        | cons d s =>
            exact Lexeme.scan_of_fits scans (List.cons_ne_nil _ _) (Lexeme.fits_of_head? rfl)
      · rw [hstop, Text.byteLength_append, Nat.add_assoc]

/-- A lexeme that can stand before the rest is read. -/
theorem of_scans {k : TokenKind} {l : Text} (h : Scans k l (s ++ rest))
    (more : Reads rest (o + Text.byteLength l) s ts) :
    Reads rest o (l ++ s) (⟨k, l, o, o + Text.byteLength l⟩ :: ts) := by
  obtain ⟨c, cs, rfl, hblank⟩ := h.exists_cons
  exact .lexeme hblank (Lexeme.scan_of_scans h rfl) more

theorem of_scans_end {k : TokenKind} {l : Text} (h : Scans k l rest) (o : Nat) :
    Reads rest o l [⟨k, l, o, o + Text.byteLength l⟩] := by
  have hreads := of_scans (s := []) (o := o) h (.nil _)
  rwa [List.append_nil] at hreads

end Reads

/-- **Where the lexer has read the first of its tokens, the text can be cut**,
right before the next one. -/
theorem exists_reads {o : Nat} {s : Text} {ts us : List Token} (h : lexemesFrom o 0 s = ts ++ us) :
    ∃ first rest, s = first ++ rest ∧ Reads rest o first ts ∧
      lexemesFrom (o + Text.byteLength first) 0 rest = us ∧
        ∀ c, rest.head? = some c → isBlank c = false := by
  induction hlength : s.length using Nat.strongRecOn generalizing o s ts with
  | ind n ih =>
      cases s with
      | nil =>
          obtain ⟨rfl, rfl⟩ := List.nil_eq_append_iff.mp h
          refine ⟨[], [], rfl, .nil o, rfl, fun c hc => ?_⟩
          cases hc
      | cons c s =>
          by_cases hblank : isBlank c = true
          · rw [lexemesFrom_blank hblank] at h
            have hshorter : s.length < n := by
              rw [← hlength, List.length_cons]
              omega
            obtain ⟨first, rest, rfl, hreads, hus, hhead⟩ := ih s.length hshorter h rfl
            refine ⟨c :: first, rest, rfl, .blank hblank hreads, ?_, hhead⟩
            rw [Text.byteLength_cons, ← Nat.add_assoc]
            exact hus
          · have hc : isBlank c = false := eq_false_of_ne_true hblank
            cases ts with
            | nil =>
                refine ⟨[], c :: s, rfl, .nil o, h, fun d hd => ?_⟩
                cases hd
                exact hc
            | cons t ts =>
                obtain ⟨l, r, hl, rfl⟩ := Lexeme.exists_scan_eq c s
                rw [lexemesFrom_scan hc, hl] at h
                obtain ⟨ht, htail⟩ := List.cons.inj h
                have hskip : lexemesFrom (o + c.utf8Size) l.length (l ++ r) = ts ++ us := htail
                rw [lexemesFrom_skip, Nat.add_assoc, ← Text.byteLength_cons] at hskip
                have hshorter : r.length < n := by
                  rw [← hlength, List.length_cons, List.length_append]
                  omega
                obtain ⟨first, rest, rfl, hreads, hus, hhead⟩ := ih r.length hshorter hskip rfl
                refine ⟨c :: l ++ first, rest, ?_, ?_, ?_, hhead⟩
                · simp
                · rw [← ht]
                  exact .lexeme hc (Prod.ext rfl hl) hreads
                · rw [Text.byteLength_append, ← Nat.add_assoc]
                  exact hus

/-- A token starts between two characters of its text, where the lexer has read those before it. -/
theorem exists_reads_before {o : Nat} {s : Text} {t : Token} {ts us : List Token}
    (h : lexemesFrom o 0 s = ts ++ t :: us) :
    ∃ first rest, s = first ++ rest ∧ o + Text.byteLength first = t.start ∧ rest ≠ [] ∧
      Reads rest o first ts ∧ ∀ c, rest.head? = some c → isBlank c = false := by
  obtain ⟨first, rest, hs, hreads, hus, hhead⟩ := exists_reads h
  cases rest with
  | nil => cases hus
  | cons c rest =>
      rw [lexemesFrom_scan (hhead c rfl)] at hus
      have hstart : o + Text.byteLength first = t.start := by
        rw [← (List.cons.inj hus).1]
      exact ⟨first, c :: rest, hs, hstart, List.cons_ne_nil _ _, hreads, hhead⟩

/-- The lexer reads all of a text. -/
theorem reads_all (o : Nat) (s : Text) : Reads [] o s (lexemesFrom o 0 s) := by
  have hnone : lexemesFrom o 0 s = lexemesFrom o 0 s ++ [] := (List.append_nil _).symm
  obtain ⟨first, rest, rfl, hreads, hrest, hhead⟩ := exists_reads hnone
  cases rest with
  | nil =>
      rw [List.append_nil] at hreads ⊢
      exact hreads
  | cons c rest =>
      rw [lexemesFrom_scan (hhead c rfl)] at hrest
      cases hrest

end Token

end TicketSearch
