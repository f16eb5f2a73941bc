/-
Where the last part of a source leads.

The automaton behind completion has walked the tokens of a first part, and what comes behind it
is up to the last part alone.  `Lands` says where it ends up over that part, and where what is
typed starts: at the cursor behind blanks, at the last token when that is open, and behind a
whole keyword it goes on from where the keyword leads.
-/
import TicketSearch.Proofs.Completion.Replacement
import TicketSearch.Proofs.Completion.Steps
import TicketSearch.Proofs.Lexing.Gaps

namespace TicketSearch

open Lexeme (IsOpen Scans)
open Place (reached)
open Text (Blank byteLength)

theorem Token.markField_of_kind_ne {t : Token} (h : t.kind ≠ .value) (expected : Bool) :
    markField expected t = t := by
  rcases markField_cases expected t with hsame | ⟨_, hvalue⟩
  · exact hsame
  · exact absurd hvalue h

namespace Place

open Token (lexemesFrom markField markFields)

/--
From the place `here`, with a text that starts at an offset and a cursor at its end, completion
comes to a place and takes what is typed there to start at `start`.
-/
def Lands (here : Place) (offset : Nat) (text : Text) (place : Place) (start : Nat) : Prop :=
  ∀ e afterIn, ∃ before,
    Context.split (markFields e afterIn (lexemesFrom offset 0 text) ++
        [⟨.endOfInput, [], offset + byteLength text, offset + byteLength text⟩])
          (offset + byteLength text) =
      (before, start) ∧ before.foldl step here = place

variable {here place : Place} {o start : Nat} {x gap p : Text}

/-- Behind blanks what is typed starts at the cursor. -/
theorem Lands.of_blank (h : Blank x) : Lands here o x here (o + byteLength x) := by
  intro e afterIn
  refine ⟨[], ?_, rfl⟩
  have hnone := Token.lexemesFrom_of_blank h o []
  rw [List.append_nil] at hnone
  rw [hnone]
  refine Context.split_of_behind fun t ht => ?_
  cases List.mem_singleton.mp ht
  exact ⟨Nat.le_refl _, fun hkind => absurd rfl hkind⟩

/-- A single token that is open is what is typed. -/
theorem Lands.of_open {k : TokenKind} (h : lexemesFrom o 0 x = [⟨k, x, o, o + byteLength x⟩])
    (hsome : x ≠ []) (hopen : IsOpen k x) : Lands here o x here o := by
  intro e afterIn
  refine ⟨[], ?_, rfl⟩
  have hpos := Text.byteLength_pos hsome
  have hopen' : Context.isOpenAtEnd (markField e ⟨k, x, o, o + byteLength x⟩) = true := by
    rcases Token.markField_cases e ⟨k, x, o, o + byteLength x⟩ with hsame | ⟨hfield, _⟩
    · rw [hsame]
      exact hopen _ _
    · rw [hfield]
      rfl
  have hmem : markField e ⟨k, x, o, o + byteLength x⟩ ∈
      markFields e afterIn (lexemesFrom o 0 x) := by
    rw [h]
    exact List.mem_cons_self
  have hkind := Token.kind_ne_endOfInput hmem
  have hunder :
      Context.isUnder (o + byteLength x) (markField e ⟨k, x, o, o + byteLength x⟩) = true := by
    unfold Context.isUnder
    rw [hopen', Token.markField_start, Token.markField_stop]
    simp [hkind, hpos]
  rw [h, markFields, List.cons_append, Context.split_of_under hunder, Token.markField_start]

/-- From blanks behind a whole keyword completion goes on where the keyword leads. -/
theorem Lands.past {k : TokenKind} (hscans : Scans k x (gap ++ p)) (hkind : k ≠ .value)
    (hblank : Blank gap) (hsome : gap ≠ [])
    (h : Lands (here.step ⟨k, x, o, o + byteLength x⟩) (o + byteLength x + byteLength gap) p
      place start) :
    Lands here o (x ++ (gap ++ p)) place start := by
  intro e afterIn
  obtain ⟨before, hsplit, hplace⟩ := h (Token.expectsFieldAfter afterIn k) (k == .inWord)
  have hmark : markField e ⟨k, x, o, o + byteLength x⟩ = ⟨k, x, o, o + byteLength x⟩ :=
    Token.markField_of_kind_ne hkind e
  have hlength : o + byteLength (x ++ (gap ++ p)) =
      o + byteLength x + byteLength gap + byteLength p := by
    rw [Text.byteLength_append, Text.byteLength_append]
    omega
  have hbefore : o + byteLength x < o + byteLength x + byteLength gap + byteLength p := by
    have hpos := Text.byteLength_pos hsome
    omega
  refine ⟨⟨k, x, o, o + byteLength x⟩ :: before, ?_, hplace⟩
  rw [hlength, Token.lexemesFrom_of_scans hscans, Token.lexemesFrom_of_blank hblank, markFields,
    hmark, List.cons_append,
    Context.split_of_before (Context.isUnder_of_stop_lt hbefore) hscans.kind_ne_endOfInput
      (Nat.le_of_lt hbefore), hsplit]

end Place

namespace Context

open Place (Lands)
open Token (Reads markFields stream)

/-- **The context behind a last part of a source** is that of the place where it lands. -/
theorem at?_of_lands {first p : Text} {kept : List Token} {place : Place} {start : Nat}
    (h : Reads p 0 first kept)
    (hlands : Lands (reached (markFields true false kept)) (byteLength first) p place start)
    (hp : p ≠ []) :
    at? (first ++ p) (byteLength (first ++ p)) =
      ofPlace? (first ++ p) start (byteLength (first ++ p)) place := by
  have htokens := h.lexemesFrom_eq
  rw [Nat.zero_add] at htokens
  obtain ⟨e, afterIn, happend⟩ := Token.markFields_append true false kept
  obtain ⟨before, hsplit, hplace⟩ := hlands e afterIn
  have hbefore : ∀ t ∈ markFields true false kept,
      t.kind ≠ .endOfInput ∧ t.stop < byteLength first + byteLength p := by
    intro t ht
    have hmem : t ∈ markFields true false (Token.lexemesFrom 0 0 (first ++ p)) := by
      rw [htokens, happend]
      exact List.mem_append_left _ ht
    refine ⟨Token.kind_ne_endOfInput hmem, ?_⟩
    obtain ⟨raw, hraw, e, rfl⟩ := Token.exists_of_mem_markFields ht
    have hstop := h.stop_le raw hraw
    have hpos := Text.byteLength_pos hp
    rw [Token.markField_stop]
    omega
  have hall := Text.splitAtByte?_append (first ++ p) []
  rw [List.append_nil] at hall
  have hfold : (markFields true false kept ++ before).foldl Place.step .field = place := by
    rw [List.foldl_append, ← hplace]
    rfl
  unfold at?
  rw [hall, if_pos Option.isSome_some]
  unfold stream
  rw [htokens, happend, List.append_assoc, Text.byteLength_append, split_append hbefore, hsplit]
  simp only [hfold]

end Context

end TicketSearch
