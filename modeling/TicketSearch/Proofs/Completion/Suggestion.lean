/-
What is suggested for a value finds the tickets that have it.

A value is offered as it is when it is one word that can stand as a value, otherwise in
quotes (`isBareValue_iff`).  In quotes it always means itself.  A bare word means itself too,
but for two shapes: what looks like a date must be a day of the calendar, or the query is
rejected, and what looks like a relative date is taken as one and compared as it would be
written (`meaning`).  So the query that a suggestion makes is accepted exactly when these are
readable, and finds of the tickets that have the value just those that have its meaning.
-/
import TicketSearch.Completion
import TicketSearch.Proofs.Catalog
import TicketSearch.Proofs.Failure
import TicketSearch.Proofs.Grammar.Respelling
import TicketSearch.Proofs.Writing

namespace TicketSearch

open Lexeme (IsWord Scans wordKind)
open Token (Spells markSpellings spelling)

/-! ### Values without quotes -/

namespace Lexeme

/-- A lexeme that is a value without quotes is a word. -/
theorem isWord_of_scans {k : TokenKind} {l r : Text} (h : Scans k l r) (hvalue : k.isValue = true)
    (hstring : k ≠ .string) : IsWord l ∧ wordKind l = k := by
  cases h with
  | mark c mark =>
      unfold markKind? at mark
      split_ifs at mark <;> (cases mark; cases hvalue)
  | sign _ _ _ => cases hvalue
  | signEquals _ _ => cases hvalue
  | quoted _ _ => exact absurd rfl hstring
  | word c cs starts goes _ =>
      refine ⟨⟨⟨c, cs, rfl, starts⟩, fun d hd => ?_⟩, rfl⟩
      rcases List.mem_cons.mp hd with rfl | hcs
      · exact isWordChar_of_startsWord starts
      · exact goes d hcs

theorem wordKind_ne_string (t : Text) : wordKind t ≠ .string := by
  have hkeywords : ∀ entry ∈ keywords, entry.2 ≠ .string := by decide
  rcases wordKind_cases t with ⟨h, _⟩ | ⟨h, _⟩ | ⟨h, _⟩ | h | h
  · rw [h]; decide
  · rw [h]; decide
  · rw [h]; decide
  · rw [h]; decide
  · exact hkeywords _ h

end Lexeme

namespace Token

/-- A text that lexes as one token as long as itself is the text of the token. -/
theorem text_of_lexes {o : Nat} {s : Text} {t : Token} (h : Lexes o s [t])
    (hlength : t.stop - t.start = Text.byteLength s) : t.text = s := by
  cases h with
  | @blank _ c r _ _ rest =>
      have hbounds := rest.bounds t List.mem_cons_self
      have hc := c.utf8Size_pos
      rw [Text.byteLength_cons] at hlength
      omega
  | @lexeme _ k l r _ _ _ =>
      have hr : r = [] := by
        by_contra hne
        have hpos := Text.byteLength_pos hne
        rw [Text.byteLength_append] at hlength
        have hl : o + Text.byteLength l - o = Text.byteLength l + Text.byteLength r := hlength
        omega
      rw [hr, List.append_nil]

end Token

namespace Context

/-- **A value needs no quotes exactly when it is one word of a kind that can stand as a value.** -/
theorem isBareValue_iff (v : Text) :
    isBareValue v = true ↔ IsWord v ∧ (wordKind v).isValue = true := by
  constructor
  · intro h
    unfold isBareValue at h
    split at h
    · rename_i t last hstream
      rw [Bool.and_eq_true, Bool.and_eq_true, bne_iff_ne, beq_iff_eq] at h
      obtain ⟨⟨hvalue, hstring⟩, hlength⟩ := h
      obtain ⟨raw, hraw, rfl⟩ := Token.exists_of_stream_eq_pair hstream
      rw [Token.markField_start, Token.markField_stop] at hlength
      have hkind : raw.kind.isValue = true ∧ raw.kind ≠ .string := by
        rcases Token.markField_cases true raw with heq | ⟨_, hk⟩
        · rw [heq] at hvalue hstring
          exact ⟨hvalue, hstring⟩
        · rw [hk]
          decide
      have hlexes : Token.Lexes 0 v [raw] := by
        rw [← hraw]
        refine Token.lexes_of_known fun t ht hk => ?_
        rw [hraw, List.mem_singleton] at ht
        rw [← ht, hk] at hkind
        cases hkind.1
      have hscans := Token.scans_of_lexes hlexes (Token.text_of_lexes hlexes hlength)
      obtain ⟨hword, hk⟩ := Lexeme.isWord_of_scans hscans hkind.1 hkind.2
      exact ⟨hword, hk ▸ hkind.1⟩
    · cases h
  · rintro ⟨hword, hvalue⟩
    have hstream := Token.stream_of_scans (hword.scans Lexeme.separates_nil)
    have hkind :
        (Token.markField true ⟨wordKind v, v, 0, 0 + Text.byteLength v⟩).kind.isValue = true ∧
        (Token.markField true ⟨wordKind v, v, 0, 0 + Text.byteLength v⟩).kind ≠ .string := by
      rcases Token.markField_cases true ⟨wordKind v, v, 0, 0 + Text.byteLength v⟩ with
        heq | ⟨heq, _⟩
      · rw [heq]
        exact ⟨hvalue, Lexeme.wordKind_ne_string v⟩
      · rw [heq]
        exact ⟨rfl, TokenKind.noConfusion⟩
    unfold isBareValue
    rw [hstream]
    simp only
    rw [hkind.1, bne_iff_ne.mpr hkind.2, Token.markField_start, Token.markField_stop]
    simp

end Context

/-! ### What a bare word denotes -/

namespace Lexeme

/-- Whether a value is a day when it looks like one, and a span when it looks like one. -/
structure Readable (v : Text) : Prop where
  date : isDateShaped v = true → (Date.read? v).isSome
  relative : isRelativeShaped v = true → (RelativeDate.read? v).isSome

/-- What a value is compared as when it stands without quotes: a span in its written
form, others as they are. -/
def meaning (v : Text) : Text :=
  if isRelativeShaped v then ((RelativeDate.read? v).map RelativeDate.write).getD v else v

variable {v : Text}

theorem meaning_of_not_isRelativeShaped (h : isRelativeShaped v = false) : meaning v = v := by
  unfold meaning
  rw [h, if_neg Bool.false_ne_true]

theorem meaning_of_read? (h : isRelativeShaped v = true) {r : RelativeDate}
    (hread : RelativeDate.read? v = some r) : meaning v = r.write := by
  unfold meaning
  rw [if_pos h, hread]
  rfl

theorem meaning_eq_or (v : Text) : meaning v = v ∨ ∃ r : RelativeDate, meaning v = r.write := by
  by_cases h : isRelativeShaped v = true
  · cases hread : RelativeDate.read? v with
    | none =>
        left
        unfold meaning
        rw [if_pos h, hread]
        rfl
    | some r => exact Or.inr ⟨r, meaning_of_read? h hread⟩
  · exact Or.inl (meaning_of_not_isRelativeShaped (eq_false_of_ne_true h))

/-- What a bare word denotes, by its shape: a day, a span, or something with its own text. -/
theorem literal_cases (hvalue : (wordKind v).isValue = true) :
    isDateShaped v = true ∧ isRelativeShaped v = false ∧
        (Token.literal ⟨wordKind v, v, 0, 0⟩).toOption = (Date.read? v).map .date ∨
      isDateShaped v = false ∧ isRelativeShaped v = true ∧
        (Token.literal ⟨wordKind v, v, 0, 0⟩).toOption = (RelativeDate.read? v).map .relative ∨
      isDateShaped v = false ∧ isRelativeShaped v = false ∧
        ∃ l, (Token.literal ⟨wordKind v, v, 0, 0⟩).toOption = some l ∧ l.text = v := by
  have hkeywords : ∀ entry ∈ keywords, entry.2.isValue = false := by decide
  have hdate : wordKind v ≠ .date → isDateShaped v = false :=
    fun h => eq_false_of_ne_true fun hshape => h (wordKind_of_isDateShaped hshape)
  have hrelative : wordKind v ≠ .relativeDate → isRelativeShaped v = false :=
    fun h => eq_false_of_ne_true fun hshape => h (wordKind_of_isRelativeShaped hshape)
  unfold Token.literal
  rcases wordKind_cases v with ⟨hk, hshape⟩ | ⟨hk, hshape⟩ | ⟨hk, hshape⟩ | hk | hmem
  · refine Or.inl ⟨hshape, hrelative (by rw [hk]; decide), ?_⟩
    simp only [hk]
    cases Date.read? v <;> rfl
  · refine Or.inr (Or.inr ⟨hdate (by rw [hk]; decide), hrelative (by rw [hk]; decide), ?_⟩)
    obtain ⟨x, hx⟩ := Option.isSome_iff_exists.mp (readFloat?_isSome hshape)
    simp only [hk, hx]
    exact ⟨_, rfl, rfl⟩
  · refine Or.inr (Or.inl ⟨hdate (by rw [hk]; decide), hshape, ?_⟩)
    simp only [hk]
    cases RelativeDate.read? v <;> rfl
  · refine Or.inr (Or.inr ⟨hdate (by rw [hk]; decide), hrelative (by rw [hk]; decide), ?_⟩)
    simp only [hk]
    exact ⟨_, rfl, rfl⟩
  · have hnone : (wordKind v).isValue = false := hkeywords _ hmem
    rw [hnone] at hvalue
    cases hvalue

/-- A bare word denotes a literal exactly when it is readable. -/
theorem literal_isSome_iff (hvalue : (wordKind v).isValue = true) :
    (Token.literal ⟨wordKind v, v, 0, 0⟩).toOption.isSome ↔ Readable v := by
  rcases literal_cases hvalue with ⟨hdate, hrelative, heq⟩ | ⟨hdate, hrelative, heq⟩ |
    ⟨hdate, hrelative, l, heq, _⟩
  · rw [heq, Option.isSome_map]
    exact ⟨fun h => ⟨fun _ => h, by simp [hrelative]⟩, fun h => h.date hdate⟩
  · rw [heq, Option.isSome_map]
    exact ⟨fun h => ⟨by simp [hdate], fun _ => h⟩, fun h => h.relative hrelative⟩
  · rw [heq]
    exact ⟨fun _ => ⟨by simp [hdate], by simp [hrelative]⟩, fun _ => rfl⟩

/-- The text of what a bare word denotes is its meaning. -/
theorem text_of_literal (hvalue : (wordKind v).isValue = true) {l : Literal}
    (h : (Token.literal ⟨wordKind v, v, 0, 0⟩).toOption = some l) : l.text = meaning v := by
  rcases literal_cases hvalue with ⟨hdate, hrelative, heq⟩ | ⟨_, hrelative, heq⟩ |
    ⟨_, hrelative, l', heq, htext⟩
  · rw [heq] at h
    obtain ⟨d, hread, rfl⟩ := Option.map_eq_some_iff.mp h
    rw [meaning_of_not_isRelativeShaped hrelative]
    exact Date.write_of_read? hdate hread
  · rw [heq] at h
    obtain ⟨r, hread, rfl⟩ := Option.map_eq_some_iff.mp h
    exact (meaning_of_read? hrelative hread).symm
  · rw [heq] at h
    cases h
    rw [meaning_of_not_isRelativeShaped hrelative, htext]

end Lexeme

/-! ### Queries of one comparison -/

namespace Query

/-- The tokens of a single comparison make one when their value denotes a
literal, and fail otherwise. -/
theorem toOption_parseTokens_compare {name sign value eof : Token} {f : Field} {op : Comparison}
    (hname : name.kind = .field) (hf : Field.resolve? name.text = some f)
    (hsign : sign.kind = .operator) (hop : Comparison.ofSymbol? sign.text = some op)
    (hvalue : value.kind.isValue = true) (heof : eof.kind = .endOfInput) :
    (parseTokens [name, sign, value, eof]).1.toOption =
      value.literal.toOption.map (compare f op) := by
  have hempty : value.kind ≠ .emptyWord := by
    intro hk
    rw [hk] at hvalue
    cases hvalue
  have hfirst : ParserState.initial.step name = .shift ⟨.afterField f name.text, .fresh, []⟩ := by
    simp [ParserState.initial, ParserState.step, ParserState.stepOperand, ParserState.go, hname, hf]
  have hsecond : (ParserState.mk (.afterField f name.text) .fresh []).step sign =
      .shift ⟨.afterOperator f op, .fresh, []⟩ := by
    simp [ParserState.step, ParserState.stepField, ParserState.go, hsign, hop]
  unfold parseTokens
  rw [ParserState.run, hfirst]
  simp only
  rw [ParserState.run, hsecond]
  simp only
  cases hliteral : value.literal with
  | error fault =>
      have hthird : (ParserState.mk (.afterOperator f op) .fresh []).step value =
          .reject ⟨fault, some value.start⟩ true := by
        simp [ParserState.step, ParserState.stepOperator, ParserState.withValue, hempty, hvalue,
          hliteral]
      rw [ParserState.run, hthird]
      rfl
  | ok l =>
      have hthird : (ParserState.mk (.afterOperator f op) .fresh []).step value =
          .shift ⟨.complete (compare f op l), .fresh, []⟩ := by
        simp [ParserState.step, ParserState.stepOperator, ParserState.withValue, hempty, hvalue,
          hliteral, ParserState.finishOperand, ParserState.go]
        rfl
      have hlast : (ParserState.mk (.complete (compare f op l)) .fresh []).step eof =
          .accept (compare f op l) := by
        simp [ParserState.step, ParserState.stepComplete, heof]
        rfl
      rw [ParserState.run, hthird]
      simp only
      rw [ParserState.run, hlast]
      rfl

/-- A field, a sign and one lexeme make a comparison when the lexeme denotes a
literal, and fail otherwise. -/
theorem toOption_parse_compare (f : Field) {k : TokenKind} {l : Text} (h : Scans k l [])
    (hvalue : k.isValue = true) :
    (parse (f.name ++ " = " ++ l)).toOption =
      (Token.literal ⟨k, l, 0, 0⟩).toOption.map (compare f .eq) := by
  have hlast : Spells l [(k, l)] := by
    have hend := Token.spells_nil.lexeme h
    rwa [List.append_nil] at hend
  have hall := spells_name f ((spells_space hlast).lexeme (scans_symbol .eq _))
  have htext : (f.name ++ " = " ++ l : Text) =
      f.name ++ ' ' :: (Comparison.eq.symbol ++ ' ' :: l) := by
    simp [Comparison.symbol]
  obtain ⟨ts, hlexes, hts⟩ := hall 0
  have hmarked : (Token.markFields true false ts).map spelling =
      [(.field, f.name), (.operator, Comparison.eq.symbol), (k, l)] := by
    rw [Token.map_markFields, hts, mark_name,
      Token.markSpellings_cons false false (Token.markedKind_unexpected _ _)]
    rfl
  obtain ⟨name, ts₁, h₁, hname, hts₁⟩ := List.map_eq_cons_iff.mp hmarked
  obtain ⟨sign, ts₂, rfl, hsign, hts₂⟩ := List.map_eq_cons_iff.mp hts₁
  obtain ⟨value, ts₃, rfl, hval, hts₃⟩ := List.map_eq_cons_iff.mp hts₂
  obtain rfl := List.map_eq_nil_iff.mp hts₃
  have hstream : Token.stream (f.name ++ " = " ++ l) = [name, sign, value,
      ⟨.endOfInput, [], Text.byteLength (f.name ++ " = " ++ l),
        Text.byteLength (f.name ++ " = " ++ l)⟩] := by
    unfold Token.stream
    rw [htext, hlexes.lexemesFrom_eq, h₁]
    rfl
  obtain ⟨hnameKind, hnameText⟩ := Prod.mk.inj hname
  obtain ⟨hsignKind, hsignText⟩ := Prod.mk.inj hsign
  have hliteral : value.literal = Token.literal ⟨k, l, 0, 0⟩ := Grammar.literal_congr hval
  unfold parse
  rw [hstream, ← hliteral]
  refine toOption_parseTokens_compare hnameKind ?_ hsignKind ?_ ?_ rfl
  · rw [hnameText, resolve?_name]
  · rw [hsignText]
    rfl
  · rw [(Prod.mk.inj hval).1, hvalue]

end Query

/-! ### Tickets that have a value -/

theorem not_isEmpty_of_folded {x v : Text} (hv : Text.trim v ≠ []) (h : folded x = folded v) :
    (Cell.text x).isEmpty = false :=
  List.isEmpty_eq_false_iff.mpr (trim_ne_nil_of_folded hv h)

/-- A span is no name with a number: it ends in the letter of its unit. -/
theorem NumberedName.number_of_write (r : RelativeDate) : (of r.write).number = none := by
  have hword := Lexeme.isWord_of_isRelativeShaped r.isRelativeShaped_write
  have htrim : Text.trim r.write = r.write :=
    Text.trim_of_not_isBlank fun c hc => Lexeme.not_isBlank_of_isWordChar (hword.2 c hc)
  have hdigits : digitsAtEnd r.write = [] := by
    have hletter : Char.isDigit r.unit.letter = false := by
      cases r.unit <;> decide
    unfold digitsAtEnd RelativeDate.write
    rw [List.reverse_append, List.reverse_singleton, List.singleton_append,
      List.takeWhile_cons_of_neg (by rw [hletter]; exact Bool.false_ne_true)]
    rfl
  unfold of
  simp only [htrim, hdigits, if_pos]

/-- A name with a value is equal in natural order to the meaning of the value only
if it has the meaning. -/
theorem naturalOrder_meaning_iff {x v : Text} (h : folded x = folded v) :
    naturalOrder x (Lexeme.meaning v) = .eq ↔ folded x = folded (Lexeme.meaning v) := by
  constructor
  · intro heq
    rcases Lexeme.meaning_eq_or v with hsame | ⟨r, hwrite⟩
    · rw [hsame, h]
    · have hseries : ¬SameSeries x r.write := by
        intro hs
        have hnumber := hs.right
        rw [NumberedName.number_of_write] at hnumber
        cases hnumber
      rw [hwrite, naturalOrder_of_not_sameSeries hseries] at heq
      rw [hwrite]
      exact Std.LawfulEqOrd.eq_of_compare heq
  · exact naturalOrder_of_folded

/-- A value of a field that is collected is equal to its meaning when it is the meaning. -/
theorem equal?_iff_holds {f : Field} {roster : Roster} (hf : f.source = .roster roster) {t : Ticket}
    {v : Text} (h : (t.row f).Holds v) {l : Literal} (hl : l.text = Lexeme.meaning v)
    (now : Instant) : equal? f (t.row f) l now = some true ↔ (t.row f).Holds l.text := by
  have hsame : ∀ x, Text.sameValue x l.text = true ↔ folded x = folded l.text := by
    intro x
    rw [sameValue_eq_folded, beq_iff_eq]
  have htext : ∀ o : Option Text, (Ticket.textCell o).Holds v →
      ∃ x, o = some x ∧ folded x = folded v := by
    intro o ho
    cases o with
    | none => exact ho.elim
    | some x => exact ⟨x, rfl, ho⟩
  cases f with
  | status | assignee | reporter =>
      obtain ⟨x, hx, _⟩ := htext _ h
      show equal? _ (Ticket.textCell _) l now = some true ↔ (Ticket.textCell _).Holds l.text
      rw [hx]
      show some (Text.sameValue x l.text) = some true ↔ _
      rw [Option.some_inj]
      exact hsame x
  | sprint =>
      obtain ⟨x, hx, hfolded⟩ := htext _ h
      show equal? .sprint (Ticket.textCell t.sprint) l now = some true ↔
        (Ticket.textCell t.sprint).Holds l.text
      rw [hx]
      show some (naturalOrder x l.text == .eq) = some true ↔ folded x = folded l.text
      rw [Option.some_inj, beq_iff_eq, hl]
      exact naturalOrder_meaning_iff hfolded
  | labels =>
      show some (t.labels.any (Text.sameValue · l.text)) = some true ↔ ∃ x ∈ t.labels, _
      rw [Option.some_inj, List.any_eq_true]
      exact exists_congr fun x => and_congr_right fun _ => hsame x
  | priority | type | resolution | storyPoints | title | description | created
  | updated | dueDate =>
      cases hf

/-- Of the tickets that have a value, a comparison with its meaning finds those
that have the meaning. -/
theorem Query.eval_compare_eq_iff_holds {f : Field} {roster : Roster}
    (hf : f.source = .roster roster) {t : Ticket} {v : Text} (hv : Text.trim v ≠ [])
    (h : (t.row f).Holds v) {l : Literal} (hl : l.text = Lexeme.meaning v) (now : Instant) :
    (compare f .eq l).eval t.row now = true ↔ (t.row f).Holds (Lexeme.meaning v) := by
  have hnonempty : (t.row f).isEmpty = false := by
    generalize t.row f = cell at h
    cases cell with
    | text x => exact not_isEmpty_of_folded hv h
    | list xs =>
        obtain ⟨x, hx, _⟩ := h
        exact List.isEmpty_eq_false_iff.mpr (List.ne_nil_of_mem hx)
    | missing | number _ | date _ => exact h.elim
  show (!(t.row f).isEmpty && equal? f (t.row f) l now == some true) = true ↔ _
  rw [hnonempty, Bool.not_false, Bool.true_and, beq_iff_eq, equal?_iff_holds hf h hl now, hl]

/-! ### Suggestions -/

/-- A ticket of which only one label is known. -/
def Ticket.ofLabel (name : Text) : Ticket :=
  { blank with labels := [name] }

namespace Context

/-- Where nothing is typed yet, every value is offered, each with one replacement. -/
theorem mem_suggest_iff {f : Field} {catalog : Catalog} {v : Text} (hv : v ∈ candidates catalog f)
    (position : Nat) (r : Text) :
    ⟨v, r⟩ ∈ suggest ⟨.value, [], position, some f⟩ catalog ↔
      r = (suggestValue false v).replacement := by
  have hsuggest : suggest ⟨.value, [], position, some f⟩ catalog =
      (candidates catalog f).map (suggestValue false) := by
    show ((candidates catalog f).filter fun value => [].isPrefixOf (Text.lower value)).map _ = _
    rw [List.filter_eq_self.mpr fun value _ => List.isPrefixOf_nil_left]
    rfl
  rw [hsuggest, List.mem_map]
  constructor
  · rintro ⟨value, _, heq⟩
    obtain ⟨rfl, rfl⟩ := Suggestion.mk.inj heq
    rfl
  · rintro rfl
    exact ⟨v, hv, rfl⟩

/--
The replacement of a value is one lexeme.  It denotes a literal exactly when the value is readable,
and one with the text of its meaning.
-/
theorem exists_scans_replacement {v : Text} (hquote : ∀ c ∈ v, c ≠ '"') :
    ∃ k, Scans k (suggestValue false v).replacement [] ∧ k.isValue = true ∧
      ((Token.literal ⟨k, (suggestValue false v).replacement, 0, 0⟩).toOption.isSome ↔
        Lexeme.Readable v) ∧
      ∀ l, (Token.literal ⟨k, (suggestValue false v).replacement, 0, 0⟩).toOption = some l →
        l.text = Lexeme.meaning v := by
  by_cases hbare : isBareValue v = true
  · have hreplacement : (suggestValue false v).replacement = v := by
      simp [suggestValue, hbare]
    obtain ⟨hword, hvalue⟩ := (isBareValue_iff v).mp hbare
    rw [hreplacement]
    exact ⟨wordKind v, hword.scans Lexeme.separates_nil, hvalue, Lexeme.literal_isSome_iff hvalue,
      fun l hl => Lexeme.text_of_literal hvalue hl⟩
  · have hreplacement : (suggestValue false v).replacement = (Literal.quoted v).write := by
      simp [suggestValue, hbare, Literal.write]
    have hliteral := (Literal.literal_of_spelling (v := .quoted v) hquote
      (t := ⟨.string, (Literal.quoted v).write, 0, 0⟩) rfl).2
    have hdate : Lexeme.isDateShaped v = false := by
      refine eq_false_of_ne_true fun hshape => hbare ?_
      refine (isBareValue_iff v).mpr ⟨Lexeme.isWord_of_isDateShaped hshape, ?_⟩
      rw [Lexeme.wordKind_of_isDateShaped hshape]
      rfl
    have hrelative : Lexeme.isRelativeShaped v = false := by
      refine eq_false_of_ne_true fun hshape => hbare ?_
      refine (isBareValue_iff v).mpr ⟨Lexeme.isWord_of_isRelativeShaped hshape, ?_⟩
      rw [Lexeme.wordKind_of_isRelativeShaped hshape]
      rfl
    have hreadable : Lexeme.Readable v := ⟨by simp [hdate], by simp [hrelative]⟩
    rw [hreplacement]
    refine ⟨.string, .quoted v hquote, rfl, ?_, fun l hl => ?_⟩
    · rw [hliteral]
      exact ⟨fun _ => hreadable, fun _ => rfl⟩
    · rw [hliteral] at hl
      cases hl
      exact (Lexeme.meaning_of_not_isRelativeShaped hrelative).symm

/--
**When what is suggested for a value finds the tickets that have it.**  Of a field whose values
are collected from tickets, every collected value is offered with one replacement.  The query that
asks for it is accepted exactly when the value is not taken for a day or a span that it does not
denote.  It then matches all tickets that have the value exactly when they all have its meaning,
as they do unless it is taken for a span that is written in another way.
-/
theorem suggest_ofTickets {tickets : List Ticket} {f : Field} {roster : Roster}
    (hf : f.source = .roster roster) {v : Text} (hv : v ∈ (Catalog.ofTickets tickets).values roster)
    (hquote : ∀ c ∈ v, c ≠ '"') (position : Nat) :
    ∃ r, (∀ r', ⟨v, r'⟩ ∈ suggest ⟨.value, [], position, some f⟩ (Catalog.ofTickets tickets) ↔
      r' = r) ∧
      ((∃ q, Query.parse (f.name ++ " = " ++ r) = .ok q) ↔ Lexeme.Readable v) ∧
      ((∃ q, Query.parse (f.name ++ " = " ++ r) = .ok q ∧
          ∀ t ∈ tickets, (t.row f).Holds v → ∀ now, q.eval t.row now = true) ↔
        Lexeme.Readable v ∧
          ∀ t ∈ tickets, (t.row f).Holds v → (t.row f).Holds (Lexeme.meaning v)) := by
  have hcandidates : v ∈ candidates (Catalog.ofTickets tickets) f := by
    unfold candidates
    rw [hf]
    exact hv
  obtain ⟨hne, htrim⟩ := Catalog.trim_of_mem_values hv
  have hblank : Text.trim v ≠ [] := by
    rw [htrim]
    exact hne
  obtain ⟨k, hscans, hvalue, hliteral, htext⟩ := exists_scans_replacement hquote
  have hparse := Query.toOption_parse_compare f hscans hvalue
  have hreadable :
      (∃ q, Query.parse (f.name ++ " = " ++ (suggestValue false v).replacement) = .ok q) ↔
      Lexeme.Readable v := by
    rw [← hliteral, ← Option.isSome_map, ← hparse, Option.isSome_iff_exists]
    exact exists_congr fun q => toOption_eq_some_iff.symm
  have heval : ∀ q, Query.parse (f.name ++ " = " ++ (suggestValue false v).replacement) = .ok q →
      ∀ t : Ticket, (t.row f).Holds v → ∀ now,
        (q.eval t.row now = true ↔ (t.row f).Holds (Lexeme.meaning v)) := by
    intro q hq t hholds now
    rw [toOption_eq_some_iff.mpr hq] at hparse
    obtain ⟨l, hl, rfl⟩ := Option.map_eq_some_iff.mp hparse.symm
    exact Query.eval_compare_eq_iff_holds hf hblank hholds (htext l hl) now
  refine ⟨_, mem_suggest_iff hcandidates position, hreadable, ?_, ?_⟩
  · rintro ⟨q, hq, hall⟩
    refine ⟨hreadable.mp ⟨q, hq⟩, fun t ht hholds => ?_⟩
    exact (heval q hq t hholds Instant.earliest).mp (hall t ht hholds _)
  · rintro ⟨hread, hall⟩
    obtain ⟨q, hq⟩ := hreadable.mpr hread
    exact ⟨q, hq, fun t ht hholds now => (heval q hq t hholds now).mpr (hall t ht hholds)⟩

/-- A day of the calendar is offered as it is, and finds the ticket with it. -/
theorem suggest_ofTickets_of_day :
    suggest ⟨.value, [], 9, some .labels⟩ (Catalog.ofTickets [Ticket.ofLabel "2024-05-01"]) =
        [⟨"2024-05-01", "2024-05-01"⟩] ∧
      ∃ q, Query.parse "labels = 2024-05-01" = .ok q ∧
        ∀ now, q.eval (Ticket.ofLabel "2024-05-01").row now = true := by
  have hsuggest : suggest ⟨.value, [], 9, some .labels⟩
      (Catalog.ofTickets [Ticket.ofLabel "2024-05-01"]) = [⟨"2024-05-01", "2024-05-01"⟩] := by
    decide +kernel
  have hcollected : "2024-05-01".toList ∈
      (Catalog.ofTickets [Ticket.ofLabel "2024-05-01"]).values .labels := by decide +kernel
  have hquote : '"' ∉ "2024-05-01".toList := by decide
  refine ⟨hsuggest, ?_⟩
  obtain ⟨r, hr, _, hfinds⟩ := suggest_ofTickets (f := .labels) rfl hcollected
    (fun c hc heq => hquote (heq ▸ hc)) 9
  have hoffered : (⟨"2024-05-01", "2024-05-01"⟩ : Suggestion) ∈
      suggest ⟨.value, [], 9, some .labels⟩ (Catalog.ofTickets [Ticket.ofLabel "2024-05-01"]) := by
    rw [hsuggest]
    exact List.mem_singleton_self _
  have hreplacement := (hr _).mp hoffered
  have hmeaning : Lexeme.meaning "2024-05-01" = "2024-05-01" := by decide +kernel
  obtain ⟨q, hq, hmatches⟩ := hfinds.mpr ⟨⟨fun _ => by decide +kernel, by decide +kernel⟩,
    fun _ _ hholds => by rw [hmeaning]; exact hholds⟩
  rw [← hreplacement] at hq
  exact ⟨q, hq, hmatches _ (List.mem_singleton_self _) ⟨_, List.mem_singleton_self _, rfl⟩⟩

/--
Two labels that are offered as they are and not found so.  One looks like a day that is none, and
the query is rejected; the other looks like a span and is compared as `-7d`.
-/
theorem suggest_ofTickets_of_shapes :
    (suggest ⟨.value, [], 9, some .labels⟩ (Catalog.ofTickets [Ticket.ofLabel "2024-13-45"]) =
        [⟨"2024-13-45", "2024-13-45"⟩] ∧
      ∃ e, Query.parse "labels = 2024-13-45" = .error e) ∧
    suggest ⟨.value, [], 9, some .labels⟩ (Catalog.ofTickets [Ticket.ofLabel "-007d"]) =
        [⟨"-007d", "-007d"⟩] ∧
      ∃ q, Query.parse "labels = -007d" = .ok q ∧
        ∀ now, q.eval (Ticket.ofLabel "-007d").row now = false := by
  refine ⟨⟨by decide +kernel, _, rfl⟩, by decide +kernel, _, rfl, fun now => ?_⟩
  show (true && some (["-007d".toList].any (Text.sameValue · "-7d")) == some true) = false
  decide +kernel

end Context

end TicketSearch
