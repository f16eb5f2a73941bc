/-
Literals that can be written and read back.

A literal is well formed when its written form is a single token that denotes it again:
a quoted text holds no quote, a word is one token on its own, a number is the value of
its digits, and a day has a year of four digits.  Spans always are.

Both directions are proved.  The written form of a well-formed literal scans as one
lexeme before anything that separates (`Literal.scans`), and a token of that spelling
denotes the literal (`Literal.literal_of_spelling`).  Conversely every literal that a
token of any source denotes is well formed (`Literal.wellFormed_of_literal`).
-/
import TicketSearch.Query.Parser
import TicketSearch.Proofs.Calendar.Written
import TicketSearch.Proofs.Lexing

namespace TicketSearch

open Lexeme (Scans Separates)

/-- Whether a literal is what its written form denotes. -/
def Literal.WellFormed : Literal → Prop
  | .quoted t => ∀ c ∈ t, c ≠ '"'
  | .word t => ∃ token last, Token.stream t = [token, last] ∧
      (token.kind = .value ∨ token.kind = .field) ∧ token.text = t
  | .number x t => Lexeme.isNumberShaped t = true ∧ readFloat? t = some x
  | .date d => d.HasShortYear
  | .relative _ => True

namespace Literal

/-- The kind of token that a literal is written as. -/
def kind : Literal → TokenKind
  | quoted _ => .string
  | word _ => .value
  | number _ _ => .number
  | date _ => .date
  | relative _ => .relativeDate

/-- The token that a literal is written as, up to its place. -/
def spelling (v : Literal) : TokenKind × Text :=
  (v.kind, v.write)

end Literal

namespace Lexeme

/-! ### The shapes of words -/

/-- A text that is one word when it stands alone. -/
structure IsWord (t : Text) : Prop where
  starts : ∃ c cs, t = c :: cs ∧ startsWord c cs = true
  goes : ∀ d ∈ t, isWordChar d = true

theorem IsWord.scans {t : Text} (h : IsWord t) {r : Text} (hr : Separates r) :
    Scans (wordKind t) t r := by
  obtain ⟨c, cs, rfl, starts⟩ := h.starts
  exact .word c cs starts (fun d hd => h.goes d (List.mem_cons_of_mem _ hd)) fun d hd => (hr d hd).1

theorem startsWord_of_isDigit {c : Char} (h : c.isDigit = true) (rest : Text) :
    startsWord c rest = true := by
  unfold startsWord
  rw [h]
  simp

theorem startsWord_dash {c : Char} (h : c.isDigit = true) (rest : Text) :
    startsWord '-' (c :: rest) = true := by
  unfold startsWord
  simp [h]

theorem isWordChar_dash : isWordChar '-' = true := by decide

theorem isWordChar_point : isWordChar '.' = true := by decide

/-- An unsigned number is digits, alone or with a point and digits behind them. -/
theorem isUnsignedNumber_iff {t : Text} :
    isUnsignedNumber t = true ↔ ∃ whole fraction, t = whole ++ fraction ∧ IsDigits whole ∧
      (fraction = [] ∨ ∃ digits, fraction = '.' :: digits ∧ IsDigits digits) := by
  unfold isUnsignedNumber
  constructor
  · intro h
    rw [Bool.and_eq_true, Bool.not_eq_true', List.isEmpty_eq_false_iff] at h
    obtain ⟨hwhole, hrest⟩ := h
    refine ⟨t.takeWhile Char.isDigit, t.dropWhile Char.isDigit,
      List.takeWhile_append_dropWhile.symm, ⟨hwhole, fun c hc => List.mem_takeWhile_imp hc⟩, ?_⟩
    split at hrest
    · rename_i heq
      exact Or.inl heq
    · rename_i fraction heq
      rw [Bool.and_eq_true, Bool.not_eq_true', List.isEmpty_eq_false_iff] at hrest
      exact Or.inr ⟨fraction, heq, hrest.1, (allDigits_iff fraction).mp hrest.2⟩
    · cases hrest
  · rintro ⟨whole, fraction, rfl, hwhole, hfraction⟩
    have hends : ∀ d, fraction.head? = some d → d.isDigit = false := by
      intro d hd
      rcases hfraction with rfl | ⟨digits, rfl, _⟩
      · cases hd
      · cases hd
        rfl
    have hdrop : (whole ++ fraction).dropWhile Char.isDigit = fraction.dropWhile Char.isDigit :=
      List.dropWhile_append_of_pos hwhole.digits
    rw [takeWhile_append_of_ends hwhole.digits hends, hdrop,
      List.isEmpty_eq_false_iff.mpr hwhole.ne_nil]
    rcases hfraction with rfl | ⟨digits, rfl, hdigits⟩
    · rfl
    · rw [List.dropWhile_cons_of_neg (by decide)]
      simp only [List.isEmpty_eq_false_iff.mpr hdigits.ne_nil,
        (allDigits_iff digits).mpr hdigits.digits]
      rfl

/-- The characters of an unsigned number. -/
theorem unsigned_chars {t : Text} (h : isUnsignedNumber t = true) :
    (∃ c cs, t = c :: cs ∧ c.isDigit = true) ∧ ∀ d ∈ t, d.isDigit = true ∨ d = '.' := by
  obtain ⟨whole, fraction, rfl, hwhole, hfraction⟩ := isUnsignedNumber_iff.mp h
  constructor
  · obtain ⟨c, cs, rfl, hc⟩ := hwhole.exists_cons
    exact ⟨c, cs ++ fraction, rfl, hc⟩
  · intro d hd
    rcases List.mem_append.mp hd with hmem | hmem
    · exact Or.inl (hwhole.digits d hmem)
    · rcases hfraction with rfl | ⟨digits, rfl, hdigits⟩
      · cases hmem
      · rcases List.mem_cons.mp hmem with rfl | hmem
        · exact Or.inr rfl
        · exact Or.inl (hdigits.digits d hmem)

/-- A number is an unsigned number, or one behind a minus sign. -/
theorem exists_unsigned {t : Text} (h : isNumberShaped t = true) :
    isUnsignedNumber t = true ∨ ∃ u, t = '-' :: u ∧ isUnsignedNumber u = true := by
  unfold isNumberShaped at h
  split at h
  · exact Or.inr ⟨_, rfl, h⟩
  · exact Or.inl h

theorem isWordChar_of_unsigned {c : Char} (h : c.isDigit = true ∨ c = '.') :
    isWordChar c = true := by
  rcases h with hc | rfl
  · exact isWordChar_of_isDigit hc
  · exact isWordChar_point

theorem isWord_of_isNumberShaped {t : Text} (h : isNumberShaped t = true) : IsWord t := by
  rcases exists_unsigned h with hu | ⟨u, rfl, hu⟩
  · obtain ⟨⟨c, cs, rfl, hc⟩, hchars⟩ := unsigned_chars hu
    exact ⟨⟨c, cs, rfl, startsWord_of_isDigit hc cs⟩,
      fun d hd => isWordChar_of_unsigned (hchars d hd)⟩
  · obtain ⟨⟨c, cs, rfl, hc⟩, hchars⟩ := unsigned_chars hu
    refine ⟨⟨'-', c :: cs, rfl, startsWord_dash hc cs⟩, ?_⟩
    intro d hd
    rcases List.mem_cons.mp hd with rfl | hmem
    · exact isWordChar_dash
    · exact isWordChar_of_unsigned (hchars d hmem)

/-- No number has the shape of a date: a date has a dash inside. -/
theorem not_isDateShaped_of_number {t : Text} (h : isNumberShaped t = true) :
    isDateShaped t = false := by
  rw [← Bool.not_eq_true]
  intro hdate
  obtain ⟨year, month, day, hdigits, rfl⟩ := exists_dateText hdate
  have hdash : '-' ∈ dateText year month day := List.mem_append_right _ List.mem_cons_self
  rcases exists_unsigned h with hu | ⟨u, heq, hu⟩
  · rcases (unsigned_chars hu).2 '-' hdash with hdigit | hpoint
    · exact absurd hdigit (by decide)
    · exact absurd hpoint (by decide)
  · obtain ⟨c, cs, rfl, hc⟩ := hdigits.exists_cons
    cases heq
    exact absurd hc (by decide)

theorem isWord_of_isDateShaped {t : Text} (h : isDateShaped t = true) : IsWord t := by
  obtain ⟨year, month, day, hdigits, rfl⟩ := exists_dateText h
  constructor
  · obtain ⟨c, cs, rfl, hc⟩ := hdigits.exists_cons
    exact ⟨c, cs ++ '-' :: (month ++ '-' :: day), rfl, startsWord_of_isDigit hc _⟩
  · intro d hd
    rcases List.mem_append.mp hd with hy | hrest
    · exact isWordChar_of_isDigit (hdigits.year_digits d hy)
    · rcases List.mem_cons.mp hrest with rfl | hrest
      · exact isWordChar_dash
      · rcases List.mem_append.mp hrest with hm | hrest
        · exact isWordChar_of_isDigit (hdigits.month_digits d hm)
        · rcases List.mem_cons.mp hrest with rfl | hday
          · exact isWordChar_dash
          · exact isWordChar_of_isDigit (hdigits.day_digits d hday)

theorem isWordChar_of_isAlpha {c : Char} (h : c.isAlpha = true) : isWordChar c = true := by
  have hc := (isAlpha_iff c).mp h
  unfold isWordChar isLetter
  rw [if_pos (by omega), h]
  rfl

/-- The letters of the units, in either case. -/
theorem ofLetter?_isSome_iff {c : Char} :
    (DateUnit.ofLetter? c).isSome ↔ c ∈ ['d', 'w', 'm', 'y', 'D', 'W', 'M', 'Y'] := by
  have hlower : (DateUnit.ofLetter? c).isSome ↔ c.toLower ∈ ['d', 'w', 'm', 'y'] := by
    unfold DateUnit.ofLetter?
    split <;> simp_all
  rw [hlower]
  simp only [List.mem_cons, List.not_mem_nil, or_false, ← Char.toNat_inj, toNat_toLower,
    Char.reduceToNat]
  split <;> omega

/-- The letter of a unit is a letter indeed. -/
theorem isAlpha_of_ofLetter? {c : Char} (h : (DateUnit.ofLetter? c).isSome) : c.isAlpha = true := by
  have hletter := ofLetter?_isSome_iff.mp h
  simp only [List.mem_cons, List.not_mem_nil, or_false] at hletter
  rcases hletter with rfl | rfl | rfl | rfl | rfl | rfl | rfl | rfl <;> rfl

/-- A span is a minus sign, digits and the letter of a unit. -/
theorem isRelativeShaped_iff {t : Text} :
    isRelativeShaped t = true ↔ ∃ digits letter, t = '-' :: (digits ++ [letter]) ∧ IsDigits digits ∧
      (DateUnit.ofLetter? letter).isSome := by
  constructor
  · intro h
    unfold isRelativeShaped at h
    split at h
    · rename_i body
      rw [Bool.and_eq_true, Bool.and_eq_true, Bool.not_eq_true', List.isEmpty_eq_false_iff] at h
      obtain ⟨⟨hne, hdigits⟩, hunit⟩ := h
      obtain ⟨unit, hletter⟩ := Option.isSome_iff_exists.mp hunit
      obtain ⟨letter, hlast, hof⟩ := Option.bind_eq_some_iff.mp hletter
      obtain ⟨digits, rfl⟩ := List.getLast?_eq_some_iff.mp hlast
      rw [List.dropLast_concat] at hne hdigits
      exact ⟨digits, letter, rfl, ⟨hne, (allDigits_iff _).mp hdigits⟩, by rw [hof]; rfl⟩
    · cases h
  · rintro ⟨digits, letter, rfl, hdigits, hunit⟩
    unfold isRelativeShaped
    simp only [List.dropLast_concat, List.getLast?_concat, Option.bind_some, hunit,
      (allDigits_iff digits).mpr hdigits.digits, List.isEmpty_eq_false_iff.mpr hdigits.ne_nil]
    rfl

theorem exists_relative {t : Text} (h : isRelativeShaped t = true) :
    ∃ digits letter, t = '-' :: (digits ++ [letter]) ∧ IsDigits digits ∧ letter.isAlpha = true := by
  obtain ⟨digits, letter, ht, hdigits, hunit⟩ := isRelativeShaped_iff.mp h
  exact ⟨digits, letter, ht, hdigits, isAlpha_of_ofLetter? hunit⟩

theorem isWord_of_isRelativeShaped {t : Text} (h : isRelativeShaped t = true) : IsWord t := by
  obtain ⟨digits, letter, rfl, hdigits, hletter⟩ := exists_relative h
  constructor
  · obtain ⟨c, cs, rfl, hc⟩ := hdigits.exists_cons
    exact ⟨'-', _, rfl, startsWord_dash hc _⟩
  · intro d hd
    rcases List.mem_cons.mp hd with rfl | hbody
    · exact isWordChar_dash
    · rcases List.mem_append.mp hbody with hdigit | hunit
      · exact isWordChar_of_isDigit (hdigits.digits d hdigit)
      · rw [List.mem_singleton.mp hunit]
        exact isWordChar_of_isAlpha hletter

/-- A span is told from a number by its last letter, and from a date by its first dash. -/
theorem wordKind_of_isRelativeShaped {t : Text} (h : isRelativeShaped t = true) :
    wordKind t = .relativeDate := by
  obtain ⟨digits, letter, ht, _, hletter⟩ := exists_relative h
  have hdate : isDateShaped t = false := by
    rw [← Bool.not_eq_true, ht]
    intro hdate
    obtain ⟨year, month, day, hyear, heq⟩ := exists_dateText hdate
    obtain ⟨c, cs, rfl, hc⟩ := hyear.exists_cons
    have hdash : '-' = c := (List.cons.inj heq).1
    rw [← hdash] at hc
    exact absurd hc (by decide)
  have hnumber : isNumberShaped t = false := by
    rw [← Bool.not_eq_true, ht]
    intro hnumber
    have hchar :=
      (unsigned_chars hnumber).2 letter (List.mem_append_right _ (List.mem_singleton_self _))
    rw [isAlpha_iff] at hletter
    rcases hchar with hdigit | rfl
    · have hcode := (isDigit_iff letter).mp hdigit
      omega
    · exact absurd hletter (by decide)
  unfold wordKind
  rw [hdate, hnumber, h]
  rfl

theorem wordKind_of_isDateShaped {t : Text} (h : isDateShaped t = true) : wordKind t = .date := by
  unfold wordKind
  rw [if_pos h]

theorem wordKind_of_isNumberShaped {t : Text} (h : isNumberShaped t = true) :
    wordKind t = .number := by
  unfold wordKind
  rw [not_isDateShaped_of_number h, if_neg Bool.false_ne_true, if_pos h]

/-- Every text in the shape of a number is read as one. -/
theorem readFloat?_isSome {t : Text} (h : isNumberShaped t = true) : (readFloat? t).isSome := by
  have hunsigned : isUnsignedNumber (splitSign t).2 = true := by
    rcases exists_unsigned h with hu | ⟨u, rfl, hu⟩
    · obtain ⟨⟨c, cs, rfl, hc⟩, _⟩ := unsigned_chars hu
      unfold splitSign
      split
      · rename_i heq
        rw [(List.cons.inj heq).1] at hc
        exact absurd hc (by decide)
      · rename_i heq
        rw [(List.cons.inj heq).1] at hc
        exact absurd hc (by decide)
      · exact hu
    · exact hu
  have hnumeral : (Numeral.read? t).isSome := by
    unfold isUnsignedNumber at hunsigned
    rw [Bool.and_eq_true, Bool.not_eq_true', List.isEmpty_eq_false_iff] at hunsigned
    obtain ⟨hwhole, hrest⟩ := hunsigned
    unfold Numeral.read?
    simp only
    split at hrest
    · rename_i heq
      rw [heq]
      simp [Numeral.splitFraction, Numeral.readExponent?, hwhole]
    · rename_i fraction heq
      rw [Bool.and_eq_true] at hrest
      have hdigits := (allDigits_iff fraction).mp hrest.2
      have hnone : fraction.dropWhile Char.isDigit = [] := List.dropWhile_eq_nil_iff.mpr hdigits
      rw [heq]
      simp [Numeral.splitFraction, Numeral.readExponent?, hwhole, hnone]
    · cases hrest
  unfold readFloat?
  simp only
  split_ifs
  · rfl
  · rfl
  · rfl
  · rw [Option.isSome_map]
    exact hnumeral

end Lexeme

/-! ### Words that are one token -/

namespace Token

theorem length_text_le {o : Nat} {s : Text} {ts : List Token} (h : Lexes o s ts) :
    ∀ t ∈ ts, t.text.length ≤ s.length := by
  induction h with
  | nil o =>
      intro t ht
      cases ht
  | blank _ _ ih =>
      intro t ht
      exact Nat.le_succ_of_le (ih t ht)
  | lexeme _ _ ih =>
      intro t ht
      rw [List.length_append]
      rcases List.mem_cons.mp ht with rfl | hrest
      · exact Nat.le_add_right _ _
      · exact Nat.le_trans (ih t hrest) (Nat.le_add_left _ _)

/-- A text that lexes as one token of its own length is that lexeme. -/
theorem scans_of_lexes {o : Nat} {s : Text} {t : Token} (h : Lexes o s [t]) (htext : t.text = s) :
    Scans t.kind s [] := by
  cases h with
  | blank _ rest =>
      have hle := length_text_le rest t List.mem_cons_self
      rw [htext, List.length_cons] at hle
      omega
  | @lexeme _ k l r _ scans rest =>
      have hr : r = [] := by
        have hlength : l.length = (l ++ r).length := congrArg List.length htext
        rw [List.length_append] at hlength
        exact List.eq_nil_of_length_eq_zero (by omega)
      rw [hr] at scans
      rw [hr, List.append_nil]
      exact scans

/-- A text of one token and the end of the input is one lexeme, marked as at the start. -/
theorem exists_of_stream_eq_pair {s : Text} {t last : Token} (h : stream s = [t, last]) :
    ∃ raw, lexemesFrom 0 0 s = [raw] ∧ markField true raw = t := by
  unfold stream at h
  cases hraw : lexemesFrom 0 0 s with
  | nil =>
      rw [hraw] at h
      cases h
  | cons raw rest =>
      rw [hraw] at h
      cases rest with
      | nil => exact ⟨raw, rfl, (List.cons.inj h).1⟩
      | cons raw' rest =>
          have hnil := (List.cons.inj (List.cons.inj h).2).2
          exact absurd (List.append_eq_nil_iff.mp hnil).2 (List.cons_ne_nil _ _)

theorem stream_of_scans {k : TokenKind} {l r : Text} (h : Scans k l r) :
    stream l = [markField true ⟨k, l, 0, 0 + Text.byteLength l⟩,
      ⟨.endOfInput, [], Text.byteLength l, Text.byteLength l⟩] := by
  have hlexes : Lexes 0 l [⟨k, l, 0, 0 + Text.byteLength l⟩] := by
    have hend := Lexes.lexeme (o := 0) (h.of_separates Lexeme.separates_nil) (.nil _)
    rwa [List.append_nil] at hend
  unfold stream
  rw [hlexes.lexemesFrom_eq]
  rfl

end Token

/-! ### The written form of a literal -/

namespace Literal

/-- A word that is one token on its own is one lexeme before anything that separates. -/
theorem scans_word {t : Text} (h : (Literal.word t).WellFormed) : Scans .value t [] := by
  obtain ⟨token, last, hstream, hkind, htext⟩ := h
  obtain ⟨raw, hraw, hmark⟩ := Token.exists_of_stream_eq_pair hstream
  have hword : raw.text = t ∧ (raw.kind = .value ∨ raw.kind = .field) := by
    rcases Token.markField_cases true raw with heq | ⟨heq, hvalue⟩
    · rw [← heq, hmark]
      exact ⟨htext, hkind⟩
    · refine ⟨?_, Or.inl hvalue⟩
      rw [← htext, ← hmark, heq]
  have hlexes : Token.Lexes 0 t [raw] := by
    rw [← hraw]
    refine Token.lexes_of_known ?_
    intro t' ht'
    rw [hraw] at ht'
    rw [List.mem_singleton.mp ht']
    rcases hword.2 with hk | hk <;> (rw [hk]; decide)
  have hscans := Token.scans_of_lexes hlexes hword.1
  rcases hword.2 with hk | hk
  · rwa [hk] at hscans
  · exact absurd hk hscans.kind_ne_field

/-- The written form of a well-formed literal is one lexeme. -/
theorem scans {v : Literal} (h : v.WellFormed) {r : Text} (hr : Separates r) :
    Scans v.kind v.write r := by
  cases v with
  | quoted t => exact .quoted t h
  | word t => exact (scans_word h).of_separates hr
  | number x t =>
      have hscans := (Lexeme.isWord_of_isNumberShaped h.1).scans hr
      rwa [Lexeme.wordKind_of_isNumberShaped h.1] at hscans
  | date d =>
      have hshape := Date.isDateShaped_write h
      have hscans := (Lexeme.isWord_of_isDateShaped hshape).scans hr
      rwa [Lexeme.wordKind_of_isDateShaped hshape] at hscans
  | relative r' =>
      have hshape := r'.isRelativeShaped_write
      have hscans := (Lexeme.isWord_of_isRelativeShaped hshape).scans hr
      rwa [Lexeme.wordKind_of_isRelativeShaped hshape] at hscans

/-- A token that is spelled as a well-formed literal is a value and denotes the literal. -/
theorem literal_of_spelling {v : Literal} (h : v.WellFormed) {t : Token}
    (ht : t.spelling = v.spelling) : t.kind.isValue = true ∧ t.literal = .ok v := by
  have hkind : t.kind = v.kind := congrArg Prod.fst ht
  have htext : t.text = v.write := congrArg Prod.snd ht
  unfold Token.literal
  rw [hkind, htext]
  cases v with
  | quoted s =>
      refine ⟨rfl, ?_⟩
      show Except.ok (Literal.quoted
          (if (s ++ ['"']).getLast? = some '"' then (s ++ ['"']).dropLast else _)) = _
      rw [List.getLast?_concat, if_pos rfl, List.dropLast_concat]
  | word s => exact ⟨rfl, rfl⟩
  | number x s =>
      refine ⟨rfl, ?_⟩
      have hread : readFloat? (Literal.number x s).write = some x := h.2
      simp only [kind, hread]
      rfl
  | date d =>
      refine ⟨rfl, ?_⟩
      have hread : Date.read? (Literal.date d).write = some d := Date.read?_write h
      simp only [kind, hread]
  | relative r =>
      refine ⟨rfl, ?_⟩
      have hread : RelativeDate.read? (Literal.relative r).write = some r :=
        RelativeDate.read?_write r
      simp only [kind, hread]

end Literal

/-! ### The literals of a source -/

namespace Token

/-- A word that the lexer cuts off from a source is one token on its own. -/
theorem wellFormed_word {l r : Text} (h : Scans .value l r) : (Literal.word l).WellFormed := by
  have hstream := stream_of_scans h
  rcases markField_cases true ⟨.value, l, 0, 0 + Text.byteLength l⟩ with heq | ⟨heq, _⟩
  · rw [heq] at hstream
    exact ⟨_, _, hstream, Or.inl rfl, rfl⟩
  · rw [heq] at hstream
    exact ⟨_, _, hstream, Or.inr rfl, rfl⟩

end Token

/-- What the kind of a lexeme says about its text. -/
def Lexeme.HasShape (t : Text) : TokenKind → Prop
  | .string => ∃ body, t = '"' :: body ++ ['"'] ∧ ∀ c ∈ body, c ≠ '"'
  | .number => Lexeme.isNumberShaped t = true
  | .date => Lexeme.isDateShaped t = true
  | _ => True

theorem Lexeme.Scans.hasShape {k : TokenKind} {l r : Text} (h : Scans k l r) : HasShape l k := by
  cases h with
  | mark c mark =>
      unfold Lexeme.markKind? at mark
      split_ifs at mark <;> (cases mark; trivial)
  | sign c _ _ => trivial
  | signEquals c _ => trivial
  | quoted body closes => exact ⟨body, rfl, closes⟩
  | word c cs starts goes ends =>
      have hkeywords : ∀ entry ∈ keywords, HasShape (c :: cs) entry.2 := by
        intro entry hentry
        simp only [keywords, List.mem_cons, List.not_mem_nil, or_false] at hentry
        rcases hentry with rfl | rfl | rfl | rfl | rfl | rfl | rfl <;> trivial
      rcases wordKind_cases (c :: cs) with ⟨hk, hshape⟩ | ⟨hk, hshape⟩ | ⟨hk, _⟩ | hk | hk
      · rw [hk]
        exact hshape
      · rw [hk]
        exact hshape
      · rw [hk]
        trivial
      · rw [hk]
        trivial
      · exact hkeywords _ hk

namespace Token

/-- A token of some source, as it stands there, denotes a well-formed literal. -/
theorem wellFormed_of_literal {t raw : Token} {b : Bool} (ht : t = markField b raw) {r : Text}
    (h : Scans raw.kind raw.text r) (hvalue : t.kind.isValue = true) {v : Literal}
    (hv : t.literal = .ok v) : v.WellFormed := by
  have hword : raw.kind = .value → v = .word raw.text → v.WellFormed := by
    intro hk hv
    rw [hk] at h
    rw [hv]
    exact wellFormed_word h
  rcases markField_cases b raw with hsame | ⟨hfield, hkind⟩
  · rw [hsame] at ht
    rw [ht] at hv hvalue
    have hshape := h.hasShape
    unfold Token.literal at hv
    cases hk : raw.kind with
    | string =>
        rw [hk] at hv hshape
        obtain ⟨body, hbody, hcloses⟩ := hshape
        rw [hbody] at hv
        have hok : Except.ok (Literal.quoted
            (if (body ++ ['"']).getLast? = some '"' then (body ++ ['"']).dropLast else _)) =
              Except.ok v := hv
        rw [List.getLast?_concat, if_pos rfl, List.dropLast_concat] at hok
        rw [← Except.ok.inj hok]
        exact hcloses
    | number =>
        rw [hk] at hv hshape
        cases hread : readFloat? raw.text with
        | none => simp [hread] at hv
        | some x =>
            simp only [hread] at hv
            rw [← Except.ok.inj hv]
            exact ⟨hshape, hread⟩
    | date =>
        rw [hk] at hv hshape
        cases hread : Date.read? raw.text with
        | none => simp [hread] at hv
        | some d =>
            simp only [hread] at hv
            rw [← Except.ok.inj hv]
            exact Date.hasShortYear_of_read? hshape hread
    | relativeDate =>
        rw [hk] at hv
        cases hread : RelativeDate.read? raw.text with
        | none => simp [hread] at hv
        | some d =>
            simp only [hread] at hv
            rw [← Except.ok.inj hv]
            trivial
    | value =>
        rw [hk] at hv
        exact hword hk (Except.ok.inj hv).symm
    | field => exact absurd hk h.kind_ne_field
    | _ =>
        rw [hk] at hvalue
        cases hvalue
  · rw [hfield] at ht
    rw [ht] at hv
    exact hword hkind (Except.ok.inj hv).symm

end Token

/-- **Every literal that a token of a source denotes is well formed.** -/
theorem Literal.wellFormed_of_mem_stream {s : Text} {t : Token} (h : t ∈ Token.stream s)
    (hvalue : t.kind.isValue = true) {v : Literal} (hv : t.literal = .ok v) : v.WellFormed := by
  unfold Token.stream at h
  rcases List.mem_append.mp h with hmem | hend
  · obtain ⟨raw, hraw, b, ht⟩ := Token.exists_of_mem_markFields hmem
    have hknown : raw.kind ≠ .unknown := by
      intro hk
      rcases Token.markField_cases b raw with hsame | ⟨_, hkind⟩
      · rw [ht, hsame, hk] at hvalue
        cases hvalue
      · rw [hkind] at hk
        cases hk
    obtain ⟨r, hscans⟩ := Token.scans_of_mem hraw hknown
    exact Token.wellFormed_of_literal ht hscans hvalue hv
  · rw [List.mem_singleton.mp hend] at hvalue
    cases hvalue

end TicketSearch
