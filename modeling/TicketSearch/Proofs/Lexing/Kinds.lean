/-
The kind of a token is told by its text.

`Form` says what a text of each kind looks like, in the words of the language and not of the
lexer.  The lexer and `Form` agree in both directions: what it reads has the form of its kind
(`form_of_scans`), and a text of some form is read as that kind when it stands alone
(`scan_of_form`).  That it stands somewhere else makes no difference to its kind, since a
lexeme is the same once the text behind it is cut off (`scan_alone`).  The text behind it only
decides where it ends, and a word ends where no character of a word comes next.

Fields are told from other words by the tokens before them, and by nothing else.
-/
import TicketSearch.Proofs.Case.Source
import TicketSearch.Proofs.Lexing.Gaps

namespace TicketSearch

/-- A kind as far as the text tells it: a field is a plain word. -/
def TokenKind.unmarked : TokenKind → TokenKind
  | .field => .value
  | k => k

/-- Whether tokens of a kind are bare words. -/
def TokenKind.isBare : TokenKind → Bool
  | .field | .value | .number | .date | .relativeDate => true
  | .andWord | .orWord | .notWord | .inWord | .isWord | .emptyWord => true
  | _ => false

theorem TokenKind.unmarked_of_ne_field {k : TokenKind} (h : k ≠ .field) : k.unmarked = k := by
  cases k with
  | field => exact absurd rfl h
  | _ => rfl

theorem TokenKind.isBare_unmarked (k : TokenKind) : k.unmarked.isBare = k.isBare := by
  cases k <;> rfl

theorem TokenKind.eq_of_unmarked {k k' : TokenKind} (h : k.unmarked = k') (hvalue : k' ≠ .value) :
    k = k' := by
  cases k with
  | field => exact absurd h.symm hvalue
  | _ => exact h

namespace Lexeme

/-! ### What the kinds look like -/

/-- The punctuation and the comparison signs. -/
def signs : List (Text × TokenKind) :=
  [("(", .openParen), (")", .closeParen), (",", .comma), ("=", .operator), ("!=", .operator),
    ("<", .operator), ("<=", .operator), (">", .operator), (">=", .operator)]

/-- The keywords in capitals. -/
def capitals : List (Text × TokenKind) :=
  [("AND", .andWord), ("OR", .orWord), ("NOT", .notWord), ("IN", .inWord), ("IS", .isWord),
    ("EMPTY", .emptyWord), ("NULL", .emptyWord)]

/-- What a text of a kind looks like.  Plain words and what the lexer does not know have no form. -/
inductive Form : TokenKind → Text → Prop
  | sign {k : TokenKind} {t : Text} (mem : (t, k) ∈ signs) : Form k t
  /-- A keyword in any case. -/
  | keyword {k : TokenKind} {word t : Text} (mem : (word, k) ∈ capitals)
      (same : Text.sameIgnoringAsciiCase word t = true) : Form k t
  | string {body : Text} (closes : ∀ c ∈ body, c ≠ '"') : Form .string ('"' :: body ++ ['"'])
  | number {sign whole fraction : Text} (minus : sign = [] ∨ sign = ['-'])
      (whole_digits : IsDigits whole)
      (point : fraction = [] ∨ ∃ digits, fraction = '.' :: digits ∧ IsDigits digits) :
      Form .number (sign ++ (whole ++ fraction))
  | date {year month day : Text} (digits : DateDigits year month day) :
      Form .date (dateText year month day)
  | relativeDate {amount : Text} {unit : Char} (digits : IsDigits amount)
      (unit_mem : unit ∈ ['d', 'w', 'm', 'y', 'D', 'W', 'M', 'Y']) :
      Form .relativeDate ('-' :: (amount ++ [unit]))

variable {k : TokenKind} {c : Char} {t l r : Text}

/-- A number is an unsigned number, with or without a minus sign. -/
theorem isNumberShaped_iff : isNumberShaped t = true ↔
    ∃ sign u, t = sign ++ u ∧ (sign = [] ∨ sign = ['-']) ∧ isUnsignedNumber u = true := by
  constructor
  · intro h
    rcases exists_unsigned h with hu | ⟨u, rfl, hu⟩
    · exact ⟨[], t, rfl, Or.inl rfl, hu⟩
    · exact ⟨['-'], u, rfl, Or.inr rfl, hu⟩
  · rintro ⟨sign, u, rfl, rfl | rfl, hu⟩
    · obtain ⟨⟨c, cs, rfl, hc⟩, _⟩ := unsigned_chars hu
      have hdash : c ≠ '-' := by
        rintro rfl
        exact absurd hc (by decide)
      unfold isNumberShaped
      split
      · next heq => exact absurd (List.cons.inj heq).1 hdash
      · exact hu
    · exact hu

/-- The lexer's keywords are those of the language in lower case. -/
theorem keywords_eq : keywords = capitals.map fun entry => (Text.asciiLower entry.1, entry.2) := by
  decide +kernel

/-! ### What is read has the form of its kind -/

theorem form_of_mark (h : markKind? c = some k) : Form k [c] := by
  unfold markKind? at h
  split_ifs at h with h1 h2 h3 h4
  · exact .sign (by rw [h1, ← Option.some.inj h]; decide)
  · exact .sign (by rw [h2, ← Option.some.inj h]; decide)
  · exact .sign (by rw [h3, ← Option.some.inj h]; decide)
  · exact .sign (by rw [h4, ← Option.some.inj h]; decide)

theorem form_of_wordKind (h : wordKind t ≠ .value) : Form (wordKind t) t := by
  rcases wordKind_cases t with ⟨hk, hshape⟩ | ⟨hk, hshape⟩ | ⟨hk, hshape⟩ | hk | hk
  · rw [hk]
    obtain ⟨year, month, day, digits, rfl⟩ := exists_dateText hshape
    exact .date digits
  · rw [hk]
    obtain ⟨sign, u, rfl, minus, hu⟩ := isNumberShaped_iff.mp hshape
    obtain ⟨whole, fraction, rfl, hwhole, point⟩ := isUnsignedNumber_iff.mp hu
    exact .number minus hwhole point
  · rw [hk]
    obtain ⟨amount, unit, rfl, digits, hunit⟩ := isRelativeShaped_iff.mp hshape
    exact .relativeDate digits (ofLetter?_isSome_iff.mp hunit)
  · exact absurd hk h
  · rw [keywords_eq] at hk
    obtain ⟨⟨word, k⟩, hmem, heq⟩ := List.mem_map.mp hk
    obtain ⟨hword, hkind⟩ := Prod.mk.inj heq
    have hkind : k = wordKind t := hkind
    rw [← hkind]
    exact .keyword hmem (beq_iff_eq.mpr hword)

/-- **What the lexer reads has the form of its kind**, unless it is a plain word. -/
theorem form_of_scans (h : Scans k l r) (hvalue : k ≠ .value) : Form k l := by
  cases h with
  | mark c mark => exact form_of_mark mark
  | sign c sign _ =>
      rcases sign with rfl | rfl <;> exact .sign (by decide)
  | signEquals c sign =>
      rcases sign with rfl | rfl | rfl <;> exact .sign (by decide)
  | quoted body closes => exact .string closes
  | word c cs _ _ _ => exact form_of_wordKind hvalue

/-! ### What has a form is read so -/

/-- A word that stands alone is read whole. -/
theorem scan_of_isWord (h : IsWord t) : ∃ c l, t = c :: l ∧ scan c l = (wordKind t, t) := by
  obtain ⟨c, l, rfl, _⟩ := h.starts
  have hscan := scan_of_scans (h.scans separates_nil) rfl
  rw [List.append_nil] at hscan
  exact ⟨c, l, rfl, hscan⟩

/-- A keyword in any case is a word of its kind. -/
theorem isWord_of_keyword {word : Text} (hmem : (word, k) ∈ capitals)
    (hsame : Text.sameIgnoringAsciiCase word t = true) : IsWord t ∧ wordKind t = k := by
  have hcapitals : ∀ entry ∈ capitals, entry.1 ≠ [] ∧ entry.1.all Char.isAlpha = true ∧
      wordKind entry.1 = entry.2 := by decide +kernel
  obtain ⟨hne, hletters, hkind⟩ := hcapitals _ hmem
  have hlower : Text.asciiLower word = Text.asciiLower t := beq_iff_eq.mp hsame
  refine ⟨isWord_of_letters ?_ ?_, ?_⟩
  · rintro rfl
    exact hne (List.map_eq_nil_iff.mp hlower)
  · intro c hc
    have hcLower : c.toLower ∈ Text.asciiLower word := by
      rw [hlower]
      exact List.mem_map_of_mem hc
    obtain ⟨d, hd, heq⟩ := List.mem_map.mp hcLower
    rw [← isAlpha_toLower, ← heq, isAlpha_toLower]
    exact List.all_eq_true.mp hletters d hd
  · rw [← wordKind_asciiLower, ← hlower, wordKind_asciiLower]
    exact hkind

/-- **A text of some form is read as that kind** when it stands alone. -/
theorem scan_of_form (h : Form k t) : ∃ c l, t = c :: l ∧ scan c l = (k, t) := by
  have hword : ∀ {k : TokenKind} {t : Text}, IsWord t → wordKind t = k →
      ∃ c l, t = c :: l ∧ scan c l = (k, t) := by
    rintro _ t hword rfl
    exact scan_of_isWord hword
  cases h with
  | sign mem =>
      simp only [signs, List.mem_cons, List.not_mem_nil, or_false, Prod.mk.injEq] at mem
      rcases mem with ⟨rfl, rfl⟩ | ⟨rfl, rfl⟩ | ⟨rfl, rfl⟩ | ⟨rfl, rfl⟩ | ⟨rfl, rfl⟩ | ⟨rfl, rfl⟩ |
        ⟨rfl, rfl⟩ | ⟨rfl, rfl⟩ | ⟨rfl, rfl⟩ <;> exact ⟨_, _, rfl, rfl⟩
  | keyword mem same =>
      obtain ⟨hisWord, hkind⟩ := isWord_of_keyword mem same
      exact hword hisWord hkind
  | @string body closes => exact ⟨'"', body ++ ['"'], rfl, quoted_of_closes closes []⟩
  | @number sign whole fraction minus whole_digits point =>
      have hunsigned := isUnsignedNumber_iff.mpr ⟨whole, fraction, rfl, whole_digits, point⟩
      have hshape := isNumberShaped_iff.mpr ⟨sign, _, rfl, minus, hunsigned⟩
      exact hword (isWord_of_isNumberShaped hshape) (wordKind_of_isNumberShaped hshape)
  | date digits =>
      have hshape := isDateShaped_dateText digits
      exact hword (isWord_of_isDateShaped hshape) (wordKind_of_isDateShaped hshape)
  | relativeDate digits unit_mem =>
      have hshape := isRelativeShaped_iff.mpr ⟨_, _, rfl, digits, ofLetter?_isSome_iff.mpr unit_mem⟩
      exact hword (isWord_of_isRelativeShaped hshape) (wordKind_of_isRelativeShaped hshape)

/-- A lexeme is the same without what stands behind it. -/
theorem scan_alone (h : scan c (l ++ r) = (k, c :: l)) : scan c l = (k, c :: l) := by
  by_cases hr : r = []
  · rwa [hr, List.append_nil] at h
  · have hcut := scan_of_fits h hr (fits_of_separates separates_nil)
    rwa [List.append_nil] at hcut

/-- The lexer marks no fields. -/
theorem kind_ne_field_of_scan (h : scan c r = (k, l)) : k ≠ .field := by
  by_cases hk : k = .unknown
  · rw [hk]
    exact TokenKind.noConfusion
  · obtain ⟨_, _, hscans⟩ := scans_of_scan h hk
    exact hscans.kind_ne_field

/-- A word ends where no character of a word comes next. -/
theorem Scans.ends (h : Scans k l r) (hbare : k.isBare = true) :
    ∀ d, r.head? = some d → isWordChar d = false := by
  cases h with
  | mark c mark =>
      unfold markKind? at mark
      split_ifs at mark <;> (cases mark; cases hbare)
  | sign _ _ _ => cases hbare
  | signEquals _ _ => cases hbare
  | quoted _ _ => cases hbare
  | word _ _ _ _ ends => exact ends

end Lexeme

namespace Token

open Lexeme (Form Scans scan)

variable {source : Text} {t u : Token}

/-! ### The tokens of a source -/

theorem unmarked_markField (h : t.kind ≠ .field) (expected : Bool) :
    (markField expected t).kind.unmarked = t.kind := by
  rcases markField_cases expected t with hsame | ⟨hfield, hvalue⟩
  · rw [hsame, TokenKind.unmarked_of_ne_field h]
  · rw [hfield, hvalue]
    rfl

/-- A token of a source that is not the end of the input, and where it stands. -/
structure Stands (source : Text) (t : Token) (front : Text) (c : Char) (rest behind : Text) :
    Prop where
  source_eq : source = front ++ (t.text ++ behind)
  start_eq : t.start = Text.byteLength front
  stop_eq : t.stop = Text.byteLength (front ++ t.text)
  text_eq : t.text = c :: rest
  scan_eq : scan c (rest ++ behind) = (t.kind.unmarked, t.text)

/-- Whatever is read stands in the text, where it is scanned. -/
theorem Reads.exists_scan {o : Nat} {s : Text} {ts : List Token} (h : Reads [] o s ts)
    (ht : t ∈ ts) :
    ∃ front c rest behind, s = front ++ (t.text ++ behind) ∧ t.start = o + Text.byteLength front ∧
      t.stop = o + Text.byteLength (front ++ t.text) ∧ t.text = c :: rest ∧
        scan c (rest ++ behind) = (t.kind, t.text) := by
  induction h with
  | nil o => exact absurd ht List.not_mem_nil
  | @blank o c s ts _ _ ih =>
      obtain ⟨front, d, rest, behind, rfl, hstart, hstop, htext, hscan⟩ := ih ht
      refine ⟨c :: front, d, rest, behind, rfl, ?_, ?_, htext, hscan⟩
      · rw [hstart, Text.byteLength_cons, Nat.add_assoc]
      · rw [hstop, List.cons_append, Text.byteLength_cons, Nat.add_assoc]
  | @lexeme o k c l s ts _ scans _ ih =>
      rcases List.mem_cons.mp ht with rfl | hmem
      · rw [List.append_nil] at scans
        exact ⟨[], c, l, s, rfl, rfl, rfl, rfl, scans⟩
      · obtain ⟨front, d, rest, behind, rfl, hstart, hstop, htext, hscan⟩ := ih hmem
        refine ⟨c :: l ++ front, d, rest, behind, (List.append_assoc _ _ _).symm, ?_,
          ?_, htext, hscan⟩
        · rw [hstart, Text.byteLength_append, Nat.add_assoc]
        · rw [hstop, List.append_assoc, Text.byteLength_append (c :: l), Nat.add_assoc]

/-- **Every token but the end of the input stands in its source**, where the lexer reads it. -/
theorem exists_stands (h : t ∈ stream source) :
    t = ⟨.endOfInput, [], Text.byteLength source, Text.byteLength source⟩ ∨
      ∃ front c rest behind, Stands source t front c rest behind := by
  unfold stream at h
  rcases List.mem_append.mp h with hmem | hend
  · obtain ⟨raw, hraw, b, rfl⟩ := exists_of_mem_markFields hmem
    obtain ⟨front, c, rest, behind, hsource, hstart, hstop, htext, hscan⟩ :=
      (reads_all 0 source).exists_scan hraw
    rw [Nat.zero_add] at hstart hstop
    refine Or.inr ⟨front, c, rest, behind, ?_, ?_, ?_, ?_, ?_⟩
    · rw [markField_text]
      exact hsource
    · rw [markField_start]
      exact hstart
    · rw [markField_stop, markField_text]
      exact hstop
    · rw [markField_text]
      exact htext
    · rw [markField_text, hscan, unmarked_markField (Lexeme.kind_ne_field_of_scan hscan)]
  · exact Or.inl (List.mem_singleton.mp hend)

/-- What is not a plain word is told by its text, in both directions. -/
theorem kind_eq_iff_form (h : t ∈ stream source) {k : TokenKind} (hvalue : k ≠ .value)
    (hfield : k ≠ .field) (hunknown : k ≠ .unknown) (hend : k ≠ .endOfInput) :
    t.kind = k ↔ Form k t.text := by
  rcases exists_stands h with rfl | ⟨front, c, rest, behind, hstands⟩
  · constructor
    · intro hk
      exact absurd hk.symm hend
    · intro hform
      obtain ⟨c, l, hnil, _⟩ := Lexeme.scan_of_form hform
      cases hnil
  · have hscan := hstands.scan_eq
    constructor
    · rintro rfl
      rw [TokenKind.unmarked_of_ne_field hfield] at hscan
      obtain ⟨_, _, hscans⟩ := Lexeme.scans_of_scan hscan hunknown
      exact Lexeme.form_of_scans hscans hvalue
    · intro hform
      obtain ⟨d, l, htext, halone⟩ := Lexeme.scan_of_form hform
      rw [hstands.text_eq] at hscan htext halone
      obtain ⟨rfl, rfl⟩ := List.cons.inj htext
      rw [Lexeme.scan_alone hscan] at halone
      exact TokenKind.eq_of_unmarked (Prod.mk.inj halone).1 hvalue

/-- **Tokens of the same text are of the same kind**, in whatever sources they stand. -/
theorem unmarked_congr {other : Text} (h : t ∈ stream source) (h' : u ∈ stream other)
    (htext : t.text = u.text) : t.kind.unmarked = u.kind.unmarked := by
  rcases exists_stands h with rfl | ⟨_, c, rest, _, ht⟩ <;>
    rcases exists_stands h' with rfl | ⟨_, d, rest', _, hu⟩
  · rfl
  · exact absurd (htext.trans hu.text_eq) (List.cons_ne_nil _ _).symm
  · exact absurd (htext.symm.trans ht.text_eq) (List.cons_ne_nil _ _).symm
  · obtain ⟨rfl, rfl⟩ := List.cons.inj (ht.text_eq.symm.trans (htext.trans hu.text_eq))
    have hscan := ht.scan_eq
    have hscan' := hu.scan_eq
    rw [ht.text_eq] at hscan
    rw [hu.text_eq] at hscan'
    have halone := (Lexeme.scan_alone hscan).symm.trans (Lexeme.scan_alone hscan')
    exact (Prod.mk.inj halone).1

/-- No bare word is followed by a character of a word. -/
theorem Stands.ends {front behind rest : Text} {c : Char} (h : Stands source t front c rest behind)
    (hbare : t.kind.isBare = true) : ∀ d, behind.head? = some d → isWordChar d = false := by
  have hscan := h.scan_eq
  have hbare' : t.kind.unmarked.isBare = true := by
    rw [TokenKind.isBare_unmarked]
    exact hbare
  have hknown : t.kind.unmarked ≠ .unknown := by
    intro hk
    rw [hk] at hbare'
    cases hbare'
  obtain ⟨r, hsplit, hscans⟩ := Lexeme.scans_of_scan hscan hknown
  rw [h.text_eq, List.cons_append] at hsplit
  have hr : behind = r := List.append_cancel_left (List.cons.inj hsplit).2
  rw [hr]
  exact hscans.ends hbare'

end Token

end TicketSearch
