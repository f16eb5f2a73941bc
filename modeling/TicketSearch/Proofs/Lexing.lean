/-
Cutting a text into lexemes.

Where a lexeme ends is settled by the one character after it: a word must not go on, and
a sign of comparison must not get an equals sign.  `Scans` says so as a relation between
a lexeme and the text behind it, with a constructor for every sort of lexeme.  The lexer
cuts exactly so, by `scan_of_scans` and `scans_of_scan`.  So a lexeme stays the same when
what comes after it is replaced by anything that separates.

A text without unknown characters is a sequence of blanks and lexemes, `Lexes`.  The lexer
is deterministic: its answer is the one such sequence there is.
-/
import Mathlib.Data.List.TakeWhile
import Mathlib.Tactic.SplitIfs
import TicketSearch.Token.Stream
import TicketSearch.Proofs.Character

namespace TicketSearch

namespace Lexeme

/-! ### Lexemes and what may follow them -/

/-- The kind of a lexeme that is always a single character. -/
def markKind? (c : Char) : Option TokenKind :=
  if c = '(' then some .openParen
  else if c = ')' then some .closeParen
  else if c = ',' then some .comma
  else if c = '=' then some .operator
  else none

/-- A lexeme of some kind, and a text that can stand behind it. -/
inductive Scans : TokenKind → Text → Text → Prop
  /-- A parenthesis, a comma or an equals sign. -/
  | mark {k : TokenKind} {r : Text} (c : Char) (mark : markKind? c = some k) : Scans k [c] r
  /-- A sign that does not get an equals sign. -/
  | sign {r : Text} (c : Char) (sign : c = '<' ∨ c = '>') (ends : r.head? ≠ some '=') :
      Scans .operator [c] r
  | signEquals {r : Text} (c : Char) (sign : c = '<' ∨ c = '>' ∨ c = '!') :
      Scans .operator [c, '='] r
  | quoted {r : Text} (body : Text) (closes : ∀ d ∈ body, d ≠ '"') :
      Scans .string ('"' :: body ++ ['"']) r
  /-- A word that does not go on. -/
  | word {r : Text} (c : Char) (cs : Text) (starts : startsWord c cs = true)
      (goes : ∀ d ∈ cs, isWordChar d = true) (ends : ∀ d, r.head? = some d → isWordChar d = false) :
      Scans (wordKind (c :: cs)) (c :: cs) r

/-- A text that ends whatever lexeme stands before it. -/
def Separates (r : Text) : Prop :=
  ∀ d, r.head? = some d → isWordChar d = false ∧ d ≠ '='

theorem separates_nil : Separates [] := by
  intro d hd
  cases hd

theorem separates_cons {c : Char} {r : Text} (hword : isWordChar c = false) (heq : c ≠ '=') :
    Separates (c :: r) := by
  intro d hd
  cases hd
  exact ⟨hword, heq⟩

variable {k : TokenKind} {l r : Text} {c : Char} {rest : Text}

/-- What stands behind a lexeme can be replaced by anything that separates. -/
theorem Scans.of_separates (h : Scans k l r) {r' : Text} (hr : Separates r') : Scans k l r' := by
  cases h with
  | mark c mark => exact .mark c mark
  | sign c sign _ => exact .sign c sign fun heq => (hr '=' heq).2 rfl
  | signEquals c sign => exact .signEquals c sign
  | quoted body closes => exact .quoted body closes
  | word c cs starts goes _ => exact .word c cs starts goes fun d hd => (hr d hd).1

/-! ### Characters that start a word -/

theorem isNumeral_of_isDigit (h : c.isDigit = true) : isNumeral c = true := by
  have hc := (isDigit_iff c).mp h
  unfold isNumeral
  rw [if_pos (by omega), h]

theorem isWordChar_of_isDigit (h : c.isDigit = true) : isWordChar c = true := by
  unfold isWordChar
  rw [isNumeral_of_isDigit h]
  simp

theorem isWordChar_of_startsWord (h : startsWord c rest = true) : isWordChar c = true := by
  unfold startsWord at h
  simp only [Bool.or_eq_true, Bool.and_eq_true] at h
  rcases h with ((hletter | hline) | hdigit) | ⟨hdash, _⟩
  · unfold isWordChar
    rw [hletter]
    simp
  · unfold isWordChar
    rw [hline]
    simp
  · exact isWordChar_of_isDigit hdigit
  · unfold isWordChar
    rw [hdash]
    simp

/-- Whether a word starts depends on the word alone. -/
theorem startsWord_takeWhile :
    startsWord c (rest.takeWhile isWordChar) = startsWord c rest := by
  unfold startsWord
  cases rest with
  | nil => rfl
  | cons d ds =>
      rw [List.takeWhile_cons]
      by_cases hd : isWordChar d = true
      · rw [if_pos hd]
        rfl
      · have hdigit : d.isDigit = false := by
          rw [← Bool.not_eq_true]
          intro h
          exact hd (isWordChar_of_isDigit h)
        rw [if_neg hd]
        simp [hdigit]

/-- No blank can stand in a word. -/
theorem isWordChar_of_isBlank (h : isBlank c = true) : isWordChar c = false := by
  obtain ⟨hletter, hnumeral⟩ := not_isLetter_of_isBlank h
  have hother : ∀ d : Char, isBlank d = false → (c == d) = false := by
    intro d hd
    refine beq_false_of_ne ?_
    rintro rfl
    rw [h] at hd
    cases hd
  unfold isWordChar
  rw [hletter, hnumeral, hother '_' (by decide), hother '-' (by decide), hother '.' (by decide),
    hother '@' (by decide), hother '/' (by decide)]
  rfl

/-- A blank separates. -/
theorem separates_of_isBlank (h : isBlank c = true) : Separates (c :: rest) := by
  refine separates_cons (isWordChar_of_isBlank h) ?_
  rintro rfl
  exact absurd h (by decide)

/-! ### The lexer cuts so -/

theorem takeWhile_append_of_ends {p : Char → Bool} {cs r : Text} (goes : ∀ d ∈ cs, p d = true)
    (ends : ∀ d, r.head? = some d → p d = false) : (cs ++ r).takeWhile p = cs := by
  rw [List.takeWhile_append_of_pos goes]
  cases r with
  | nil => exact List.append_nil cs
  | cons d ds =>
      rw [List.takeWhile_cons, ends d rfl]
      exact List.append_nil cs

theorem head?_dropWhile {p : Char → Bool} {t : Text} {d : Char}
    (h : (t.dropWhile p).head? = some d) : p d = false := by
  induction t with
  | nil => cases h
  | cons c cs ih =>
      rw [List.dropWhile_cons] at h
      by_cases hc : p c = true
      · rw [if_pos hc] at h
        exact ih h
      · rw [if_neg hc] at h
        cases h
        exact Bool.not_eq_true _ ▸ hc

theorem scan_of_mark (h : markKind? c = some k) : scan c rest = (k, [c]) := by
  unfold markKind? at h
  unfold scan
  split_ifs at h with h1 h2 h3 h4
  · rw [if_pos h1, Option.some.inj h]
  · rw [if_neg h1, if_pos h2, Option.some.inj h]
  · rw [if_neg h1, if_neg h2, if_pos h3, Option.some.inj h]
  · rw [if_neg h1, if_neg h2, if_neg h3, if_pos h4, Option.some.inj h]

/-- Past the single characters, the lexer goes by the signs, the quote and the start of a word. -/
theorem scan_of_not_mark (h : markKind? c = none) :
    scan c rest =
      if c = '<' ∨ c = '>' then withEquals .operator c rest
      else if c = '!' then withEquals .unknown c rest
      else if c = '"' then quoted rest
      else if startsWord c rest then
        (wordKind (c :: rest.takeWhile isWordChar), c :: rest.takeWhile isWordChar)
      else (.unknown, [c]) := by
  unfold markKind? at h
  split_ifs at h with h1 h2 h3 h4
  unfold scan
  rw [if_neg h1, if_neg h2, if_neg h3, if_neg h4]

theorem withEquals_cons (alone : TokenKind) :
    withEquals alone c ('=' :: r) = (.operator, [c, '=']) :=
  rfl

theorem withEquals_of_ends (alone : TokenKind) (ends : rest.head? ≠ some '=') :
    withEquals alone c rest = (alone, [c]) := by
  unfold withEquals
  split
  · exact absurd rfl ends
  · rfl

theorem quoted_of_closes {body : Text} (closes : ∀ d ∈ body, d ≠ '"') (r : Text) :
    quoted (body ++ '"' :: r) = (.string, '"' :: body ++ ['"']) := by
  have hbody : ∀ d ∈ body, (d != '"') = true := fun d hd => bne_iff_ne.mpr (closes d hd)
  have hends : ∀ d, ('"' :: r).head? = some d → (d != '"') = false := by
    intro d hd
    cases hd
    rfl
  have htake := takeWhile_append_of_ends hbody hends
  have hdrop : (body ++ '"' :: r).dropWhile (· != '"') = '"' :: r := by
    rw [List.dropWhile_append_of_pos hbody]
    rfl
  unfold quoted
  rw [hdrop, htake]

/-- The lexer cuts off a lexeme that can stand before the rest of the text. -/
theorem scan_of_scans (h : Scans k l r) (hl : l = c :: rest) : scan c (rest ++ r) = (k, l) := by
  cases h with
  | mark c mark =>
      cases hl
      exact scan_of_mark mark
  | sign c sign ends =>
      cases hl
      have hmark : markKind? c = none := by rcases sign with rfl | rfl <;> rfl
      rw [scan_of_not_mark hmark, if_pos sign]
      exact withEquals_of_ends _ ends
  | signEquals c sign =>
      cases hl
      have hmark : markKind? c = none := by rcases sign with rfl | rfl | rfl <;> rfl
      rw [scan_of_not_mark hmark]
      rcases sign with rfl | rfl | rfl <;> rfl
  | quoted body closes =>
      have hc : c = '"' := (List.cons.inj hl).1.symm
      have hrest : rest = body ++ ['"'] := (List.cons.inj hl).2.symm
      rw [hc, hrest, scan_of_not_mark rfl, List.append_assoc]
      exact quoted_of_closes closes r
  | word c cs starts goes ends =>
      cases hl
      have htake := takeWhile_append_of_ends goes ends
      have hword := isWordChar_of_startsWord starts
      have hother : ∀ d : Char, isWordChar d = false → c ≠ d := by
        intro d hd heq
        rw [heq, hd] at hword
        cases hword
      have hmark : markKind? c = none := by
        unfold markKind?
        rw [if_neg (hother '(' (by decide)), if_neg (hother ')' (by decide)),
          if_neg (hother ',' (by decide)), if_neg (hother '=' (by decide))]
      have hsign : ¬(c = '<' ∨ c = '>') := by
        rintro (heq | heq)
        · exact hother '<' (by decide) heq
        · exact hother '>' (by decide) heq
      rw [scan_of_not_mark hmark, if_neg hsign, if_neg (hother '!' (by decide)),
        if_neg (hother '"' (by decide)), ← startsWord_takeWhile, htake, if_pos starts]

theorem scans_of_withEquals {alone : TokenKind} (hsign : c = '<' ∨ c = '>' ∨ c = '!')
    (halone : alone = .unknown ∨ alone = .operator ∧ (c = '<' ∨ c = '>'))
    (h : withEquals alone c rest = (k, l)) (hk : k ≠ .unknown) :
    ∃ r, c :: rest = l ++ r ∧ Scans k l r := by
  by_cases heq : rest.head? = some '='
  · obtain ⟨r, rfl⟩ := List.head?_eq_some_iff.mp heq
    rw [withEquals_cons] at h
    cases h
    exact ⟨r, rfl, .signEquals c hsign⟩
  · rw [withEquals_of_ends alone heq] at h
    cases h
    rcases halone with rfl | ⟨rfl, hc⟩
    · exact absurd rfl hk
    · exact ⟨rest, rfl, .sign c hc heq⟩

theorem scans_of_quoted (h : quoted rest = (k, l)) (hk : k ≠ .unknown) :
    ∃ r, '"' :: rest = l ++ r ∧ Scans k l r := by
  unfold quoted at h
  cases hdrop : rest.dropWhile (· != '"') with
  | nil =>
      rw [hdrop] at h
      cases h
      exact absurd rfl hk
  | cons d r =>
      rw [hdrop] at h
      cases h
      have hd : d = '"' := by
        have hfalse :=
          head?_dropWhile (show (rest.dropWhile (· != '"')).head? = some d by rw [hdrop]; rfl)
        exact bne_eq_false_iff_eq.mp hfalse
      rw [hd] at hdrop
      refine ⟨r, ?_, .quoted _ ?_⟩
      · rw [List.append_assoc, List.cons_append]
        show '"' :: rest = '"' :: (rest.takeWhile (· != '"') ++ ('"' :: r))
        rw [← hdrop, List.takeWhile_append_dropWhile]
      · intro e he
        have hne : (e != '"') = true := List.mem_takeWhile_imp (p := (· != '"')) he
        exact bne_iff_ne.mp hne

/-- Whatever the lexer knows is a lexeme that can stand before the rest of the text. -/
theorem scans_of_scan (h : scan c rest = (k, l)) (hk : k ≠ .unknown) :
    ∃ r, c :: rest = l ++ r ∧ Scans k l r := by
  cases hmark : markKind? c with
  | some k' =>
      rw [scan_of_mark hmark] at h
      cases h
      exact ⟨rest, rfl, .mark c hmark⟩
  | none =>
      rw [scan_of_not_mark hmark] at h
      by_cases hsign : c = '<' ∨ c = '>'
      · rw [if_pos hsign] at h
        exact scans_of_withEquals (hsign.imp_right Or.inl) (Or.inr ⟨rfl, hsign⟩) h hk
      · rw [if_neg hsign] at h
        by_cases hbang : c = '!'
        · rw [if_pos hbang] at h
          exact scans_of_withEquals (Or.inr (Or.inr hbang)) (Or.inl rfl) h hk
        · rw [if_neg hbang] at h
          by_cases hquote : c = '"'
          · rw [if_pos hquote] at h
            rw [hquote]
            exact scans_of_quoted h hk
          · rw [if_neg hquote] at h
            by_cases hword : startsWord c rest = true
            · rw [if_pos hword] at h
              cases h
              refine ⟨rest.dropWhile isWordChar, ?_, .word c _ ?_ ?_ ?_⟩
              · rw [List.cons_append, List.takeWhile_append_dropWhile]
              · rw [startsWord_takeWhile]
                exact hword
              · exact fun d hd => List.mem_takeWhile_imp hd
              · exact fun d hd => head?_dropWhile hd
            · rw [if_neg hword] at h
              cases h
              exact absurd rfl hk

/-- A lexeme is not empty and does not start with a blank. -/
theorem Scans.exists_cons (h : Scans k l r) : ∃ c rest, l = c :: rest ∧ isBlank c = false := by
  cases h with
  | mark c mark =>
      refine ⟨c, [], rfl, ?_⟩
      unfold markKind? at mark
      split_ifs at mark <;> (rename_i heq; rw [heq]; decide)
  | sign c sign _ =>
      refine ⟨c, [], rfl, ?_⟩
      rcases sign with rfl | rfl <;> decide
  | signEquals c sign =>
      refine ⟨c, ['='], rfl, ?_⟩
      rcases sign with rfl | rfl | rfl <;> decide
  | quoted body closes => exact ⟨'"', body ++ ['"'], rfl, by decide⟩
  | word c cs starts goes _ =>
      refine ⟨c, cs, rfl, ?_⟩
      by_cases hblank : isBlank c = true
      · have hword := isWordChar_of_startsWord starts
        rw [isWordChar_of_isBlank hblank] at hword
        cases hword
      · exact eq_false_of_ne_true hblank

/-- A word is a date, a number, a span, or what the keywords say. -/
theorem wordKind_cases (t : Text) :
    wordKind t = .date ∧ isDateShaped t = true ∨ wordKind t = .number ∧ isNumberShaped t = true ∨
      wordKind t = .relativeDate ∧ isRelativeShaped t = true ∨ wordKind t = .value ∨
        (Text.asciiLower t, wordKind t) ∈ keywords := by
  unfold wordKind
  split_ifs with hdate hnumber hrelative
  · exact Or.inl ⟨rfl, hdate⟩
  · exact Or.inr (Or.inl ⟨rfl, hnumber⟩)
  · exact Or.inr (Or.inr (Or.inl ⟨rfl, hrelative⟩))
  · cases hlookup : keywords.lookup (Text.asciiLower t) with
    | none => exact Or.inr (Or.inr (Or.inr (Or.inl rfl)))
    | some k =>
        obtain ⟨l₁, l₂, heq, _⟩ := List.lookup_eq_some_iff.mp hlookup
        refine Or.inr (Or.inr (Or.inr (Or.inr ?_)))
        rw [heq]
        exact List.mem_append_right _ List.mem_cons_self

/-- The kinds that no known lexeme has: fields are marked later, and the end comes last. -/
theorem Scans.kind_not_mem (h : Scans k l r) :
    k ∉ [TokenKind.unknown, TokenKind.field, TokenKind.endOfInput] := by
  have hkeywords : ∀ entry ∈ keywords,
      entry.2 ∉ [TokenKind.unknown, TokenKind.field, TokenKind.endOfInput] := by decide
  cases h with
  | mark c mark =>
      unfold markKind? at mark
      split_ifs at mark <;> (cases mark; decide)
  | sign c _ _ => decide
  | signEquals c _ => decide
  | quoted body _ => decide
  | word c cs _ _ _ =>
      rcases wordKind_cases (c :: cs) with ⟨hk, _⟩ | ⟨hk, _⟩ | ⟨hk, _⟩ | hk | hk
      · rw [hk]
        decide
      · rw [hk]
        decide
      · rw [hk]
        decide
      · rw [hk]
        decide
      · exact hkeywords _ hk

theorem Scans.kind_ne_field (h : Scans k l r) : k ≠ .field := by
  rintro rfl
  exact h.kind_not_mem (by decide)

theorem Scans.kind_ne_endOfInput (h : Scans k l r) : k ≠ .endOfInput := by
  rintro rfl
  exact h.kind_not_mem (by decide)

end Lexeme

namespace Token

open Lexeme (Scans Separates)

/-! ### Whole texts -/

/-- A text as blanks and lexemes, and its tokens when it starts at some offset. -/
inductive Lexes : Nat → Text → List Token → Prop
  | nil (o : Nat) : Lexes o [] []
  | blank {o : Nat} {c : Char} {r : Text} {ts : List Token} (blank : isBlank c = true)
      (rest : Lexes (o + c.utf8Size) r ts) : Lexes o (c :: r) ts
  | lexeme {o : Nat} {k : TokenKind} {l r : Text} {ts : List Token} (scans : Scans k l r)
      (rest : Lexes (o + Text.byteLength l) r ts) :
      Lexes o (l ++ r) (⟨k, l, o, o + Text.byteLength l⟩ :: ts)

theorem lexemesFrom_skip (o : Nat) (s r : Text) :
    lexemesFrom o s.length (s ++ r) = lexemesFrom (o + Text.byteLength s) 0 r := by
  induction s generalizing o with
  | nil => rfl
  | cons c cs ih =>
      show lexemesFrom (o + c.utf8Size) cs.length (cs ++ r) = _
      rw [ih, Text.byteLength_cons, Nat.add_assoc]

theorem lexemesFrom_blank {c : Char} (h : isBlank c = true) (o : Nat) (r : Text) :
    lexemesFrom o 0 (c :: r) = lexemesFrom (o + c.utf8Size) 0 r := by
  show (if isBlank c then _ else _) = _
  rw [if_pos h]

theorem lexemesFrom_scan {c : Char} (h : isBlank c = false) (o : Nat) (r : Text) :
    lexemesFrom o 0 (c :: r) =
      ⟨(Lexeme.scan c r).1, (Lexeme.scan c r).2, o, o + Text.byteLength (Lexeme.scan c r).2⟩ ::
        lexemesFrom (o + c.utf8Size) ((Lexeme.scan c r).2.length - 1) r := by
  show (if isBlank c then _ else _) = _
  rw [h, if_neg Bool.false_ne_true]

theorem lexemesFrom_of_scans {k : TokenKind} {l r : Text} (h : Scans k l r) (o : Nat) :
    lexemesFrom o 0 (l ++ r) =
      ⟨k, l, o, o + Text.byteLength l⟩ :: lexemesFrom (o + Text.byteLength l) 0 r := by
  obtain ⟨c, rest, rfl, hblank⟩ := h.exists_cons
  rw [List.cons_append, lexemesFrom_scan hblank, Lexeme.scan_of_scans h rfl]
  show _ :: lexemesFrom (o + c.utf8Size) rest.length (rest ++ r) = _
  rw [lexemesFrom_skip, Text.byteLength_cons, Nat.add_assoc]

/-- The lexer gives the tokens of any sequence of blanks and lexemes. -/
theorem Lexes.lexemesFrom_eq {o : Nat} {s : Text} {ts : List Token} (h : Lexes o s ts) :
    lexemesFrom o 0 s = ts := by
  induction h with
  | nil o => rfl
  | blank blank _ ih => rw [lexemesFrom_blank blank, ih]
  | lexeme scans _ ih => rw [lexemesFrom_of_scans scans, ih]

/-- A text in which the lexer knows every character is such a sequence. -/
theorem lexes_of_known {o : Nat} {s : Text} (h : ∀ t ∈ lexemesFrom o 0 s, t.kind ≠ .unknown) :
    Lexes o s (lexemesFrom o 0 s) := by
  induction hlength : s.length using Nat.strongRecOn generalizing o s with
  | ind n ih =>
      cases s with
      | nil => exact .nil o
      | cons c r =>
          by_cases hblank : isBlank c = true
          · rw [lexemesFrom_blank hblank] at h ⊢
            refine .blank hblank (ih r.length ?_ h rfl)
            rw [← hlength, List.length_cons]
            omega
          · have hc : isBlank c = false := eq_false_of_ne_true hblank
            have hknown : (Lexeme.scan c r).1 ≠ .unknown := by
              rw [lexemesFrom_scan hc] at h
              exact h _ List.mem_cons_self
            obtain ⟨behind, hsplit, hscans⟩ := Lexeme.scans_of_scan rfl hknown
            rw [hsplit, lexemesFrom_of_scans hscans] at h ⊢
            refine .lexeme hscans (ih behind.length ?_ ?_ rfl)
            · obtain ⟨d, ds, hl, _⟩ := hscans.exists_cons
              rw [← hlength, hsplit, hl, List.length_append, List.length_cons]
              omega
            · exact fun t ht => h t (List.mem_cons_of_mem _ ht)

/-! ### Texts up to the places of their tokens -/

/-- The kind and the text of a token: all of it but its place. -/
def spelling (t : Token) : TokenKind × Text :=
  (t.kind, t.text)

/-- A text and the spellings of its lexemes. -/
def Spells (s : Text) (spellings : List (TokenKind × Text)) : Prop :=
  ∀ o, ∃ ts, Lexes o s ts ∧ ts.map spelling = spellings

theorem spells_nil : Spells [] [] :=
  fun o => ⟨[], .nil o, rfl⟩

theorem Spells.blank {c : Char} {s : Text} {spellings : List (TokenKind × Text)}
    (h : Spells s spellings) (hc : isBlank c = true) : Spells (c :: s) spellings := by
  intro o
  obtain ⟨ts, hlexes, hts⟩ := h (o + c.utf8Size)
  exact ⟨ts, .blank hc hlexes, hts⟩

theorem Spells.lexeme {k : TokenKind} {l r : Text} {spellings : List (TokenKind × Text)}
    (h : Spells r spellings) (hscans : Scans k l r) : Spells (l ++ r) ((k, l) :: spellings) := by
  intro o
  obtain ⟨ts, hlexes, hts⟩ := h (o + Text.byteLength l)
  refine ⟨_, .lexeme hscans hlexes, ?_⟩
  rw [List.map_cons, hts]
  rfl

/-- The kind of a token once it is marked. -/
def markedKind (expected : Bool) (kind : TokenKind) (text : Text) : TokenKind :=
  if expected && kind == .value && (Field.resolve? text).isSome then .field else kind

/-- Marks the fields among spellings, as `markFields` does among tokens. -/
def markSpellings (expected afterIn : Bool) :
    List (TokenKind × Text) → List (TokenKind × Text)
  | [] => []
  | (kind, text) :: rest =>
    (markedKind expected kind text, text) ::
      markSpellings (expectsFieldAfter afterIn (markedKind expected kind text))
        (markedKind expected kind text == .inWord) rest

theorem markSpellings_cons (expected afterIn : Bool) {kind marked : TokenKind} {text : Text}
    (h : markedKind expected kind text = marked) (rest : List (TokenKind × Text)) :
    markSpellings expected afterIn ((kind, text) :: rest) =
      (marked, text) :: markSpellings (expectsFieldAfter afterIn marked)
        (marked == .inWord) rest := by
  rw [markSpellings, h]

theorem markedKind_unexpected (kind : TokenKind) (text : Text) :
    markedKind false kind text = kind := rfl

theorem markedKind_of_ne {kind : TokenKind} (h : kind ≠ .value) (expected : Bool) (text : Text) :
    markedKind expected kind text = kind := by
  unfold markedKind
  rw [beq_false_of_ne h, Bool.and_false, Bool.false_and, if_neg Bool.false_ne_true]

theorem markField_kind (expected : Bool) (t : Token) :
    (markField expected t).kind = markedKind expected t.kind t.text := by
  unfold markField markedKind
  split <;> rfl

theorem markField_text (expected : Bool) (t : Token) : (markField expected t).text = t.text := by
  unfold markField
  split <;> rfl

theorem map_markFields (expected afterIn : Bool) (ts : List Token) :
    (markFields expected afterIn ts).map spelling =
      markSpellings expected afterIn (ts.map spelling) := by
  induction ts generalizing expected afterIn with
  | nil => rfl
  | cons t ts ih =>
      show ((markField expected t).kind, (markField expected t).text) :: List.map spelling _ = _
      rw [ih, markField_kind, markField_text]
      rfl

/-! ### The tokens of a source -/

/-- Marking leaves a token as it is, or makes a plain word a field. -/
theorem markField_cases (expected : Bool) (t : Token) :
    markField expected t = t ∨
      markField expected t = { t with kind := .field } ∧ t.kind = .value := by
  unfold markField
  by_cases h : (expected && t.kind == .value && (Field.resolve? t.text).isSome) = true
  · rw [if_pos h]
    rw [Bool.and_eq_true, Bool.and_eq_true, beq_iff_eq] at h
    exact Or.inr ⟨rfl, h.1.2⟩
  · rw [if_neg h]
    exact Or.inl rfl

/-- Every known lexeme of a text is one before some rest of it. -/
theorem scans_of_mem {o skip : Nat} {s : Text} {t : Token} (h : t ∈ lexemesFrom o skip s)
    (hk : t.kind ≠ .unknown) : ∃ r, Scans t.kind t.text r := by
  induction s generalizing o skip with
  | nil =>
      cases skip <;> cases h
  | cons c cs ih =>
      cases skip with
      | succ skip => exact ih h
      | zero =>
          by_cases hblank : isBlank c = true
          · rw [lexemesFrom_blank hblank] at h
            exact ih h
          · rw [lexemesFrom_scan (eq_false_of_ne_true hblank)] at h
            rcases List.mem_cons.mp h with rfl | hrest
            · obtain ⟨r, _, hscans⟩ := Lexeme.scans_of_scan rfl hk
              exact ⟨r, hscans⟩
            · exact ih hrest

theorem exists_of_mem_markFields {expected afterIn : Bool} {ts : List Token} {t : Token}
    (h : t ∈ markFields expected afterIn ts) : ∃ raw ∈ ts, ∃ b, t = markField b raw := by
  induction ts generalizing expected afterIn with
  | nil => cases h
  | cons raw rest ih =>
      rcases List.mem_cons.mp h with heq | hrest
      · exact ⟨raw, List.mem_cons_self, expected, heq⟩
      · obtain ⟨raw', hmem, b, heq⟩ := ih hrest
        exact ⟨raw', List.mem_cons_of_mem _ hmem, b, heq⟩

/-- No token is left out when the fields are marked. -/
theorem exists_markField_mem {expected afterIn : Bool} {ts : List Token} {t : Token} (ht : t ∈ ts) :
    ∃ e, markField e t ∈ markFields expected afterIn ts := by
  induction ts generalizing expected afterIn with
  | nil => cases ht
  | cons u ts ih =>
      rcases List.mem_cons.mp ht with rfl | hmem
      · exact ⟨expected, List.mem_cons_self⟩
      · obtain ⟨e, he⟩ := ih hmem
        exact ⟨e, List.mem_cons_of_mem _ he⟩

/-- The end of the input is the last token of a source and no other. -/
theorem kind_ne_endOfInput {expected afterIn : Bool} {o skip : Nat} {s : Text} {t : Token}
    (h : t ∈ markFields expected afterIn (lexemesFrom o skip s)) : t.kind ≠ .endOfInput := by
  obtain ⟨raw, hraw, b, rfl⟩ := exists_of_mem_markFields h
  rcases markField_cases b raw with hsame | ⟨hfield, _⟩
  · rw [hsame]
    by_cases hknown : raw.kind = .unknown
    · rw [hknown]
      decide
    · obtain ⟨r, hscans⟩ := scans_of_mem hraw hknown
      exact hscans.kind_ne_endOfInput
  · rw [hfield]
    exact TokenKind.noConfusion

/-- A token of a source is the end of the input, or one of those that are marked. -/
theorem cases_of_stream_eq {s : Text} {pre post : List Token} {t : Token}
    (h : stream s = pre ++ t :: post) :
    t = ⟨.endOfInput, [], Text.byteLength s, Text.byteLength s⟩ ∨
      ∃ more, markFields true false (lexemesFrom 0 0 s) = pre ++ t :: more := by
  unfold stream at h
  rcases List.eq_nil_or_concat post with rfl | ⟨more, last, rfl⟩
  · exact Or.inl (List.cons.inj (List.append_inj' h rfl).2).1.symm
  · rw [List.concat_eq_append, ← List.cons_append, ← List.append_assoc] at h
    exact Or.inr ⟨more, (List.append_inj' h rfl).1⟩

end Token

end TicketSearch
