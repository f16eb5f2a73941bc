/-
A suggestion that is taken leads on.

Taking a suggestion replaces what is typed, and a space ends it.  The next context is that of
the place behind the new tokens, with nothing typed (`at?_accept`).  Two things are needed for
it.  The replacement must join no token before it: it starts with the same sort of character as
what was typed, or with a quote.  And it must be read as its own tokens, so that the automaton
goes on over them from where it stood.  The first is a matter of case (`fits_name`, `fits_value`
and so on), the second one of spelling.

What stands before is arbitrary; a source need not be anywhere near a query.
-/
import TicketSearch.Proofs.Case.Words
import TicketSearch.Proofs.Completion.Landing
import TicketSearch.Proofs.Completion.Standing
import TicketSearch.Proofs.Completion.Suggestion

namespace TicketSearch

open Lexeme (Fits Scans Separates)
open Place (Moves reached)

/-! ### Replacements that join no token before them -/

namespace Lexeme

variable {c : Char} {typed new : Text}

theorem not_isDigit_of_isLetter (h : isLetter c = true) : c.isDigit = false := by
  rw [← Bool.not_eq_true, isDigit_iff]
  intro hdigit
  unfold isLetter at h
  rw [if_pos (by omega), isAlpha_iff] at h
  omega

/-- A letter joins only what other characters of words join too. -/
theorem fits_of_isLetter {d : Char} (hc : isWordChar c = true) (hd : isLetter d = true)
    (cs ds : Text) : Fits (c :: cs) (d :: ds) := by
  constructor
  · intro _
    exact hc
  · intro heq
    rw [Option.some.inj heq] at hd
    cases hd
  · intro hdigit
    have hfalse : d.isDigit = true := hdigit
    rw [not_isDigit_of_isLetter hd] at hfalse
    cases hfalse

/-- A text may stand in place of one that differs from it in the case of the first
letter, and behind that. -/
theorem fits_of_toUpper {d : Char} (h : c.toUpper = d) (cs ds : Text) :
    Fits (c :: cs) (d :: ds) := by
  rcases toUpper_eq_or_isLetter c with hsame | ⟨hc, hd⟩
  · exact fits_of_head? (congrArg some (h.symm.trans hsame))
  · rw [h] at hd
    exact fits_of_isLetter (isWordChar_of_isLetter hc) hd cs ds

theorem fits_of_upper_prefix {cs word : Text} (h : c.toUpper :: cs <+: word) (ds : Text) :
    Fits (c :: typed) (word ++ ds) := by
  obtain ⟨r, rfl⟩ := h
  exact fits_of_toUpper rfl _ _

/-- The name of a field may stand in place of what is typed of any of its names, in any case. -/
theorem fits_name {f : Field} {name : Text} (hname : name ∈ f.names) (htyped : typed ≠ [])
    (h : Text.lower typed <+: Text.lower name) (r : Text) : Fits typed (f.name ++ r) := by
  have hnames : ∀ f : Field, ∀ name ∈ f.names, name.head?.map isWordChar = some true := by
    intro f
    cases f <;> decide
  have hletter : ∀ f : Field, ∃ d ds, f.name = d :: ds ∧ isLetter d = true := by
    intro f
    cases f <;> exact ⟨_, _, rfl, by decide⟩
  obtain ⟨d, ds, hcanonical, hd⟩ := hletter f
  have hhead := head?_of_prefix head?_lowerChar_isWordChar htyped h
  obtain ⟨c, cs, rfl⟩ := List.exists_cons_of_ne_nil htyped
  rw [hnames f name hname] at hhead
  rw [hcanonical]
  exact fits_of_isLetter (Option.some.inj hhead) hd _ _

/-- A bare value may stand in place of what is typed of it, in any case. -/
theorem fits_word {v : Text} (hv : IsWord v) (htyped : typed ≠ [])
    (h : Text.lower typed <+: Text.lower v) (r : Text) : Fits typed (v ++ r) := by
  obtain ⟨⟨d, ds, rfl, hstarts⟩, _⟩ := hv
  have hd := isWordChar_of_startsWord hstarts
  have hword := head?_of_prefix head?_lowerChar_isWordChar htyped h
  have hdigit := head?_of_prefix Caseless.isDigit.head?_lowerChar htyped h
  obtain ⟨c, cs, rfl⟩ := List.exists_cons_of_ne_nil htyped
  constructor
  · intro _
    exact (Option.some.inj hword).trans hd
  · intro heq
    rw [Option.some.inj heq] at hd
    cases hd
  · intro hnew
    exact (Option.some.inj hdigit).trans hnew

end Lexeme

/-! ### The tokens of a replacement -/

namespace Token

theorem markFields_of_kind_ne {ts : List Token} (h : ∀ t ∈ ts, t.kind ≠ .value)
    (expected afterIn : Bool) : markFields expected afterIn ts = ts := by
  induction ts generalizing expected afterIn with
  | nil => rfl
  | cons t ts ih =>
      rw [markFields, markField_of_kind_ne (h t List.mem_cons_self),
        ih fun u hu => h u (List.mem_cons_of_mem _ hu)]

theorem isValue_markField (expected : Bool) (t : Token) :
    (markField expected t).kind.isValue = t.kind.isValue := by
  rcases markField_cases expected t with hsame | ⟨hfield, hvalue⟩
  · rw [hsame]
  · rw [hfield, hvalue]
    rfl

end Token

namespace Place

/-- Where an operator leads from behind a field. -/
def behind (f : Option Field) : Operator → Place
  | .compare _ => .value f
  | .oneOf | .noneOf => .afterIn f
  | .isEmpty | .isNotEmpty => .keyword

theorem reads_word (k : TokenKind) (word : Text) (h : (k, word) ∈ keywordSpellings) (o : Nat) :
    Token.Reads [' '] o word [⟨k, word, o, o + Text.byteLength word⟩] :=
  .of_scans_end (scans_keyword h (separates_space [])) o

theorem reads_word_before (k : TokenKind) (word : Text) (h : (k, word) ∈ keywordSpellings) {o : Nat}
    {s : Text} {us : List Token} (more : Token.Reads [' '] (o + Text.byteLength word + 1) s us) :
    Token.Reads [' '] o (word ++ ' ' :: s) (⟨k, word, o, o + Text.byteLength word⟩ :: us) :=
  .of_scans (scans_keyword h (separates_space _)) (.blank (by decide) more)

/-- The words and signs of an operator are its tokens, and they lead where it does. -/
theorem exists_reads_symbol (op : Operator) (o : Nat) :
    ∃ us, Token.Reads [' '] o op.symbol us ∧ (∀ t ∈ us, t.kind ≠ .value) ∧
      ∀ f, us.foldl step (.operator f) = behind f op := by
  cases op with
  | compare op =>
      exact ⟨_, .of_scans_end (scans_symbol op []) o, by simp, fun f => rfl⟩
  | oneOf =>
      exact ⟨_, reads_word .inWord "IN" (by decide) o, by simp, fun f => rfl⟩
  | noneOf =>
      have hin := reads_word .inWord "IN" (by decide) (o + 3 + 1)
      exact ⟨_, reads_word_before .notWord "NOT" (by decide) hin, by simp, fun f => rfl⟩
  | isEmpty =>
      have hempty := reads_word .emptyWord "EMPTY" (by decide) (o + 2 + 1)
      exact ⟨_, reads_word_before .isWord "IS" (by decide) hempty, by simp, fun f => rfl⟩
  | isNotEmpty =>
      have hempty := reads_word .emptyWord "EMPTY" (by decide) (o + 2 + 1 + 3 + 1)
      have hnot := reads_word_before .notWord "NOT" (by decide) hempty
      exact ⟨_, reads_word_before .isWord "IS" (by decide) hnot, by simp, fun f => rfl⟩

/-- The name of a field leads to its operators, whether or not it is marked as a field. -/
theorem step_name (f : Field) (e : Bool) (start stop : Nat) :
    step .field (Token.markField e ⟨.value, f.name, start, stop⟩) = .operator (some f) := by
  have hresolve := congrArg Place.operator (Query.resolve?_name f)
  rcases Token.markField_cases e ⟨.value, f.name, start, stop⟩ with hsame | ⟨hfield, _⟩
  · rw [hsame]
    exact hresolve
  · rw [hfield]
    exact hresolve

/-- A value completes a predicate, and in a list it makes room for a comma. -/
theorem step_value {p : Place} {f : Option Field} {t : Token} (ht : t.kind.isValue = true)
    (hp : p = .value f ∨ p = .afterIn f ∨ p = .listValue f) :
    p.step t = if p.isListing then .listNext f else .keyword := by
  rcases hp with rfl | rfl | rfl
  · exact (Moves.value ht).step_eq
  · show step (.afterIn f) t = .keyword
    obtain ⟨kind, text, start, stop⟩ := t
    cases kind <;> first | rfl | cases ht
  · exact (Moves.listValue ht).step_eq

end Place

namespace Context

open Token (Reads Standing markField markFields stream)

variable {source : Text} {catalog : Catalog} {c : Context} {s : Suggestion}

/-! ### The context behind a replacement -/

/-- The source after a suggestion is taken and a space typed. -/
def accept (c : Context) (source : Text) (s : Suggestion) : Text :=
  c.splice source s.replacement ++ [' ']

/-- The context at the end of a source that ends in a space is that of the place reached. -/
theorem at?_of_reads {t : Text} {ts : List Token} (h : Reads [' '] 0 t ts) :
    at? (t ++ [' ']) (Text.byteLength (t ++ [' '])) =
      ofPlace? (t ++ [' ']) (Text.byteLength (t ++ [' '])) (Text.byteLength (t ++ [' ']))
        (reached (markFields true false ts)) := by
  have hlands : Place.Lands (reached (markFields true false ts)) (Text.byteLength t) [' '] _ _ :=
    .of_blank (by decide)
  rw [at?_of_lands h hlands (List.cons_ne_nil _ _), ← Text.byteLength_append]

/-- What is typed is replaced, and nothing else. -/
theorem splice_append_append {head : Text} (hposition : Text.byteLength head = c.position)
    (tail r : Text) : c.splice (head ++ c.typed ++ tail) r = head ++ r ++ tail := by
  have hbefore := Text.before?_append head (c.typed ++ tail)
  have hafter := Text.after?_append (head ++ c.typed) tail
  rw [← List.append_assoc, hposition] at hbefore
  rw [Text.byteLength_append, hposition] at hafter
  unfold splice
  rw [hbefore, hafter]

/-- What is typed at the end is replaced. -/
theorem splice_append {first : Text} (hposition : Text.byteLength first = c.position) (r : Text) :
    c.splice (first ++ c.typed) r = first ++ r := by
  have hsplice := splice_append_append hposition [] r
  rwa [List.append_nil, List.append_nil] at hsplice

theorem splice_eq {first : Text} {kept : List Token} (h : Standing source first c.typed kept)
    (hposition : Text.byteLength first = c.position) (r : Text) :
    c.splice source r = first ++ r := by
  rw [h.source_eq]
  exact splice_append hposition r

/-- **A replacement that fits leads on from the place before it, over its own tokens.** -/
theorem at?_accept {first : Text} {kept us : List Token} {p : Place}
    (h : Standing source first c.typed kept) (hposition : Text.byteLength first = c.position)
    (hfits : c.typed ≠ [] → Fits c.typed (s.replacement ++ [' ']))
    (hreads : Reads [' '] (0 + Text.byteLength first) s.replacement us)
    (hplace : ∀ e afterIn,
      (markFields e afterIn us).foldl Place.step (reached (markFields true false kept)) = p) :
    at? (c.accept source s) (Text.byteLength (c.accept source s)) =
      ofPlace? (c.accept source s) (Text.byteLength (c.accept source s))
        (Text.byteLength (c.accept source s)) p := by
  have hall : Reads [' '] 0 (first ++ s.replacement) (kept ++ us) := (h.reads _ hfits).append hreads
  obtain ⟨e, afterIn, happend⟩ := Token.markFields_append true false kept
  have hreached : reached (markFields true false (kept ++ us)) = p := by
    rw [happend, Place.reached_append]
    exact hplace e afterIn
  unfold accept
  rw [splice_eq h hposition, at?_of_reads hall, hreached]

/-! ### What is suggested, by what is typed -/

theorem exists_of_mem_suggest_field (hkind : c.kind = .field) (hs : s ∈ c.suggest catalog) :
    ∃ f : Field, ∃ name ∈ f.names, Text.lower c.typed <+: Text.lower name ∧
      s.replacement = f.name := by
  unfold suggest at hs
  rw [hkind] at hs
  obtain ⟨f, hf, rfl⟩ := List.mem_map.mp hs
  obtain ⟨name, hname, hprefix⟩ := List.any_eq_true.mp (List.mem_filter.mp hf).2
  exact ⟨f, name, hname, List.isPrefixOf_iff_prefix.mp hprefix, rfl⟩

theorem exists_of_mem_suggest_operator (hkind : c.kind = .operator) (hs : s ∈ c.suggest catalog) :
    ∃ op : Operator, normalizeOperator false false c.typed <+: op.symbol ∧
      s.replacement = op.symbol := by
  unfold suggest at hs
  rw [hkind] at hs
  obtain ⟨op, hop, rfl⟩ := List.mem_map.mp hs
  exact ⟨op, List.isPrefixOf_iff_prefix.mp (List.mem_filter.mp hop).2, rfl⟩

theorem exists_of_mem_suggest_keyword (hkind : c.kind = .keyword) (hs : s ∈ c.suggest catalog) :
    ∃ word : Text, (word = "AND".toList ∨ word = "OR".toList) ∧ Text.asciiUpper c.typed <+: word ∧
      s.replacement = word := by
  unfold suggest at hs
  rw [hkind] at hs
  obtain ⟨word, hword, rfl⟩ := List.mem_map.mp hs
  obtain ⟨hmem, hprefix⟩ := List.mem_filter.mp hword
  simp only [List.mem_cons, List.not_mem_nil, or_false] at hmem
  exact ⟨word, hmem, List.isPrefixOf_iff_prefix.mp hprefix, rfl⟩

/-- No value of a table has a double quote. -/
theorem not_mem_quote_of_table {f : Field} {values : List Text} (hf : f.source = .table values)
    {v : Text} (hv : v ∈ values) : '"' ∉ v := by
  have htables : ∀ f : Field, ∀ v ∈ f.tableValues, '"' ∉ v := by
    intro f
    cases f <;> decide
  refine htables f v ?_
  unfold Field.tableValues
  rw [hf]
  exact hv

theorem exists_of_mem_suggest_value (hkind : c.kind = .value) (hs : s ∈ c.suggest catalog)
    (hcatalog : ∀ roster, ∀ v ∈ catalog.values roster, '"' ∉ v) :
    ∃ v : Text, '"' ∉ v ∧ Text.lower (c.typed.dropWhile (· == '"')) <+: Text.lower v ∧
      s.replacement = (suggestValue (c.typed.head? == some '"') v).replacement := by
  unfold suggest at hs
  rw [hkind] at hs
  obtain ⟨v, hv, rfl⟩ := List.mem_map.mp hs
  obtain ⟨hmem, hprefix⟩ := List.mem_filter.mp hv
  refine ⟨v, ?_, List.isPrefixOf_iff_prefix.mp hprefix, rfl⟩
  cases hfield : c.field with
  | none =>
      rw [hfield] at hmem
      cases hmem
  | some f =>
      rw [hfield] at hmem
      have hcandidate : v ∈ candidates catalog f := hmem
      unfold candidates at hcandidate
      split at hcandidate
      · exact not_mem_quote_of_table ‹_› hcandidate
      · exact hcatalog _ v hcandidate
      · cases hcandidate

/-- A value is put in as one token, and it fits in place of what is typed. -/
theorem exists_scans_suggestValue {typed v : Text} (hquote : '"' ∉ v)
    (h : Text.lower (typed.dropWhile (· == '"')) <+: Text.lower v) :
    (∃ k, k.isValue = true ∧
        Scans k (suggestValue (typed.head? == some '"') v).replacement [' ']) ∧
      (typed ≠ [] →
        Fits typed ((suggestValue (typed.head? == some '"') v).replacement ++ [' '])) := by
  by_cases hquoted : (typed.head? == some '"' || !isBareValue v) = true
  · have hreplacement : (suggestValue (typed.head? == some '"') v).replacement =
        '"' :: v ++ ['"'] := by
      unfold suggestValue
      rw [if_pos hquoted]
    rw [hreplacement]
    refine ⟨⟨.string, rfl, .quoted v fun d hd heq => hquote (heq ▸ hd)⟩, fun _ => ?_⟩
    exact Lexeme.fits_of_separates (Lexeme.separates_cons (by decide) (by decide))
  · have hreplacement : (suggestValue (typed.head? == some '"') v).replacement = v := by
      unfold suggestValue
      rw [if_neg hquoted]
    rw [Bool.or_eq_true, not_or, Bool.not_eq_true', Bool.not_eq_false] at hquoted
    obtain ⟨hhead, hbare⟩ := hquoted
    obtain ⟨hword, hvalue⟩ := (isBareValue_iff v).mp hbare
    rw [hreplacement]
    refine ⟨⟨_, hvalue, hword.scans (separates_space [])⟩, fun htyped => ?_⟩
    have hwhole : typed.dropWhile (· == '"') = typed := by
      obtain ⟨d, ds, rfl⟩ := List.exists_cons_of_ne_nil htyped
      rw [List.dropWhile_cons_of_neg]
      intro heq
      exact hhead (by simp [beq_iff_eq.mp heq])
    rw [hwhole] at h
    exact Lexeme.fits_word hword htyped h [' ']

/-! ### The next context -/

/--
The context that a suggestion leads to, at a cursor behind it and a space.  A field leads to its
operators, an operator to values or past the predicate, a value past the predicate as well, and
`AND` and `OR` to a field.  In a list no suggestion follows a value, since only a comma or a
parenthesis can.
-/
inductive Continues (before : List Token) (c : Context) (s : Suggestion) (cursor : Nat) :
    Option Context → Prop
  | field (f : Field) (kind : c.kind = .field) (name : s.replacement = f.name) :
      Continues before c s cursor (some ⟨.operator, [], cursor, some f⟩)
  | sign (op : Comparison) (kind : c.kind = .operator) (symbol : s.replacement = op.symbol) :
      Continues before c s cursor (some ⟨.value, [], cursor, c.field⟩)
  | list (kind : c.kind = .operator)
      (symbol : s.replacement = Operator.oneOf.symbol ∨ s.replacement = Operator.noneOf.symbol) :
      Continues before c s cursor (some ⟨.value, [], cursor, c.field⟩)
  | presence (kind : c.kind = .operator)
      (symbol : s.replacement = Operator.isEmpty.symbol ∨
        s.replacement = Operator.isNotEmpty.symbol) :
      Continues before c s cursor (some ⟨.keyword, [], cursor, none⟩)
  | connective (kind : c.kind = .keyword) :
      Continues before c s cursor (some ⟨.field, [], cursor, none⟩)
  | value (kind : c.kind = .value) (outside : ¬Place.InList before) :
      Continues before c s cursor (some ⟨.keyword, [], cursor, none⟩)
  | listValue (kind : c.kind = .value) (inside : Place.InList before) :
      Continues before c s cursor none

/-- Nothing is typed at the end of a source that is the start of what is typed. -/
theorem between?_end (t : Text) :
    (Text.between? t (Text.byteLength t) (Text.byteLength t)).getD [] = [] := by
  have h := Text.between?_append t [] []
  rw [List.append_nil, List.append_nil] at h
  rw [h, Option.getD_some]

section

variable {first : Text} {kept before : List Token} (h : Standing source first c.typed kept)
  (hposition : Text.byteLength first = c.position) (hs : s ∈ c.suggest catalog)
include h hposition hs

theorem continues_field (hkind : c.kind = .field)
    (hplace : reached (markFields true false kept) = .field) :
    Continues before c s (Text.byteLength (c.accept source s))
      (at? (c.accept source s) (Text.byteLength (c.accept source s))) := by
  obtain ⟨f, name, hname, hprefix, hreplacement⟩ := exists_of_mem_suggest_field hkind hs
  have hreads := Reads.of_scans_end (scans_name f (separates_space [])) (0 + Text.byteLength first)
  have hfits : c.typed ≠ [] → Fits c.typed (s.replacement ++ [' ']) := by
    intro htyped
    rw [hreplacement]
    exact Lexeme.fits_name hname htyped hprefix [' ']
  rw [← hreplacement] at hreads
  have hnext := at?_accept h hposition hfits hreads (p := .operator (some f)) fun e afterIn => by
    rw [hplace, hreplacement]
    exact Place.step_name f e _ _
  rw [hnext]
  simp only [ofPlace?, between?_end]
  exact .field f hkind hreplacement

theorem continues_operator (hkind : c.kind = .operator)
    (hplace : reached (markFields true false kept) = .operator c.field) :
    Continues before c s (Text.byteLength (c.accept source s))
      (at? (c.accept source s) (Text.byteLength (c.accept source s))) := by
  obtain ⟨op, hprefix, hreplacement⟩ := exists_of_mem_suggest_operator hkind hs
  obtain ⟨us, hreads, hkinds, hsteps⟩ := Place.exists_reads_symbol op (0 + Text.byteLength first)
  have hfits : c.typed ≠ [] → Fits c.typed (s.replacement ++ [' ']) := by
    intro htyped
    obtain ⟨d, ds, hd⟩ := List.exists_cons_of_ne_nil htyped
    have hblank : isBlank d = false := h.starts d (by rw [hd]; rfl)
    rw [hd, normalizeOperator, hblank] at hprefix
    rw [hreplacement, hd]
    exact Lexeme.fits_of_upper_prefix hprefix [' ']
  rw [← hreplacement] at hreads
  have hnext := at?_accept h hposition hfits hreads (p := Place.behind c.field op)
    fun e afterIn => by
      rw [hplace, Token.markFields_of_kind_ne hkinds]
      exact hsteps c.field
  rw [hnext]
  cases op with
  | compare op =>
      simp only [Place.behind, ofPlace?, between?_end]
      exact .sign op hkind hreplacement
  | oneOf =>
      simp only [Place.behind, ofPlace?, between?_end]
      exact .list hkind (Or.inl hreplacement)
  | noneOf =>
      simp only [Place.behind, ofPlace?, between?_end]
      exact .list hkind (Or.inr hreplacement)
  | isEmpty =>
      simp only [Place.behind, ofPlace?, between?_end]
      exact .presence hkind (Or.inl hreplacement)
  | isNotEmpty =>
      simp only [Place.behind, ofPlace?, between?_end]
      exact .presence hkind (Or.inr hreplacement)

theorem continues_keyword (hkind : c.kind = .keyword)
    (hplace : reached (markFields true false kept) = .keyword) :
    Continues before c s (Text.byteLength (c.accept source s))
      (at? (c.accept source s) (Text.byteLength (c.accept source s))) := by
  obtain ⟨word, hword, hprefix, hreplacement⟩ := exists_of_mem_suggest_keyword hkind hs
  have hfits : c.typed ≠ [] → Fits c.typed (s.replacement ++ [' ']) := by
    intro htyped
    obtain ⟨d, ds, hd⟩ := List.exists_cons_of_ne_nil htyped
    rw [hd] at hprefix
    rw [hreplacement, hd]
    exact Lexeme.fits_of_upper_prefix hprefix [' ']
  have hconnective : ∃ k, (k = .andWord ∨ k = .orWord) ∧ (k, word) ∈ keywordSpellings := by
    rcases hword with rfl | rfl
    · exact ⟨.andWord, Or.inl rfl, by decide⟩
    · exact ⟨.orWord, Or.inr rfl, by decide⟩
  obtain ⟨k, hk, hspelling⟩ := hconnective
  have hreads := Place.reads_word k word hspelling (0 + Text.byteLength first)
  rw [← hreplacement] at hreads
  have hnext := at?_accept h hposition hfits hreads (p := .field) fun e afterIn => by
    rw [hplace, Token.markFields_of_kind_ne]
    · rcases hk with rfl | rfl <;> rfl
    · rcases hk with rfl | rfl <;> simp
  rw [hnext]
  simp only [ofPlace?, between?_end]
  exact .connective hkind

theorem continues_value (hkind : c.kind = .value)
    (hplace : reached (markFields true false kept) = .value c.field ∨
      reached (markFields true false kept) = .afterIn c.field ∨
        reached (markFields true false kept) = .listValue c.field)
    (hcatalog : ∀ roster, ∀ v ∈ catalog.values roster, '"' ∉ v) :
    Continues (markFields true false kept) c s (Text.byteLength (c.accept source s))
      (at? (c.accept source s) (Text.byteLength (c.accept source s))) := by
  obtain ⟨v, hquote, hprefix, hreplacement⟩ := exists_of_mem_suggest_value hkind hs hcatalog
  obtain ⟨⟨k, hk, hscans⟩, hfits⟩ := exists_scans_suggestValue hquote hprefix
  rw [← hreplacement] at hscans hfits
  have hreads := Reads.of_scans_end hscans (0 + Text.byteLength first)
  have hnext := at?_accept h hposition hfits hreads
    (p := if (reached (markFields true false kept)).isListing then .listNext c.field else .keyword)
    fun e afterIn => by
      refine Place.step_value ?_ hplace
      rw [Token.isValue_markField]
      exact hk
  rw [hnext]
  split_ifs with hlisting
  · exact .listValue hkind (Place.isListing_reached_iff.mp hlisting)
  · simp only [ofPlace?, between?_end]
    exact .value hkind fun hinside => hlisting (Place.isListing_reached_iff.mpr hinside)

end

/--
**Taking a suggestion leads to the context of what comes next.**  At the end of any source,
however much of it is not a query, the context behind a suggestion that is taken and a space is
the one that the query goes on with, and nothing is typed of it yet.
-/
theorem continues_of_mem_suggest
    (hcatalog : ∀ roster, ∀ v ∈ catalog.values roster, '"' ∉ v)
    (hc : at? source (Text.byteLength source) = some c) (hs : s ∈ c.suggest catalog) :
    Continues (split (stream source) (Text.byteLength source)).1 c s
      (Text.byteLength (c.accept source s))
      (at? (c.accept source s) (Text.byteLength (c.accept source s))) := by
  obtain ⟨first, kept, hstanding, hposition, hoffers, hbefore⟩ := exists_standing hc
  cases hkind : c.kind with
  | field =>
      rw [hkind] at hoffers
      exact continues_field hstanding hposition hs hkind hoffers.eq_of_field
  | operator =>
      rw [hkind] at hoffers
      exact continues_operator hstanding hposition hs hkind hoffers.eq_of_operator
  | value =>
      rw [hkind] at hoffers
      rw [hbefore (by rw [hkind]; exact ContextKind.noConfusion)]
      exact continues_value hstanding hposition hs hkind hoffers.eq_of_value hcatalog
  | keyword =>
      rw [hkind] at hoffers
      exact continues_keyword hstanding hposition hs hkind hoffers.eq_of_keyword

/-- In a list, here of a source that is no query, a value of two words is put in quotes and nothing
is offered behind it. -/
theorem continues_of_mem_suggest_in_list :
    at? "AND labels IN (b" 16 = some ⟨.value, "b", 15, some .labels⟩ ∧
      ⟨"b c", '"' :: "b c".toList ++ ['"']⟩ ∈
        suggest ⟨.value, "b", 15, some .labels⟩ ⟨[], [], [], ["b c"]⟩ ∧
      at? ("AND labels IN (".toList ++ '"' :: "b c".toList ++ ['"', ' ']) 21 = none := by
  have hcatalog : ∀ roster, ∀ v ∈ (Catalog.mk [] [] [] ["b c"]).values roster, '"' ∉ v := by
    intro roster
    cases roster <;> decide
  have hc : at? "AND labels IN (b" (Text.byteLength "AND labels IN (b") =
      some ⟨.value, "b", 15, some .labels⟩ := by decide +kernel
  have hs : ⟨"b c", '"' :: "b c".toList ++ ['"']⟩ ∈
      suggest ⟨.value, "b", 15, some .labels⟩ ⟨[], [], [], ["b c"]⟩ := by decide +kernel
  have hbefore : (split (stream "AND labels IN (b") (Text.byteLength "AND labels IN (b")).1 =
      [⟨.andWord, "AND", 0, 3⟩, ⟨.field, "labels", 4, 10⟩] ++ ⟨.inWord, "IN", 11, 13⟩ ::
        ([] ++ [⟨.openParen, "(", 14, 15⟩]) := by decide +kernel
  have hinside : Place.InList
      (split (stream "AND labels IN (b") (Text.byteLength "AND labels IN (b")).1 :=
    ⟨_, _, _, _, _, hbefore, rfl, rfl, by simp, rfl, by simp⟩
  have haccept : accept ⟨.value, "b", 15, some .labels⟩ "AND labels IN (b"
      ⟨"b c", '"' :: "b c".toList ++ ['"']⟩ =
        "AND labels IN (".toList ++ '"' :: "b c".toList ++ ['"', ' '] := by decide +kernel
  have hlength : Text.byteLength ("AND labels IN (".toList ++ '"' :: "b c".toList ++ ['"', ' ']) =
      21 := by
    decide +kernel
  have hnext := continues_of_mem_suggest hcatalog hc hs
  rw [haccept, hlength] at hnext
  refine ⟨hc, hs, ?_⟩
  generalize at? ("AND labels IN (".toList ++ '"' :: "b c".toList ++ ['"', ' ']) 21 =
    next at hnext ⊢
  cases hnext with
  | listValue _ _ => rfl
  | value _ outside => exact absurd hinside outside
  | field _ kind _ => cases kind
  | sign _ kind _ => cases kind
  | list kind _ => cases kind
  | presence kind _ => cases kind
  | connective kind => cases kind

end Context

end TicketSearch
