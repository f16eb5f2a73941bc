/-
Completion while an operator or a name is being typed.

Key by key, what is typed of an operator is read as ever different tokens: `!` starts none, `NO`
is a plain word, `NOT` is a keyword, and `is` begins the name of a field as well.  What carries
the context through all of them is where the last word stands.  It is open at its end, so that
it is under the cursor and does not count (`Lands.of_letters`).  The words before it are complete,
and the automaton goes on over them, but only to places that hold the offset of the first one
(`AwaitsOperator`).

How an operator may be typed is `Spelled`.  `Begins` is the same for a beginning of it, word by
word, and both what the lexer makes of it and what `normalizeOperator` does follow its cases.
-/
import Mathlib.Data.List.Infix
import TicketSearch.Proofs.Case.Source
import TicketSearch.Proofs.Completion.Splice

namespace TicketSearch

open Lexeme (IsWord Scans wordKind)
open Place (Begun reached)
open Text (Blank asciiLower asciiUpper byteLength)

/-! ### Texts that agree up to case -/

theorem toUpper_eq_of_toLower_eq {c d : Char} (h : c.toLower = d.toLower) :
    c.toUpper = d.toUpper := by
  have hnat : c.toLower.toNat = d.toLower.toNat := congrArg Char.toNat h
  rw [toNat_toLower, toNat_toLower] at hnat
  rw [← Char.toNat_inj, toNat_toUpper, toNat_toUpper]
  split at hnat <;> split at hnat <;> split <;> split <;> omega

namespace Text

variable {x w : Text}

/-- Whether a text is made of ASCII letters alone. -/
def Letters (t : Text) : Prop :=
  ∀ c ∈ t, c.isAlpha = true

instance (t : Text) : Decidable (Letters t) :=
  decidable_of_iff (t.all Char.isAlpha = true) List.all_eq_true

/-- A first part of two texts in a row lies in the first of them, or goes on behind it. -/
theorem prefix_append_or {p a b : Text} (h : p <+: a ++ b) :
    p <+: a ∨ ∃ q, p = a ++ q ∧ q <+: b := by
  rcases List.prefix_or_prefix_of_prefix h (List.prefix_append a b) with hfirst | ⟨q, rfl⟩
  · exact Or.inl hfirst
  · exact Or.inr ⟨q, rfl, (List.prefix_append_right_inj a).mp h⟩

theorem asciiUpper_isPrefix (h : asciiLower x <+: asciiLower w) :
    asciiUpper x <+: asciiUpper w := by
  induction x generalizing w with
  | nil => exact List.nil_prefix
  | cons c x ih =>
      cases w with
      | nil => exact absurd (List.prefix_nil.mp h) (List.cons_ne_nil _ _)
      | cons d w =>
          obtain ⟨hsame, hrest⟩ := List.cons_prefix_cons.mp h
          exact List.cons_prefix_cons.mpr ⟨toUpper_eq_of_toLower_eq hsame, ih hrest⟩

theorem exists_mem_of_isPrefix (h : asciiLower x <+: asciiLower w) {c : Char} (hc : c ∈ x) :
    ∃ d ∈ w, d.toLower = c.toLower :=
  List.mem_map.mp (h.subset (List.mem_map_of_mem hc))

theorem isBlank_of_isPrefix (h : asciiLower x <+: asciiLower w) (hw : ∀ c ∈ w, isBlank c = false) :
    ∀ c ∈ x, isBlank c = false := by
  intro c hc
  obtain ⟨d, hd, hsame⟩ := exists_mem_of_isPrefix h hc
  rw [← isBlank_toLower, ← hsame, isBlank_toLower]
  exact hw d hd

theorem Letters.of_isPrefix (hw : Letters w) (h : asciiLower x <+: asciiLower w) : Letters x := by
  intro c hc
  obtain ⟨d, hd, hsame⟩ := exists_mem_of_isPrefix h hc
  rcases eq_or_isAlpha_of_toLower_eq hsame with rfl | ⟨_, halpha⟩
  · exact hw d hd
  · exact halpha

theorem Letters.lower_eq (h : Letters x) : lower x = asciiLower x := by
  refine lowerAfter_of_ascii false fun c hc => ?_
  have hletter := (isAlpha_iff c).mp (h c hc)
  omega

end Text

open Text (Letters)

/-! ### Spellings -/

/--
A way to type a text: what is no blank is typed in either ASCII case, and one or more blanks, of
any sort, for each space.
-/
inductive Spelled : Text → Text → Prop
  | nil : Spelled [] []
  | char {c d : Char} {s t : Text} (mark : isBlank d = false) (same : c.toLower = d.toLower)
      (rest : Spelled s t) : Spelled (c :: s) (d :: t)
  | space {gap s t : Text} (blank : Blank gap) (some : gap ≠ []) (rest : Spelled s t) :
      Spelled (gap ++ s) (' ' :: t)

/-- Words with a space between each two of them. -/
def unwords : List Text → Text
  | [] => []
  | [w] => w
  | w :: more => w ++ ' ' :: unwords more

/-- A beginning of some words: some of them whole, with blanks behind each, and
then a part of the next. -/
inductive Begins : Text → List Text → Prop
  | within {x w : Text} {more : List Text} (part : asciiLower x <+: asciiLower w) :
      Begins x (w :: more)
  | past {x gap p w : Text} {more : List Text} (whole : asciiLower x = asciiLower w)
      (blank : Blank gap) (some : gap ≠ []) (rest : Begins p more) :
      Begins (x ++ (gap ++ p)) (w :: more)

theorem unwords_cons (w : Text) {more : List Text} (h : more ≠ []) :
    unwords (w :: more) = w ++ ' ' :: unwords more := by
  obtain ⟨w', more, rfl⟩ := List.exists_cons_of_ne_nil h
  rfl

/-- A word or sign as operators have them: not empty, without blanks and in upper case. -/
structure IsSymbolWord (w : Text) : Prop where
  some : w ≠ []
  marks : ∀ c ∈ w, isBlank c = false
  upper : asciiUpper w = w

namespace Spelled

variable {s t w p : Text} {words : List Text}

/-- A word is typed in either case. -/
theorem asciiLower_eq (h : Spelled s w) (hw : ∀ c ∈ w, isBlank c = false) :
    asciiLower s = asciiLower w := by
  induction h with
  | nil => rfl
  | char _ same _ ih =>
      obtain ⟨_, hrest⟩ := List.forall_mem_cons.mp hw
      simp [same, ih hrest]
  | space _ _ _ _ =>
      have hspace := hw ' ' List.mem_cons_self
      exact absurd hspace (by decide)

/-- What comes before a space is typed before the blanks. -/
theorem exists_split (h : Spelled s (w ++ ' ' :: t)) (hw : ∀ c ∈ w, isBlank c = false) :
    ∃ x gap s', s = x ++ (gap ++ s') ∧ asciiLower x = asciiLower w ∧ Blank gap ∧ gap ≠ [] ∧
      Spelled s' t := by
  induction w generalizing s with
  | nil =>
      cases h with
      | char mark _ _ => exact absurd mark (by decide)
      | space blank some rest => exact ⟨[], _, _, rfl, rfl, blank, some, rest⟩
  | cons d w ih =>
      obtain ⟨hd, hrest⟩ := List.forall_mem_cons.mp hw
      cases h with
      | char _ same rest =>
          obtain ⟨x, gap, s', rfl, hx, hgap⟩ := ih rest hrest
          exact ⟨_ :: x, gap, s', rfl, by simp [same, hx], hgap⟩
      | space _ _ _ => exact absurd hd (by decide)

/-- **A first part of what is typed for some words is a beginning of them.** -/
theorem begins (h : Spelled s (unwords words)) (hwords : ∀ w ∈ words, IsSymbolWord w)
    (hsome : words ≠ []) (hp : p <+: s) : Begins p words := by
  induction words generalizing s p with
  | nil => exact absurd rfl hsome
  | cons w more ih =>
      obtain ⟨hw, hmore⟩ := List.forall_mem_cons.mp hwords
      cases more with
      | nil =>
          have hs : asciiLower s = asciiLower w := h.asciiLower_eq hw.marks
          exact .within (hs ▸ hp.map _)
      | cons w' more =>
          rw [unwords_cons w (List.cons_ne_nil _ _)] at h
          obtain ⟨x, gap, s', rfl, hx, hblank, hgap, hrest⟩ := exists_split h hw.marks
          have ih := fun p hp => ih (p := p) hrest hmore (List.cons_ne_nil _ _) hp
          rcases Text.prefix_append_or hp with hwithin | ⟨q, rfl, hq⟩
          · exact .within (hx ▸ hwithin.map _)
          rcases Text.prefix_append_or hq with hblanks | ⟨q', rfl, hq'⟩
          · by_cases hnone : q = []
            · rw [hnone, List.append_nil]
              exact .within (hx ▸ List.prefix_rfl)
            · have hpart := Begins.past hx (fun c hc => hblank c (hblanks.subset hc)) hnone
                (ih [] List.nil_prefix)
              rwa [List.append_nil] at hpart
          · exact .past hx hblank hgap (ih q' hq')

end Spelled

/-! ### A beginning as suggestions are looked up by it -/

namespace Context

variable {x gap : Text}

theorem normalizeOperator_blank (h : Blank gap) (hsome : gap ≠ []) (started b : Bool) (r : Text) :
    normalizeOperator started b (gap ++ r) = normalizeOperator started true r := by
  induction gap generalizing b with
  | nil => exact absurd rfl hsome
  | cons c gap ih =>
      obtain ⟨hc, hrest⟩ := List.forall_mem_cons.mp h
      rw [List.cons_append, normalizeOperator, if_pos hc]
      by_cases hnil : gap = []
      · rw [hnil, List.nil_append]
      · exact ih hrest hnil true

/-- A word is put in upper case, with a space before it where it is not the first. -/
theorem normalizeOperator_word (h : ∀ c ∈ x, isBlank c = false) (hsome : x ≠ []) (started b : Bool)
    (r : Text) :
    normalizeOperator started b (x ++ r) =
      (if started && b then [' '] else []) ++ (asciiUpper x ++ normalizeOperator true false r) := by
  induction x generalizing started b with
  | nil => exact absurd rfl hsome
  | cons c x ih =>
      obtain ⟨hc, hrest⟩ := List.forall_mem_cons.mp h
      rw [List.cons_append, normalizeOperator, hc, if_neg Bool.false_ne_true]
      by_cases hnil : x = []
      · rw [hnil]
        rfl
      · rw [ih hrest hnil]
        rfl

end Context

namespace Begins

open Context (normalizeOperator normalizeOperator_blank normalizeOperator_word)
open Text (asciiUpper_isPrefix isBlank_of_isPrefix)

variable {p : Text} {words : List Text}

/-- **A beginning of some words is looked up as a first part of them.** -/
theorem normalizeOperator_isPrefix (h : Begins p words) (hwords : ∀ w ∈ words, IsSymbolWord w)
    (b : Bool) : normalizeOperator b b p <+: (if b then [' '] else []) ++ unwords words := by
  induction h generalizing b with
  | @within x w more part =>
      obtain ⟨hw, _⟩ := List.forall_mem_cons.mp hwords
      have hx : asciiUpper x <+: w := hw.upper ▸ asciiUpper_isPrefix part
      have hword : w <+: unwords (w :: more) := by
        cases more with
        | nil => exact List.prefix_rfl
        | cons w' more => exact List.prefix_append _ _
      by_cases hnone : x = []
      · rw [hnone, normalizeOperator, Bool.and_self]
        exact List.prefix_append _ _
      · have hnormal := normalizeOperator_word (isBlank_of_isPrefix part hw.marks) hnone b b []
        rw [List.append_nil, Bool.and_self] at hnormal
        rw [hnormal, normalizeOperator, Bool.and_false, if_neg Bool.false_ne_true, List.append_nil]
        exact (List.prefix_append_right_inj _).mpr (hx.trans hword)
  | @past x gap p w more whole blank some rest ih =>
      obtain ⟨hw, hmore⟩ := List.forall_mem_cons.mp hwords
      have hpart : asciiLower x <+: asciiLower w := whole ▸ List.prefix_rfl
      have hlength : (asciiUpper x).length = (asciiUpper w).length := by
        have hlower := congrArg List.length whole
        simpa [asciiLower, asciiUpper] using hlower
      have hx : asciiUpper x = w :=
        ((asciiUpper_isPrefix hpart).eq_of_length hlength).trans hw.upper
      have hnone : x ≠ [] := by
        rintro rfl
        exact hw.some hx.symm
      have hsome : more ≠ [] := by
        rintro rfl
        cases rest
      rw [normalizeOperator_word (isBlank_of_isPrefix hpart hw.marks) hnone,
        normalizeOperator_blank blank some, hx, Bool.and_self, unwords_cons w hsome]
      exact (List.prefix_append_right_inj _).mpr
        ((List.prefix_append_right_inj _).mpr (ih hmore true))

end Begins

namespace Operator

/-- The words and signs of an operator. -/
def words : Operator → List Text
  | noneOf => ["NOT", "IN"]
  | isEmpty => ["IS", "EMPTY"]
  | isNotEmpty => ["IS", "NOT", "EMPTY"]
  | op => [op.symbol]

theorem unwords_words (op : Operator) : unwords op.words = op.symbol := by
  cases op <;> rfl

theorem isSymbolWord (op : Operator) : ∀ w ∈ op.words, IsSymbolWord w := by
  have hwords : ∀ op ∈ all, ∀ w ∈ op.words,
      w ≠ [] ∧ w.all (fun c => !isBlank c) = true ∧ asciiUpper w = w := by decide +kernel
  have hmem : op ∈ all := by
    cases op with
    | compare cmp => cases cmp <;> decide
    | _ => decide
  intro w hw
  obtain ⟨hsome, hmarks, hupper⟩ := hwords op hmem w hw
  simp only [List.all_eq_true, Bool.not_eq_true'] at hmarks
  exact ⟨hsome, hmarks, hupper⟩

/-- A first part of what is typed for an operator is a beginning of its words. -/
theorem begins (op : Operator) {spelling p : Text} (h : Spelled spelling op.symbol)
    (hp : p <+: spelling) : Begins p op.words := by
  have hsome : op.words ≠ [] := by cases op <;> exact List.cons_ne_nil _ _
  rw [← op.unwords_words] at h
  exact h.begins op.isSymbolWord hsome hp

end Operator

/-! ### A beginning as the automaton reads it -/

namespace Place

variable {here : Place} {o start : Nat} {x p : Text}

/-- A word of letters is open, whether or not more of it comes. -/
theorem Lands.of_letters (h : Letters x) : Lands here o x here o := by
  by_cases hsome : x = []
  · rw [hsome]
    exact of_blank (fun c hc => absurd hc List.not_mem_nil)
  · have hscans := (Lexeme.isWord_of_letters hsome h).scans Lexeme.separates_nil
    have hlexemes := Token.lexemesFrom_of_scans hscans o
    rw [List.append_nil] at hlexemes
    exact of_open hlexemes hsome (Lexeme.isOpen_wordKind x)

/-! ### Where the beginning of an operator leads -/

/-- The places at which an operator that starts at `o` is being typed, with what is
typed of it at `start`. -/
inductive AwaitsOperator (f : Option Field) (o : Nat) : Place → Nat → Prop
  | due : AwaitsOperator f o (.operator f) o
  | begun {p : Place} {start : Nat} (begun : Begun f o p) : AwaitsOperator f o p start

/-- From a place at which an operator is being typed, any beginning of some words
keeps to such places. -/
def Follows (f : Option Field) (o : Nat) (here : Place) (words : List Text) : Prop :=
  ∀ p start, Begins p words → AwaitsOperator f o here start →
    ∃ place start', Lands here start p place start' ∧ AwaitsOperator f o place start'

variable {f : Option Field} {w : Text} {more : List Text}

theorem Follows.last (hw : Letters w) : Follows f o here [w] := by
  intro p start hp hawaits
  cases hp with
  | within part => exact ⟨here, start, .of_letters (hw.of_isPrefix part), hawaits⟩
  | past _ _ _ rest => cases rest

theorem AwaitsOperator.start_eq (h : AwaitsOperator f o (.operator f) start) : start = o := by
  cases h with
  | due => rfl
  | begun begun => cases begun

/-- A keyword leads on to other such places. -/
theorem Follows.keyword {next : Place} (hw : Letters w) (hsome : w ≠ [])
    (hkind : wordKind w ≠ .value) (hnext : Begun f o next)
    (hstep : ∀ x start stop, AwaitsOperator f o here start →
      here.step ⟨wordKind w, x, start, stop⟩ = next)
    (h : Follows f o next more) : Follows f o here (w :: more) := by
  intro p start hp hawaits
  cases hp with
  | within part => exact ⟨here, start, .of_letters (hw.of_isPrefix part), hawaits⟩
  | @past x gap p _ _ whole blank some rest =>
      have hx : x ≠ [] := by
        rintro rfl
        exact hsome (List.map_eq_nil_iff.mp whole.symm)
      have hletters : Letters x := hw.of_isPrefix (whole ▸ List.prefix_rfl)
      have hscans : Scans (wordKind w) x (gap ++ p) := by
        rw [← Lexeme.wordKind_asciiLower w, ← whole, Lexeme.wordKind_asciiLower]
        exact (Lexeme.isWord_of_letters hx hletters).scans (Token.separates_of_blank blank some)
      obtain ⟨place, start', hlands, hawaits'⟩ :=
        h p (start + byteLength x + byteLength gap) rest (.begun hnext)
      refine ⟨place, start', .past hscans hkind blank some ?_, hawaits'⟩
      rw [hstep x start _ hawaits]
      exact hlands

/-- A first part of a sign starts no token, or is a sign that may still grow. -/
theorem lands_sign (op : Comparison) (hp : p <+: op.symbol) (hproper : p ≠ op.symbol) :
    Lands (.operator f) o p (.operator f) o := by
  have hnone : Lands (.operator f) o [] (.operator f) o :=
    .of_blank (fun c hc => absurd hc List.not_mem_nil)
  have hbang : Lands (.operator f) o ['!'] (.operator f) o :=
    .of_open (k := .unknown) rfl (List.cons_ne_nil _ _) (Lexeme.isOpen_unknown _)
  have hless : Lands (.operator f) o ['<'] (.operator f) o :=
    .of_open (k := .operator) rfl (List.cons_ne_nil _ _) (Lexeme.isOpen_sign (Or.inl rfl))
  have hgreater : Lands (.operator f) o ['>'] (.operator f) o :=
    .of_open (k := .operator) rfl (List.cons_ne_nil _ _) (Lexeme.isOpen_sign (Or.inr rfl))
  have hparts : ∀ op ∈ Comparison.all, ∀ p ∈ op.symbol.inits, p ≠ op.symbol →
      p = [] ∨ p = ['!'] ∨ p = ['<'] ∨ p = ['>'] := by decide
  have hop : op ∈ Comparison.all := by cases op <;> decide
  rcases hparts op hop p ((List.mem_inits p op.symbol).mpr hp) hproper with rfl | rfl | rfl | rfl
  · exact hnone
  · exact hbang
  · exact hless
  · exact hgreater

/-- **Wherever one stops in typing an operator, completion still waits for it.** -/
theorem exists_lands_operator (op : Operator) {spelling : Text} (h : Spelled spelling op.symbol)
    (hp : p <+: spelling) (hproper : p ≠ spelling) :
    ∃ place start, Lands (.operator f) o p place start ∧ AwaitsOperator f o place start := by
  have hfollows : Follows f o (.operator f) op.words →
      ∃ place start, Lands (.operator f) o p place start ∧ AwaitsOperator f o place start :=
    fun hfollows => hfollows p o (op.begins h hp) .due
  have hin : ∀ here, Follows f o here ["IN"] := fun here => .last (by decide)
  have hempty : ∀ here, Follows f o here ["EMPTY"] := fun here => .last (by decide)
  have his : ∀ x start stop, AwaitsOperator f o (.operator f) start →
      step (.operator f) ⟨wordKind "IS", x, start, stop⟩ = .afterIs f o := by
    intro x start stop hawaits
    rw [hawaits.start_eq]
    exact (Moves.isWord rfl).step_eq
  cases op with
  | compare cmp =>
      have hall : cmp.symbol.all (fun c => !c.isAlpha && !isBlank c) = true := by
        cases cmp <;> decide
      have hsign : ∀ c ∈ cmp.symbol, c.isAlpha = false ∧ isBlank c = false := by simpa using hall
      have hlower := h.asciiLower_eq fun c hc => (hsign c hc).2
      have hsame : spelling = cmp.symbol := by
        have heq := Text.apply_asciiLower (p := (· == cmp.symbol))
          (fun t ht c hc => (hsign c (eq_of_beq ht ▸ hc)).1) spelling
        have hsymbol := Text.asciiLower_eq_self fun c hc => (hsign c hc).1
        rw [hlower] at heq
        exact eq_of_beq (heq.symm.trans (beq_iff_eq.mpr hsymbol))
      rw [hsame] at hp hproper
      exact ⟨_, _, lands_sign cmp hp hproper, .due⟩
  | oneOf => exact hfollows (hin _)
  | noneOf =>
      refine hfollows (.keyword (by decide) (by decide) (by decide) .afterNot ?_ (hin _))
      intro x start stop hawaits
      rw [hawaits.start_eq]
      exact (Moves.notWord rfl).step_eq
  | isEmpty => exact hfollows (.keyword (by decide) (by decide) (by decide) .afterIs his (hempty _))
  | isNotEmpty =>
      refine hfollows (.keyword (by decide) (by decide) (by decide) .afterIs his ?_)
      refine .keyword (by decide) (by decide) (by decide) .afterIs ?_ (hempty _)
      intro x start stop _
      exact (Moves.notAfterIs rfl).step_eq

end Place

/-- The names of fields are words of letters. -/
theorem Field.letters_of_mem_names {f : Field} {name : Text} (h : name ∈ f.names) :
    Letters name := by
  revert name
  cases f <;> decide

namespace Context

open Place (AwaitsOperator Lands)
open Token (Standing markFields stream)

variable {source p : Text} {c : Context}

/-! ### Typing at the end of a source -/

theorem ofPlace?_of_awaitsOperator {f : Option Field} {o start cursor : Nat} {place : Place}
    (h : AwaitsOperator f o place start) :
    ofPlace? source start cursor place =
      some ⟨.operator, (Text.between? source o cursor).getD [], o, f⟩ := by
  cases h with
  | due => rfl
  | begun begun => cases begun <;> rfl

/-- What `p` is when it is typed behind a source, for the field in scope if there is one. -/
def typing (kind : ContextKind) (source p : Text) (f : Option Field) : Context :=
  ⟨kind, p, byteLength source, f⟩

/-- The operators that go on as what is typed are suggested. -/
theorem mem_suggest_operator {f : Field} {op : Operator} (hop : op ∈ f.operators)
    (h : normalizeOperator false false p <+: op.symbol) (catalog : Catalog) :
    .plain op.symbol ∈ (typing .operator source p (some f)).suggest catalog := by
  refine List.mem_map_of_mem (List.mem_filter.mpr ⟨hop, ?_⟩)
  exact List.isPrefixOf_iff_prefix.mpr h

/-- So are the fields with a name that does, in any case. -/
theorem mem_suggest_field {f : Field} {name : Text} (hname : name ∈ f.names)
    (h : Text.lower p <+: Text.lower name) (catalog : Catalog) :
    .plain f.name ∈ (typing .field source p none).suggest catalog := by
  have hf : f ∈ Field.all := by cases f <;> decide
  refine List.mem_map_of_mem (List.mem_filter.mpr ⟨hf, ?_⟩)
  exact List.any_eq_true.mpr ⟨name, hname, List.isPrefixOf_iff_prefix.mpr h⟩

/--
**Completion stays with an operator, and with the name of a field, while it is typed.**  The
source before is any at the end of which the operator of a field is due, or a name.  Behind it
stands a part of an operator that the field offers, in any spelling of it, or of a name.
-/
theorem at?_typing (h : at? source (byteLength source) = some c) (hnone : c.typed = [])
    (catalog : Catalog) :
    (c.kind = .operator → ∀ f : Field, c.field = some f → ∀ op ∈ f.operators, ∀ spelling p,
      Spelled spelling op.symbol → p <+: spelling → p ≠ spelling →
        at? (source ++ p) (byteLength (source ++ p)) = some (typing .operator source p (some f)) ∧
          .plain op.symbol ∈ (typing .operator source p (some f)).suggest catalog ∧
            (typing .operator source p (some f)).splice (source ++ p) op.symbol =
              source ++ op.symbol) ∧
    (c.kind = .field → ∀ f : Field, ∀ name ∈ f.names, ∀ p, p ≠ [] →
      asciiLower p <+: asciiLower name →
      at? (source ++ p) (byteLength (source ++ p)) = some (typing .field source p none) ∧
        .plain f.name ∈ (typing .field source p none).suggest catalog) := by
  obtain ⟨first, kept, hstanding, hposition, hoffers, _⟩ := exists_standing h
  rw [hnone] at hstanding
  obtain rfl : source = first := hstanding.source_eq.trans (List.append_nil first)
  have hreads : ∀ p, Token.Reads p 0 source kept :=
    fun p => hstanding.reads p fun hsome => absurd rfl hsome
  constructor
  · intro hkind f hfield op hop spelling p hspelled hp hproper
    rw [hkind, hfield] at hoffers
    have hat : at? (source ++ p) (byteLength (source ++ p)) =
        some (typing .operator source p (some f)) := by
      by_cases hempty : p = []
      · rw [hempty, List.append_nil, h, typing, ← hnone, hposition, ← hfield, ← hkind]
      · obtain ⟨place, start, hlands, hawaits⟩ := Place.exists_lands_operator op hspelled hp hproper
        rw [← hoffers.eq_of_operator] at hlands
        rw [at?_of_lands (hreads p) hlands hempty, ofPlace?_of_awaitsOperator hawaits,
          between?_behind, typing]
    have hprefix := (op.begins hspelled hp).normalizeOperator_isPrefix op.isSymbolWord false
    rw [op.unwords_words] at hprefix
    exact ⟨hat, mem_suggest_operator hop hprefix catalog, splice_append rfl _⟩
  · intro hkind f name hname p hsome hp
    rw [hkind] at hoffers
    have hletters := Field.letters_of_mem_names hname
    have htyped := hletters.of_isPrefix hp
    have hplace := at?_of_lands (hreads p) (.of_letters htyped) hsome
    rw [hoffers.eq_of_field] at hplace
    have hlower : Text.lower p <+: Text.lower name := by
      rw [htyped.lower_eq, hletters.lower_eq]
      exact hp
    refine ⟨?_, mem_suggest_field hname hlower catalog⟩
    rw [hplace, typing]
    simp only [ofPlace?, between?_behind]

/-- `NOT IN` before its last letter, in small letters and with a tab, and the first two letters of
`issuetype`, which are a keyword as well. -/
theorem at?_typing_of_keywords :
    at? "type not \tI" 11 = some ⟨.operator, "not \tI", 5, some .type⟩ ∧
      .plain "NOT IN" ∈ suggest ⟨.operator, "not \tI", 5, some .type⟩ .blank ∧
      at? "(iS" 3 = some ⟨.field, "iS", 1, none⟩ ∧
        .plain "type" ∈ suggest ⟨.field, "iS", 1, none⟩ .blank := by
  have hoperator : at? "type " 5 = some ⟨.operator, [], 5, some .type⟩ := by decide +kernel
  have hfield : at? "(" 1 = some ⟨.field, [], 1, none⟩ := by decide +kernel
  have hspelled : Spelled "not \tIn" "NOT IN" := by
    have hin : Spelled "In" "IN" :=
      .char (by decide) (by decide) (.char (by decide) (by decide) .nil)
    have hblank : Blank " \t" := by decide
    have hgap : Spelled " \tIn" " IN" := .space hblank (by decide) hin
    exact .char (by decide) (by decide)
      (.char (by decide) (by decide) (.char (by decide) (by decide) hgap))
  obtain ⟨hat, hsuggest, _⟩ := (at?_typing hoperator rfl .blank).1 rfl .type rfl .noneOf
    (by decide) "not \tIn" "not \tI" hspelled (by decide) (by decide)
  obtain ⟨hat', hsuggest'⟩ := (at?_typing hfield rfl .blank).2 rfl .type "issuetype" (by decide)
    "iS" (by decide) (by decide)
  exact ⟨hat, hsuggest, hat', hsuggest'⟩

end Context

end TicketSearch
