/-
Blanks around texts in the database.

The evaluation trims the texts of a cell before it compares them, and a cell is empty when
nothing stays.  The database compares the lower case of a text as it stands in the column,
and its `TRIM` takes off spaces but no other blanks.  So the two differ in two ways:

  * a text with blanks around it is found by the evaluation only, since the lower case of
    such a text is never a trimmed text (`lower_eq_folded_iff`);
  * a text of blanks that are not all spaces is empty to the evaluation only.

They differ in no other way: `compile_untidy` says for each operator on which cells the two
agree.
-/
import TicketSearch.Proofs.Case.Ends
import TicketSearch.Proofs.Catalog
import TicketSearch.Proofs.Sql.Agreement

namespace TicketSearch

open Text (lower)
open Sql (any_comm any_congr_mem holds_eq_and trimSpaces)

/--
The lower case of a text is the folded form of another exactly when they have the same
folded form and the first has no blanks at its ends.
-/
theorem lower_eq_folded_iff {s v : Text} :
    lower s = folded v ↔ Text.trim s = s ∧ folded s = folded v := by
  constructor
  · intro h
    have htrimmed : Text.trim (lower s) = lower s := by
      rw [h]
      unfold folded
      rw [Text.trim_lower, Text.trim_trim]
    have hs := Text.trim_eq_of_lower htrimmed
    refine ⟨hs, ?_⟩
    rw [← h]
    unfold folded
    rw [hs]
  · rintro ⟨hs, h⟩
    rw [← h]
    unfold folded
    rw [hs]

namespace Cell

/-! ### Texts in a cell -/

/-- Whether one of some texts is in a cell, up to blanks around it and to case. -/
def finds (sought : List Text) (c : Cell) : Bool :=
  c.texts.any fun s => sought.any fun v => folded s == folded v

/-- Whether one of some texts is in a cell up to case, without blanks around it there. -/
def findsTidy (sought : List Text) (c : Cell) : Bool :=
  c.texts.any fun s => sought.any fun v => lower s == folded v

/-- Whether a cell in which one of some texts is found has one of them without blanks around it. -/
def Shows (sought : List Text) (c : Cell) : Prop :=
  c.isEmpty = false → (∃ s ∈ c.texts, ∃ v ∈ sought, folded s = folded v) →
    ∃ s ∈ c.texts, Text.trim s = s ∧ ∃ v ∈ sought, folded s = folded v

/-- Whether a cell holds blanks only, but not only spaces. -/
def IsOddlyBlank : Cell → Prop
  | text s => Text.trim s = [] ∧ trimSpaces s ≠ []
  | missing | number _ | date _ | list _ => False

variable {sought : List Text} {c : Cell}

theorem finds_iff : c.finds sought = true ↔ ∃ s ∈ c.texts, ∃ v ∈ sought, folded s = folded v := by
  simp only [finds, List.any_eq_true, beq_iff_eq]

theorem findsTidy_iff : c.findsTidy sought = true ↔
    ∃ s ∈ c.texts, Text.trim s = s ∧ ∃ v ∈ sought, folded s = folded v := by
  simp only [findsTidy, List.any_eq_true, beq_iff_eq, lower_eq_folded_iff]
  constructor
  · rintro ⟨s, hs, v, hv, htrim, hsame⟩
    exact ⟨s, hs, htrim, v, hv, hsame⟩
  · rintro ⟨s, hs, htrim, v, hv, hsame⟩
    exact ⟨s, hs, v, hv, htrim, hsame⟩

theorem finds_of_findsTidy (h : c.findsTidy sought = true) : c.finds sought = true := by
  obtain ⟨s, hs, _, hsought⟩ := findsTidy_iff.mp h
  exact finds_iff.mpr ⟨s, hs, hsought⟩

theorem shows_iff : c.Shows sought ↔ (c.isEmpty = false → c.findsTidy sought = c.finds sought) := by
  unfold Shows
  rw [← finds_iff, ← findsTidy_iff]
  refine forall_congr' fun _ => ⟨fun h => ?_, fun h hfinds => h.trans hfinds⟩
  rw [Bool.eq_iff_iff]
  exact ⟨finds_of_findsTidy, h⟩

/-- What a field of text without an order can hold. -/
theorem Fits.cases {kind : ValueKind} (hkind : kind = .enum ∨ kind = .text ∨ kind = .list)
    (h : c.Fits kind) :
    c = .missing ∨ (∃ s, c = .text s ∧ (kind = .enum ∨ kind = .text)) ∨
      ∃ items, c = .list items ∧ kind = .list := by
  cases c with
  | missing => exact Or.inl rfl
  | text s =>
      refine Or.inr (Or.inl ⟨s, rfl, ?_⟩)
      rcases hkind with hkind | hkind | hkind
      · exact Or.inl hkind
      · exact Or.inr hkind
      · rcases h with h | h | h <;> rw [hkind] at h <;> cases h
  | list items => exact Or.inr (Or.inr ⟨items, rfl, h⟩)
  | number x | date i =>
      have hother : kind = _ := h
      rcases hkind with hkind | hkind | hkind <;> rw [hkind] at hother <;> cases hother

/-! ### Evaluation -/

theorem any_beq_singleton (text : Text) :
    (fun s : Text => [text].any fun v => folded s == folded v) =
    fun s => folded s == folded text := by
  funext s
  rw [List.any_cons, List.any_nil, Bool.or_false]

/-- A cell that is not empty equals a literal when the text of the literal is found in it. -/
theorem equal?_eq_finds {f : Field} (hkind : f.kind = .enum ∨ f.kind = .text ∨ f.kind = .list)
    (hfits : c.Fits f.kind) (hne : c.isEmpty = false) (value : Literal) (now : Instant) :
    equal? f c value now = some (c.finds [value.text]) := by
  unfold finds
  rw [any_beq_singleton]
  rcases hfits.cases hkind with rfl | ⟨s, rfl, htext⟩ | ⟨items, rfl, hlist⟩
  · cases hne
  · have hf : f ≠ .sprint := by
      rintro rfl
      rcases htext with h | h <;> cases h
    rw [equal?_text (htext.imp_right Or.inr) hf]
    exact congrArg some (Bool.or_false _).symm
  · exact equal?_list hlist items value now

theorem finds_eq_any (texts : List Text) :
    c.finds texts = texts.any fun v => c.finds [v] := by
  unfold finds
  simp only [any_beq_singleton]
  exact any_comm (fun s v => folded s == folded v) c.texts texts

theorem holds_eq_finds {f : Field} (hkind : f.kind = .enum ∨ f.kind = .text ∨ f.kind = .list)
    (hfits : c.Fits f.kind) {op : Comparison} (hop : ¬op.isOrdering = true) (value : Literal)
    (now : Instant) :
    holds f op c value now = (!c.isEmpty && (c.finds [value.text] != (op == .notEq))) := by
  cases hempty : c.isEmpty with
  | true => rw [holds_eq_and, hempty]; rfl
  | false =>
      rcases Comparison.eq_or_notEq hop with rfl | rfl
      · rw [holds_eq hempty, equal?_eq_finds hkind hfits hempty, some_beq_true]
        exact (Bool.xor_false _).symm
      · rw [holds_notEq hempty, equal?_eq_finds hkind hfits hempty, some_beq_false]
        exact (Bool.xor_true _).symm

theorem any_equal?_eq_finds {f : Field} (hkind : f.kind = .enum ∨ f.kind = .text ∨ f.kind = .list)
    (hfits : c.Fits f.kind) (values : List Literal) (now : Instant) :
    (!c.isEmpty && values.any fun value => equal? f c value now == some true) =
      (!c.isEmpty && c.finds (values.map Literal.text)) := by
  cases hempty : c.isEmpty with
  | true => rfl
  | false =>
      rw [finds_eq_any, List.any_map]
      refine congrArg (!false && ·) (any_congr_mem fun value _ => ?_)
      rw [equal?_eq_finds hkind hfits hempty, some_beq_true, Function.comp_apply]

/-! ### What the database takes for empty -/

/-- Missing values, texts of spaces and lists without items: what the guard in the
database takes for empty. -/
def looksEmpty : Cell → Bool
  | missing => true
  | text s => (trimSpaces s).isEmpty
  | list items => items.isEmpty
  | number _ | date _ => false

/-- A text of which no more than spaces can be taken off is blank when nothing else is there. -/
theorem trim_of_trimSpaces {s : Text} (h : trimSpaces s = []) : Text.trim s = [] := by
  have hrest : ∀ c ∈ s.dropWhile (· == ' '), (c == ' ') = true :=
    List.rdropWhile_eq_nil_iff.mp h
  have hspaces : s.dropWhile (· == ' ') = [] := by
    by_contra hne
    have hhead := List.head_dropWhile_not (· == ' ') hne
    rw [hrest _ (List.head_mem hne)] at hhead
    cases hhead
  have hblank : ∀ c ∈ s, isBlank c = true := by
    intro c hc
    rw [beq_iff_eq.mp (List.dropWhile_eq_nil_iff.mp hspaces c hc)]
    decide
  show Text.trimEnd (s.dropWhile isBlank) = []
  rw [List.dropWhile_eq_nil_iff.mpr hblank]
  rfl

theorem isEmpty_of_looksEmpty (h : c.looksEmpty = true) : c.isEmpty = true := by
  cases c with
  | missing => rfl
  | text s => exact List.isEmpty_iff.mpr (trim_of_trimSpaces (List.isEmpty_iff.mp h))
  | list items => exact h
  | number x | date i => cases h

theorem looksEmpty_of_isEmpty (h : c.isEmpty = false) : c.looksEmpty = false := by
  rw [← Bool.not_eq_true]
  intro hlooks
  rw [isEmpty_of_looksEmpty hlooks] at h
  cases h

theorem looksEmpty_eq_isEmpty_iff : c.looksEmpty = c.isEmpty ↔ ¬c.IsOddlyBlank := by
  cases c with
  | text s =>
      show (trimSpaces s).isEmpty = (Text.trim s).isEmpty ↔ ¬(Text.trim s = [] ∧ trimSpaces s ≠ [])
      rw [Bool.eq_iff_iff, List.isEmpty_iff, List.isEmpty_iff]
      constructor
      · rintro h ⟨hblank, hodd⟩
        exact hodd (h.mpr hblank)
      · intro h
        refine ⟨trim_of_trimSpaces, fun hblank => ?_⟩
        by_contra hodd
        exact h ⟨hblank, hodd⟩
  | missing | number x | date i | list items => exact ⟨fun _ => not_false, fun _ => rfl⟩

/-- Nothing is found without blanks around it in a cell that is blank. -/
theorem findsTidy_of_isEmpty (hempty : c.isEmpty = true) (hlooks : c.looksEmpty = false) :
    c.findsTidy sought = false := by
  rw [← Bool.not_eq_true]
  intro h
  obtain ⟨s, hs, htrim, _⟩ := findsTidy_iff.mp h
  cases c with
  | text s' =>
      obtain rfl := List.mem_singleton.mp hs
      rw [List.isEmpty_iff.mp (show (Text.trim s).isEmpty = true from hempty)] at htrim
      rw [← htrim] at hlooks
      cases hlooks
  | list items =>
      rw [List.isEmpty_iff.mp (show items.isEmpty = true from hempty)] at hs
      cases hs
  | missing | number x | date i => cases hs

/-! ### Where the two agree -/

/-- Searching for texts agrees on the cells that show what is found in them. -/
theorem guarded_findsTidy_iff :
    (!c.looksEmpty && c.findsTidy sought) = (!c.isEmpty && c.finds sought) ↔ c.Shows sought := by
  rw [shows_iff]
  cases hempty : c.isEmpty with
  | true =>
      simp only [Bool.not_true, Bool.false_and, Bool.true_eq_false, false_implies, iff_true]
      cases hlooks : c.looksEmpty with
      | true => rfl
      | false => exact findsTidy_of_isEmpty hempty hlooks
  | false =>
      simp only [looksEmpty_of_isEmpty hempty, Bool.not_false, Bool.true_and, true_implies]

/-- Looking for another text agrees where, besides, both sides take the same cells for empty. -/
theorem guarded_not_findsTidy_iff :
    (!c.looksEmpty && !c.findsTidy sought) = (!c.isEmpty && !c.finds sought) ↔
      c.Shows sought ∧ ¬c.IsOddlyBlank := by
  rw [shows_iff, ← looksEmpty_eq_isEmpty_iff]
  cases hempty : c.isEmpty with
  | true =>
      cases hlooks : c.looksEmpty with
      | true => simp
      | false => simp [findsTidy_of_isEmpty hempty hlooks]
  | false =>
      simp [looksEmpty_of_isEmpty hempty]

end Cell

namespace Sql

variable {db : Database} {row : Row} {f : Field} {now : Instant} {c : Cell}

/-- A database whose `LOWER` is Unicode lower case and whose `TRIM` takes off spaces only. -/
structure Database.TrimsSpaces (db : Database) : Prop where
  lower_eq : ∀ t, db.lower t = Text.lower t
  trim_eq : ∀ t, db.trim t = trimSpaces t

theorem Database.plain_trimsSpaces : Database.plain.TrimsSpaces :=
  ⟨fun _ => rfl, fun _ => rfl⟩

/-! ### Conditions on untidy cells -/

theorem truth_absent_untidy (hdb : db.TrimsSpaces)
    (hkind : f.kind = .enum ∨ f.kind = .text ∨ f.kind = .list) (hfits : (row f).Fits f.kind) :
    db.truth row (absent f) = some (row f).looksEmpty := by
  unfold absent
  rcases hfits.cases hkind with hcell | ⟨s, hcell, htext⟩ | ⟨items, hcell, hlist⟩
  · rw [hcell]
    rcases hkind with hkind | hkind | hkind <;> rw [hkind] <;>
      simp [Database.truth, hcell, Cell.looksEmpty]
  · have hblank : db.truth row (.or (.isNull f) (.isBlank f)) = some (trimSpaces s).isEmpty := by
      simp only [Database.truth, hcell, hdb.trim_eq, Database.compare_text_eq]
      cases trimSpaces s <;> rfl
    rw [hcell]
    rcases htext with hkind | hkind <;> rw [hkind] <;> exact hblank
  · rw [hlist, hcell]
    simp [Database.truth, hcell, Cell.looksEmpty]

theorem truth_guarded_untidy (hdb : db.TrimsSpaces)
    (hkind : f.kind = .enum ∨ f.kind = .text ∨ f.kind = .list) (hfits : (row f).Fits f.kind)
    {leaf : Condition} {b : Bool}
    (hleaf : (row f).looksEmpty = false → db.truth row leaf = some b) :
    db.truth row (.and (present f) leaf) = some (!(row f).looksEmpty && b) := by
  have hpresent : db.truth row (present f) = some (!(row f).looksEmpty) := by
    show Truth.not (db.truth row (absent f)) = _
    rw [truth_absent_untidy hdb hkind hfits, Truth.not_some]
  show Truth.and (db.truth row (present f)) (db.truth row leaf) = _
  rw [hpresent]
  cases hlooks : (row f).looksEmpty with
  | true => rfl
  | false => rw [hleaf hlooks, Truth.and_some]

/-- The lower case of a column compared with a literal: what the column shows of it decides. -/
theorem truth_compareLowered_untidy (hdb : db.TrimsSpaces) {s : Text} (hcell : row f = .text s)
    {op : Comparison} (hop : ¬op.isOrdering = true) (value : Literal) :
    db.truth row (compareLowered f op value) =
      some ((row f).findsTidy [value.text] != (op == .notEq)) := by
  have hfinds : (row f).findsTidy [value.text] = (lower s == folded value.text) := by
    rw [hcell]
    simp only [Cell.findsTidy, Cell.texts, List.any_cons, List.any_nil, Bool.or_false]
  have hoperand : db.operand row (.lowered f) = some (.text (lower s)) := by
    simp only [Database.operand, hcell, hdb.lower_eq]
  show db.compare (db.operand row (.lowered f)) op (.text (folded value.text)) = _
  rw [hoperand, hfinds]
  rcases Comparison.eq_or_notEq hop with rfl | rfl
  · rw [Database.compare_text_eq]
    exact congrArg some (Bool.xor_false _).symm
  · rw [Database.compare_text_notEq]
    exact congrArg some (Bool.xor_true _).symm

theorem truth_oneOf_untidy (hdb : db.TrimsSpaces) {s : Text} (hcell : row f = .text s)
    (values : List Literal) :
    db.truth row (.oneOf (.lowered f) (values.map fun v => .text (loweredText v))) =
      some ((row f).findsTidy (values.map Literal.text)) := by
  have hoperand : db.operand row (.lowered f) = some (.text (lower s)) := by
    simp only [Database.operand, hcell, hdb.lower_eq]
  have hfinds : (row f).findsTidy (values.map Literal.text) =
      values.any fun v => lower s == folded v.text := by
    rw [hcell]
    simp only [Cell.findsTidy, Cell.texts, List.any_cons, List.any_nil, Bool.or_false, List.any_map]
    rfl
  show db.isOneOf (db.operand row (.lowered f)) _ = _
  rw [hoperand, hfinds]
  refine db.isOneOf_eq (List.forall₂_map_right_iff.mpr (List.forall₂_same.mpr ?_))
  intro v _
  exact db.compare_text_eq (lower s) (folded v.text)

theorem truth_hasItem_untidy (hdb : db.TrimsSpaces) {items : List Text}
    (hcell : row f = .list items) {values : List Literal} (hvalues : values ≠ []) :
    db.truth row (.hasItem f (values.map loweredText)) =
      some ((row f).findsTidy (values.map Literal.text)) := by
  have hne : values.map loweredText ≠ [] := fun h => hvalues (List.map_eq_nil_iff.mp h)
  simp only [Database.truth, hcell, if_neg hne, Database.isOneOf_text, hdb.lower_eq, some_beq_true,
    Cell.findsTidy, Cell.texts, List.any_map]
  rfl

/-! ### Compiled searches -/

theorem exists_compileCompare (hdb : db.TrimsSpaces) (now : Instant)
    (hkind : f.kind = .enum ∨ f.kind = .text ∨ f.kind = .list) (hfits : (row f).Fits f.kind)
    {op : Comparison} (hop : ¬op.isOrdering = true) (value : Literal) :
    ∃ leaf, compileCompare f op value now = .ok leaf ∧
      ((row f).looksEmpty = false →
        db.truth row leaf = some ((row f).findsTidy [value.text] != (op == .notEq))) := by
  unfold compileCompare
  rcases hfits.cases hkind with hcell | ⟨s, hcell, htext⟩ | ⟨items, hcell, hlist⟩
  · rw [hcell]
    rcases hkind with hkind | hkind | hkind <;> rw [hkind] <;> exact ⟨_, rfl, fun h => nomatch h⟩
  · have hleaf := truth_compareLowered_untidy hdb hcell hop value
    refine ⟨compareLowered f op value, ?_, fun _ => hleaf⟩
    rcases htext with hkind | hkind <;> rw [hkind] <;> exact congrArg Except.ok (if_neg hop)
  · have hleaf := truth_hasItem_untidy hdb hcell (List.cons_ne_nil value [])
    rw [hlist]
    simp only [if_neg hop]
    rcases Comparison.eq_or_notEq hop with rfl | rfl
    · refine ⟨_, rfl, fun _ => hleaf.trans ?_⟩
      exact congrArg some (Bool.xor_false _).symm
    · refine ⟨_, rfl, fun _ => (congrArg Truth.not hleaf).trans ?_⟩
      exact congrArg some (Bool.xor_true _).symm

theorem exists_compileMember (hdb : db.TrimsSpaces) (now : Instant)
    (hkind : f.kind = .enum ∨ f.kind = .text ∨ f.kind = .list) (hfits : (row f).Fits f.kind)
    {values : List Literal} (hvalues : values ≠ []) :
    ∃ leaf, compileMember f values now = .ok leaf ∧
      ((row f).looksEmpty = false →
        db.truth row leaf = some ((row f).findsTidy (values.map Literal.text))) := by
  unfold compileMember
  rcases hfits.cases hkind with hcell | ⟨s, hcell, htext⟩ | ⟨items, hcell, hlist⟩
  · rw [hcell]
    rcases hkind with hkind | hkind | hkind <;> rw [hkind] <;> exact ⟨_, rfl, fun h => nomatch h⟩
  · have hleaf := truth_oneOf_untidy hdb hcell values
    rcases htext with hkind | hkind <;> rw [hkind] <;> exact ⟨_, rfl, fun _ => hleaf⟩
  · rw [hlist]
    exact ⟨_, rfl, fun _ => truth_hasItem_untidy hdb hcell hvalues⟩

/-- What the condition of a comparison with a text is on a row, padded or not. -/
theorem exists_compile_compare (hdb : db.TrimsSpaces) (now : Instant)
    (hkind : f.kind = .enum ∨ f.kind = .text ∨ f.kind = .list) (hfits : (row f).Fits f.kind)
    {op : Comparison} (hop : ¬op.isOrdering = true) (value : Literal) :
    ∃ c, compile now (.compare f op value) = .ok c ∧ db.truth row c =
      some (!(row f).looksEmpty && ((row f).findsTidy [value.text] != (op == .notEq))) := by
  obtain ⟨leaf, hleaf, htruth⟩ := exists_compileCompare hdb now hkind hfits hop value
  refine ⟨.and (present f) leaf, ?_, truth_guarded_untidy hdb hkind hfits htruth⟩
  show (compileCompare f op value now).bind _ = _
  rw [hleaf]
  rfl

theorem exists_compile_member (hdb : db.TrimsSpaces) (now : Instant)
    (hkind : f.kind = .enum ∨ f.kind = .text ∨ f.kind = .list) (hfits : (row f).Fits f.kind)
    (negated : Bool) {values : List Literal} (hvalues : values ≠ []) :
    ∃ c, compile now (.member f negated values) = .ok c ∧ db.truth row c =
      some ((!(row f).looksEmpty && (row f).findsTidy (values.map Literal.text)) != negated) := by
  obtain ⟨leaf, hleaf, htruth⟩ := exists_compileMember hdb now hkind hfits hvalues
  have hhit := truth_guarded_untidy hdb hkind hfits htruth
  have hcompiled : compile now (.member f negated values) =
      .ok (if negated then .not (.and (present f) leaf) else .and (present f) leaf) := by
    show (compileMember f values now).bind _ = _
    rw [hleaf]
    rfl
  refine ⟨_, hcompiled, ?_⟩
  cases negated with
  | false => exact hhit.trans (congrArg some (Bool.xor_false _).symm)
  | true => exact (congrArg Truth.not hhit).trans (congrArg some (Bool.xor_true _).symm)

theorem exists_compile_empty (hdb : db.TrimsSpaces) (now : Instant)
    (hkind : f.kind = .enum ∨ f.kind = .text ∨ f.kind = .list) (hfits : (row f).Fits f.kind)
    (negated : Bool) :
    ∃ c, compile now (.empty f negated) = .ok c ∧
      db.truth row c = some ((row f).looksEmpty != negated) := by
  have habsent := truth_absent_untidy hdb hkind hfits
  refine ⟨_, rfl, ?_⟩
  cases negated with
  | false => exact habsent.trans (congrArg some (Bool.xor_false _).symm)
  | true => exact (congrArg Truth.not habsent).trans (congrArg some (Bool.xor_true _).symm)

/--
**Blanks are all that the database and the evaluation disagree about.**  On a field of text
without an order every search compiles, and its condition is true or false on every ticket,
whatever blanks stand in its texts.  For `=`, `IN` and `NOT IN` that is what the search
evaluates to exactly when a cell that is not empty, and in which one of the texts sought is
found, has one of them without blanks around it.  For `!=` the cell must also not be one of
blanks that are not all spaces, and for `IS EMPTY` and `IS NOT EMPTY` only that.
-/
theorem compile_untidy (db : Database) (hdb : db.TrimsSpaces) (now : Instant) (t : Ticket)
    (f : Field) (hkind : f.kind = .enum ∨ f.kind = .text ∨ f.kind = .list) :
    (∀ value : Literal, ∃ c truth, compile now (.compare f .eq value) = .ok c ∧
      db.truth t.row c = some truth ∧
        (truth = (Query.compare f .eq value).eval t.row now ↔ (t.row f).Shows [value.text])) ∧
    (∀ value : Literal, ∃ c truth, compile now (.compare f .notEq value) = .ok c ∧
      db.truth t.row c = some truth ∧
        (truth = (Query.compare f .notEq value).eval t.row now ↔
          (t.row f).Shows [value.text] ∧ ¬(t.row f).IsOddlyBlank)) ∧
    (∀ (negated : Bool) (values : List Literal), values ≠ [] →
      ∃ c truth, compile now (.member f negated values) = .ok c ∧ db.truth t.row c = some truth ∧
        (truth = (Query.member f negated values).eval t.row now ↔
          (t.row f).Shows (values.map Literal.text))) ∧
    ∀ negated : Bool, ∃ c truth, compile now (.empty f negated) = .ok c ∧
      db.truth t.row c = some truth ∧
        (truth = (Query.empty f negated).eval t.row now ↔ ¬(t.row f).IsOddlyBlank) := by
  have hfits := t.row_fits f
  have heq : ¬Comparison.eq.isOrdering = true := Bool.false_ne_true
  have hnotEq : ¬Comparison.notEq.isOrdering = true := Bool.false_ne_true
  refine ⟨fun value => ?_, fun value => ?_, fun negated values hvalues => ?_, fun negated => ?_⟩
  · obtain ⟨c, hc, htruth⟩ := exists_compile_compare hdb now hkind hfits heq value
    refine ⟨c, _, hc, htruth, ?_⟩
    show _ = holds f .eq (t.row f) value now ↔ _
    rw [Cell.holds_eq_finds hkind hfits heq]
    show (_ && (_ != false)) = (_ && (_ != false)) ↔ _
    rw [Bool.bne_false, Bool.bne_false]
    exact Cell.guarded_findsTidy_iff
  · obtain ⟨c, hc, htruth⟩ := exists_compile_compare hdb now hkind hfits hnotEq value
    refine ⟨c, _, hc, htruth, ?_⟩
    show _ = holds f .notEq (t.row f) value now ↔ _
    rw [Cell.holds_eq_finds hkind hfits hnotEq]
    show (_ && (_ != true)) = (_ && (_ != true)) ↔ _
    rw [Bool.bne_true, Bool.bne_true]
    exact Cell.guarded_not_findsTidy_iff
  · obtain ⟨c, hc, htruth⟩ := exists_compile_member hdb now hkind hfits negated hvalues
    refine ⟨c, _, hc, htruth, ?_⟩
    show _ = ((!(t.row f).isEmpty &&
      values.any fun value => equal? f (t.row f) value now == some true) != negated) ↔ _
    rw [Cell.any_equal?_eq_finds hkind hfits, Bool.bne_left_inj]
    exact Cell.guarded_findsTidy_iff
  · obtain ⟨c, hc, htruth⟩ := exists_compile_empty hdb now hkind hfits negated
    refine ⟨c, _, hc, htruth, ?_⟩
    show _ = ((t.row f).isEmpty != negated) ↔ _
    rw [Bool.bne_left_inj]
    exact Cell.looksEmpty_eq_isEmpty_iff

/-- A ticket with a padded label and an unpadded one of the same name is found by that name. -/
theorem compile_untidy_of_labels :
    let t : Ticket := { Ticket.blank with labels := [" Urgent", "urgent"] }
    ∃ c, compile Instant.earliest (.compare .labels .eq (.quoted "URGENT")) = .ok c ∧
      Database.plain.truth t.row c =
        some ((Query.compare .labels .eq (.quoted "URGENT")).eval t.row Instant.earliest) := by
  intro t
  obtain ⟨c, truth, hc, htruth, hagree⟩ :=
    (compile_untidy Database.plain Database.plain_trimsSpaces Instant.earliest t .labels
      (by decide)).1
      (.quoted "URGENT")
  refine ⟨c, hc, htruth.trans (congrArg some (hagree.mpr ?_))⟩
  intro _ _
  exact ⟨"urgent", by decide, by decide +kernel, "URGENT", by decide, by decide +kernel⟩

/--
A type with a blank before it is found by the evaluation only, and a title of one tab is
empty to the evaluation only.
-/
theorem compile_untidy_of_blanks :
    let t : Ticket := { Ticket.blank with type := some " bug", title := some "\t" }
    (∃ c, compile Instant.earliest (.compare .type .eq (.word "bug")) = .ok c ∧
      Database.plain.truth t.row c = some false ∧
      (Query.compare .type .eq (.word "bug")).eval t.row Instant.earliest = true) ∧
    (∃ c, compile Instant.earliest (.compare .title .notEq (.word "bug")) = .ok c ∧
      Database.plain.truth t.row c = some true ∧
      (Query.compare .title .notEq (.word "bug")).eval t.row Instant.earliest = false) ∧
    (∃ c, compile Instant.earliest (.member .type false [.word "bug"]) = .ok c ∧
      Database.plain.truth t.row c = some false ∧
      (Query.member .type false [.word "bug"]).eval t.row Instant.earliest = true) ∧
    ∃ c, compile Instant.earliest (.empty .title false) = .ok c ∧
      Database.plain.truth t.row c = some false ∧
      (Query.empty .title false).eval t.row Instant.earliest = true := by
  refine ⟨⟨_, rfl, ?_, ?_⟩, ⟨_, rfl, ?_, ?_⟩, ⟨_, rfl, ?_, ?_⟩, ⟨_, rfl, ?_, ?_⟩⟩ <;> decide +kernel

end Sql

end TicketSearch
