/-
The database and the evaluation select the same tickets.

Where a query compiles, its condition is true on the row of a ticket exactly when the
query evaluates to true on it, and it is never unknown.  Every predicate carries a guard
that its field is not empty.  On an empty field the guard is false and decides; elsewhere
the cell is no null, so that every comparison behind the guard has an answer.

What is left is one agreement for each kind of field.  Texts agree because both sides
compare folded texts; an ordered table because its fitting entries are folded; numbers
because without NaN both orders are one; days because a day is a half-open interval.

This needs tickets without blanks around their texts, since the database cannot trim as
the evaluation does, finite numbers, and days that another day follows.
-/
import TicketSearch.Evaluation
import TicketSearch.Sql.Compile
import TicketSearch.Proofs.Calendar
import TicketSearch.Proofs.Case
import TicketSearch.Proofs.Failure
import TicketSearch.Proofs.Sql.Truth

namespace TicketSearch

/-! ### What is assumed of tickets and queries -/

/-- Whether a cell is missing or holds what a field of some kind holds. -/
def Cell.Fits (kind : ValueKind) : Cell → Prop
  | .missing => True
  | .text _ => kind = .enum ∨ kind = .ordinal ∨ kind = .text
  | .number _ => kind = .numeric
  | .date _ => kind = .date
  | .list _ => kind = .list

/-- Whether a cell has no blanks around its texts, and no number that is infinite or NaN. -/
def Cell.IsTidy : Cell → Prop
  | .text t => Text.trim t = t
  | .list items => ∀ item ∈ items, Text.trim item = item
  | .number x => x.isFinite = true
  | .missing | .date _ => True

theorem textCell_fits {kind : ValueKind} (h : kind = .enum ∨ kind = .ordinal ∨ kind = .text)
    (value : Option Text) : (Ticket.textCell value).Fits kind := by
  cases value with
  | none => trivial
  | some t => exact h

theorem dateCell_fits (value : Option Instant) : (Ticket.dateCell value).Fits .date := by
  cases value with
  | none => trivial
  | some i => rfl

/-- The cells of a ticket hold what their fields hold. -/
theorem Ticket.row_fits (t : Ticket) (f : Field) : (t.row f).Fits f.kind := by
  cases f with
  | status | priority | type | resolution | assignee | reporter | sprint | title | description =>
      exact textCell_fits (by decide) _
  | created | updated | dueDate => exact dateCell_fits _
  | labels => rfl
  | storyPoints =>
      show (t.storyPoints.elim Cell.missing Cell.number).Fits .numeric
      cases t.storyPoints with
      | none => trivial
      | some x => rfl

/-- The number that a literal denotes is finite, and the day that it means is not the last one. -/
def Literal.IsBoundedFor (field : Field) (now : Instant) (value : Literal) : Prop :=
  (field.kind = .numeric → ∀ x, value.number? = some x → x.isFinite = true) ∧
    (field.kind = .date → ∀ d, value.meantDay? now = some d → d.number < Date.last)

/-- No sprint is compared, no list is empty, and all literals are bounded. -/
def Query.IsBounded (now : Instant) : Query → Prop
  | .all | .empty _ _ => True
  | .compare field _ value => field ≠ .sprint ∧ value.IsBoundedFor field now
  | .member field _ values =>
    field ≠ .sprint ∧ values ≠ [] ∧ ∀ value ∈ values, value.IsBoundedFor field now
  | .and left right | .or left right => left.IsBounded now ∧ right.IsBounded now
  | .not inner => inner.IsBounded now

/-! ### Evaluation on a cell that is not empty -/

theorem some_beq_true (b : Bool) : (some b == some true) = b := by
  cases b <;> rfl

theorem some_beq_false (b : Bool) : (some b == some false) = !b := by
  cases b <;> rfl

theorem holds_eq {f : Field} {c : Cell} (hc : c.isEmpty = false) (value : Literal) (now : Instant) :
    holds f .eq c value now = (equal? f c value now == some true) := by
  unfold holds
  rw [hc, Bool.not_false, Bool.true_and]

theorem holds_notEq {f : Field} {c : Cell} (hc : c.isEmpty = false) (value : Literal)
    (now : Instant) : holds f .notEq c value now = (equal? f c value now == some false) := by
  unfold holds
  rw [hc, Bool.not_false, Bool.true_and]

theorem holds_of_isOrdering {f : Field} {c : Cell} (hc : c.isEmpty = false) {op : Comparison}
    (hop : op.isOrdering = true) (value : Literal) (now : Instant) :
    holds f op c value now = (order? f c value now).any op.accepts := by
  unfold holds
  rw [hc, Bool.not_false, Bool.true_and]
  cases op with
  | eq | notEq => cases hop
  | gt | lt | gtEq | ltEq => rfl

theorem Comparison.eq_or_notEq {op : Comparison} (h : ¬op.isOrdering = true) :
    op = .eq ∨ op = .notEq := by
  cases op with
  | eq => exact Or.inl rfl
  | notEq => exact Or.inr rfl
  | gt | lt | gtEq | ltEq => exact absurd rfl h

/-- The table of the one ordered field that is not a sprint. -/
theorem source_of_ordinal {f : Field} (hkind : f.kind = .ordinal) (hf : f ≠ .sprint) :
    f.source = .table Field.priority.tableValues := by
  cases f with
  | priority => rfl
  | sprint => exact absurd rfl hf
  | status | type | resolution | assignee | reporter | storyPoints | labels | title
  | description | created | updated | dueDate => cases hkind

theorem field_order?_eq {f : Field} (hkind : f.kind = .ordinal) (hf : f ≠ .sprint) (s t : Text) :
    f.order? s t = (rank? Field.priority.tableValues s).bind fun l =>
      (rank? Field.priority.tableValues t).map (compare l) := by
  unfold Field.order?
  rw [source_of_ordinal hkind hf]
  show ((rank? Field.priority.tableValues s).bind fun l =>
    (rank? Field.priority.tableValues t).bind fun r => some (compare l r)) = _
  cases rank? Field.priority.tableValues t <;> rfl

/-- The place of a value in a table depends on its folded form only. -/
theorem field_order?_congr {f : Field} (hkind : f.kind = .ordinal) (hf : f ≠ .sprint)
    {s s' : Text} (h : folded s = folded s') (t : Text) : f.order? s t = f.order? s' t := by
  rw [field_order?_eq hkind hf, field_order?_eq hkind hf, rank?_eq priority_isPlainTable s, h,
    ← rank?_eq priority_isPlainTable s']

/-- A value stands in some order exactly when its folded form is an entry that does. -/
theorem any_fitting {f : Field} (hkind : f.kind = .ordinal) (hf : f ≠ .sprint) (s t : Text)
    (accepts : Ordering → Bool) :
    ((Field.priority.tableValues.filter fun entry => (f.order? entry t).any accepts).any
      (folded s == ·)) = (f.order? s t).any accepts := by
  rw [Bool.eq_iff_iff, List.any_eq_true]
  constructor
  · rintro ⟨entry, hentry, heq⟩
    obtain ⟨hmem, hfits⟩ := List.mem_filter.mp hentry
    have hfolded : folded s = folded entry := by
      rw [folded_of_mem priority_isPlainTable hmem]
      exact beq_iff_eq.mp heq
    rw [field_order?_congr hkind hf hfolded]
    exact hfits
  · intro hfits
    obtain ⟨o, ho, _⟩ := (Option.any_eq_true _ _).mp hfits
    rw [field_order?_eq hkind hf] at ho
    obtain ⟨place, hplace, _⟩ := Option.bind_eq_some_iff.mp ho
    have hmem := List.mem_of_getElem? (getElem?_of_rank? priority_isPlainTable hplace)
    refine ⟨folded s, List.mem_filter.mpr ⟨hmem, ?_⟩, beq_self_eq_true _⟩
    rw [field_order?_congr hkind hf (folded_of_mem priority_isPlainTable hmem)]
    exact hfits

/-- Values of a table that have an order are equal in it when they are the same value. -/
theorem order?_eq_some_eq {f : Field} (hkind : f.kind = .ordinal) (hf : f ≠ .sprint) {s t : Text}
    {o : Ordering} (h : f.order? s t = some o) : (o == .eq) = (folded s == folded t) := by
  rw [field_order?_eq hkind hf] at h
  obtain ⟨l, hl, hrest⟩ := Option.bind_eq_some_iff.mp h
  obtain ⟨r, hr, ho⟩ := Option.map_eq_some_iff.mp hrest
  rw [← ho, Bool.eq_iff_iff, beq_iff_eq, beq_iff_eq, Nat.compare_eq_eq]
  constructor
  · intro hplaces
    have hentry := getElem?_of_rank? priority_isPlainTable hl
    rw [hplaces, getElem?_of_rank? priority_isPlainTable hr] at hentry
    exact (Option.some.inj hentry).symm
  · intro hsame
    rw [rank?_eq priority_isPlainTable, hsame, ← rank?_eq priority_isPlainTable, hr] at hl
    exact (Option.some.inj hl).symm

theorem order?_eq_none {f : Field} (hkind : f.kind = .enum ∨ f.kind = .text ∨ f.kind = .list)
    {c : Cell} {value : Literal} {now : Instant} : order? f c value now = none := by
  unfold order?
  rcases hkind with hkind | hkind | hkind <;> rw [hkind]

/-- Two texts are equal as values of a field when their folded forms are. -/
theorem equal?_text {f : Field} (hkind : f.kind = .enum ∨ f.kind = .ordinal ∨ f.kind = .text)
    (hf : f ≠ .sprint) (s : Text) (value : Literal) (now : Instant) :
    equal? f (.text s) value now = some (folded s == folded value.text) := by
  unfold equal?
  rcases hkind with hkind | hkind | hkind
  · rw [hkind]
    exact congrArg some (sameValue_eq_folded s value.text)
  · rw [hkind]
    cases horder : f.order? s value.text with
    | none =>
        simp only [horder]
        exact congrArg some (sameValue_eq_folded s value.text)
    | some o =>
        simp only [horder]
        exact congrArg some (order?_eq_some_eq hkind hf horder)
  · rw [hkind]
    exact congrArg some (sameValue_eq_folded s value.text)

theorem equal?_list {f : Field} (hkind : f.kind = .list) (items : List Text) (value : Literal)
    (now : Instant) :
    equal? f (.list items) value now =
      some (items.any fun item => folded item == folded value.text) := by
  unfold equal?
  rw [hkind]
  show some (items.any fun item => Text.sameValue item value.text) = _
  rw [funext fun item => sameValue_eq_folded item value.text]

theorem equal?_number {f : Field} (hkind : f.kind = .numeric) (x : Float) (value : Literal)
    (now : Instant) : equal? f (.number x) value now = value.number?.map (x == ·) := by
  unfold equal?
  rw [hkind]

theorem equal?_date {f : Field} (hkind : f.kind = .date) (i : Instant) (value : Literal)
    (now : Instant) : equal? f (.date i) value now = (value.meantDay? now).map (i.date == ·) := by
  unfold equal?
  rw [hkind]

theorem holds_date_of_meantDay {f : Field} (hkind : f.kind = .date) (i : Instant)
    {op : Comparison} (hop : ¬op.isOrdering = true) {value : Literal} {now : Instant} {d : Date}
    (hmeant : value.meantDay? now = some d) :
    holds f op (.date i) value now = op.accepts (compare i.date d) := by
  rcases Comparison.eq_or_notEq hop with rfl | rfl
  · rw [holds_eq rfl, equal?_date hkind, hmeant, Option.map_some, some_beq_true,
      ← Date.compare_beq_eq]
    rfl
  · rw [holds_notEq rfl, equal?_date hkind, hmeant, Option.map_some, some_beq_false,
      ← Date.compare_beq_eq]
    rfl

theorem order?_date_of_day {f : Field} (hkind : f.kind = .date) (i now : Instant)
    {value : Literal} {d : Date} (hday : value.day? = some d) :
    order? f (.date i) value now = some (compare i.date d) := by
  unfold order?
  simp only [hkind, hday]

theorem order?_date_of_instant {f : Field} (hkind : f.kind = .date) (i : Instant)
    {value : Literal} {now instant : Instant} (hday : value.day? = none)
    (hinstant : value.instant? now = some instant) :
    order? f (.date i) value now = some (compare i instant) := by
  unfold order?
  simp only [hkind, hday, hinstant, Option.map_some]

namespace Sql

variable {db : Database} {row : Row} {f : Field} {now : Instant}

/-! ### The guard -/

theorem truth_absent (hdb : db.IsFaithful) (hfits : (row f).Fits f.kind) (htidy : (row f).IsTidy) :
    db.truth row (absent f) = some (row f).isEmpty := by
  unfold absent
  cases hcell : row f with
  | missing => cases f.kind <;> simp [Database.truth, hcell, Cell.isEmpty]
  | text t =>
      rw [hcell] at hfits htidy
      have htrim : Text.trim t = t := htidy
      have hblank : db.truth row (.or (.isNull f) (.isBlank f)) = some t.isEmpty := by
        simp only [Database.truth, hcell, hdb.trim_eq t htrim, Database.compare_text_eq]
        cases t <;> rfl
      have hempty : (Cell.text t).isEmpty = t.isEmpty := by
        show (Text.trim t).isEmpty = t.isEmpty
        rw [htrim]
      rw [hempty, ← hblank]
      rcases hfits with hkind | hkind | hkind <;> rw [hkind]
  | number x =>
      rw [hcell] at hfits
      have hkind : f.kind = .numeric := hfits
      rw [hkind]
      simp [Database.truth, hcell, Cell.isEmpty]
  | date i =>
      rw [hcell] at hfits
      have hkind : f.kind = .date := hfits
      rw [hkind]
      simp [Database.truth, hcell, Cell.isEmpty]
  | list items =>
      rw [hcell] at hfits
      have hkind : f.kind = .list := hfits
      rw [hkind]
      simp [Database.truth, hcell, Cell.isEmpty]

/-! ### Comparisons -/

theorem operand_lowered (hdb : db.IsFaithful) {s : Text} (hcell : row f = .text s)
    (htrim : Text.trim s = s) : db.operand row (.lowered f) = some (.text (folded s)) := by
  have hlower : db.operand row (.lowered f) = some (.text (db.lower s)) := by
    simp only [Database.operand, hcell]
  rw [hlower, hdb.lower_eq]
  unfold folded
  rw [htrim]

theorem truth_compareLowered (hdb : db.IsFaithful) {s : Text} (hcell : row f = .text s)
    (htrim : Text.trim s = s) (hne : (Cell.text s).isEmpty = false)
    (hkind : f.kind = .enum ∨ f.kind = .ordinal ∨ f.kind = .text) (hf : f ≠ .sprint)
    {op : Comparison} (hop : ¬op.isOrdering = true) (value : Literal) :
    db.truth row (compareLowered f op value) = some (holds f op (.text s) value now) := by
  show db.compare (db.operand row (.lowered f)) op (.text (folded value.text)) = _
  rw [operand_lowered hdb hcell htrim]
  rcases Comparison.eq_or_notEq hop with rfl | rfl
  · rw [holds_eq hne, equal?_text hkind hf, some_beq_true, Database.compare_text_eq]
  · rw [holds_notEq hne, equal?_text hkind hf, some_beq_false, Database.compare_text_notEq]
    rfl

theorem truth_compareRank (hdb : db.IsFaithful) {s : Text} (hcell : row f = .text s)
    (htrim : Text.trim s = s) (hne : (Cell.text s).isEmpty = false) (hkind : f.kind = .ordinal)
    (hf : f ≠ .sprint) {op : Comparison} (hop : op.isOrdering = true) {value : Literal}
    {leaf : Condition} (h : compareRank f op value = .ok leaf) :
    db.truth row leaf = some (holds f op (.text s) value now) := by
  have horder : order? f (.text s) value now = f.order? s value.text := by
    unfold order?
    rw [hkind]
  rw [holds_of_isOrdering hne hop, horder, ← any_fitting hkind hf]
  unfold compareRank at h
  rw [source_of_ordinal hkind hf] at h
  cases h
  generalize hfitting : Field.priority.tableValues.filter _ = fitting
  cases fitting with
  | nil => rfl
  | cons entry rest =>
      show db.isOneOf (db.operand row (.lowered f)) ((entry :: rest).map .text) = _
      rw [operand_lowered hdb hcell htrim, Database.isOneOf_text]

theorem truth_compareNumber {x y : Float} (hcell : row f = .number x) (hkind : f.kind = .numeric)
    (hx : x.isFinite = true) (hy : y.isFinite = true) {value : Literal}
    (hvalue : value.number? = some y) (op : Comparison) :
    db.truth row (.compare (.column f) op (.number y)) =
      some (holds f op (.number x) value now) := by
  have hsome : (floatOrder? x y).isSome = true := by
    rw [floatOrder?_isSome, not_isNaN_of_isFinite hx, not_isNaN_of_isFinite hy]
    rfl
  obtain ⟨o, ho⟩ := Option.isSome_iff_exists.mp hsome
  have htruth : db.truth row (.compare (.column f) op (.number y)) = some (op.accepts o) := by
    show db.compare (valueOfCell (row f)) op (.number y) = _
    rw [hcell, ← doubleOrder_eq ho]
    rfl
  have heq : (x == y) = (o == .eq) := by
    rw [float_beq_eq, ho]
    rfl
  rw [htruth]
  by_cases hop : op.isOrdering = true
  · have horder : order? f (.number x) value now = some o := by
      unfold order?
      rw [hkind, ← ho, ← compareFloats?_eq, hvalue]
      rfl
    rw [holds_of_isOrdering rfl hop, horder]
    rfl
  · rcases Comparison.eq_or_notEq hop with rfl | rfl
    · rw [holds_eq rfl, equal?_number hkind, hvalue, Option.map_some, some_beq_true, heq]
      rfl
    · rw [holds_notEq rfl, equal?_number hkind, hvalue, Option.map_some, some_beq_false, heq]
      rfl

theorem numberOf_eq_ok_iff {value : Literal} {y : Float} :
    numberOf f value = .ok y ↔ value.number? = some y := by
  unfold numberOf
  cases value.number? with
  | none => simp
  | some x => simp

theorem truth_compareInstant {i : Instant} (hcell : row f = .date i) (op : Comparison)
    (j : Instant) : db.truth row (compareInstant f op j) = some (op.accepts (compare i j)) := by
  show db.compare (valueOfCell (row f)) op (.timestamp j) = _
  rw [hcell]
  rfl

theorem truth_sameDay {i : Instant} (hcell : row f = .date i) {d : Date}
    (hd : d.number < Date.last) : db.truth row (sameDay f d) = some (i.date == d) := by
  show Truth.and (db.truth row (compareInstant f .gtEq (Instant.startOfDay d)))
    (db.truth row (compareInstant f .lt (Instant.startOfNextDay d))) = _
  have hstart := Instant.compare_startOfDay i d
  have hnext := Instant.compare_startOfNextDay i hd
  rw [truth_compareInstant hcell, truth_compareInstant hcell, Truth.and_some, Option.some.injEq,
    Bool.eq_iff_iff, Bool.and_eq_true, beq_iff_eq, Date.eq_iff]
  show (compare i _ != .lt) = true ∧ (compare i _ == .lt) = true ↔ _
  rw [bne_iff_ne, beq_iff_eq, ne_eq, hstart, hnext]
  omega

/-- An instant compared with a whole day is its day compared with that day. -/
theorem truth_compareDay {i : Instant} (hcell : row f = .date i) {d : Date}
    (hd : d.number < Date.last) (op : Comparison) :
    db.truth row (compareDay f op d) = some (op.accepts (compare i.date d)) := by
  have hstart := Instant.compare_startOfDay i d
  have hnext := Instant.compare_startOfNextDay i hd
  have hsame := (Date.compare_beq_eq i.date d).symm
  have hlt : compare i.date d = .lt ↔ i.date.number < d.number := Int.compare_eq_lt
  have hgt : compare i.date d = .gt ↔ d.number < i.date.number := Int.compare_eq_gt
  cases op with
  | eq =>
      show db.truth row (sameDay f d) = _
      rw [truth_sameDay hcell hd, hsame]
      rfl
  | notEq =>
      show Truth.not (db.truth row (sameDay f d)) = _
      rw [truth_sameDay hcell hd, hsame]
      rfl
  | gt =>
      show db.truth row (compareInstant f .gtEq (Instant.startOfNextDay d)) = _
      rw [truth_compareInstant hcell, Option.some.injEq, Bool.eq_iff_iff]
      show (compare i _ != .lt) = true ↔ (compare i.date d == .gt) = true
      rw [bne_iff_ne, beq_iff_eq, ne_eq, hnext, hgt]
      omega
  | lt =>
      show db.truth row (compareInstant f .lt (Instant.startOfDay d)) = _
      rw [truth_compareInstant hcell, Option.some.injEq, Bool.eq_iff_iff]
      show (compare i _ == .lt) = true ↔ (compare i.date d == .lt) = true
      rw [beq_iff_eq, beq_iff_eq, hstart, hlt]
  | gtEq =>
      show db.truth row (compareInstant f .gtEq (Instant.startOfDay d)) = _
      rw [truth_compareInstant hcell, Option.some.injEq, Bool.eq_iff_iff]
      show (compare i _ != .lt) = true ↔ (compare i.date d != .lt) = true
      rw [bne_iff_ne, bne_iff_ne, ne_eq, ne_eq, hstart, hlt]
  | ltEq =>
      show db.truth row (compareInstant f .lt (Instant.startOfNextDay d)) = _
      rw [truth_compareInstant hcell, Option.some.injEq, Bool.eq_iff_iff]
      show (compare i _ == .lt) = true ↔ (compare i.date d != .gt) = true
      rw [beq_iff_eq, bne_iff_ne, ne_eq, hnext, hgt]
      omega

/-- A literal that names a day denotes its first moment. -/
theorem instant?_of_day? {value : Literal} {d : Date} (h : value.day? = some d) :
    value.instant? now = some (Instant.startOfDay d) := by
  cases value with
  | quoted t | word t =>
      have hread : Date.read? (Text.trim t) = some d := h
      simp [Literal.instant?, hread]
  | number x t | relative r => cases h
  | date e =>
      cases h
      rfl

/-- Membership asks of an instant what equality asks. -/
theorem compileDay_eq : compileDay f now = fun value => compareDate f .eq value now := by
  funext value
  unfold compileDay compareDate
  cases hday : value.day? with
  | none => rfl
  | some d =>
      simp only [instantOf, instant?_of_day? hday, Option.getD_some]
      rfl

/-- The instant of a literal that has one, and the day that the literal then means. -/
theorem meantDay?_of_instantOf {value : Literal} {instant : Instant}
    (h : instantOf f value now = .ok instant) :
    value.instant? now = some instant ∧
      value.meantDay? now = some (value.day?.getD instant.date) := by
  have hinstant : value.instant? now = some instant := by
    unfold instantOf at h
    cases hv : value.instant? now with
    | none => rw [hv] at h; cases h
    | some j => rw [hv] at h; cases h; rfl
  refine ⟨hinstant, ?_⟩
  unfold Literal.meantDay?
  rw [hinstant]
  cases value.day? <;> rfl

theorem truth_compareDate {i : Instant} (hcell : row f = .date i) (hkind : f.kind = .date)
    {value : Literal} (hbounded : ∀ d, value.meantDay? now = some d → d.number < Date.last)
    {op : Comparison} {leaf : Condition} (h : compareDate f op value now = .ok leaf) :
    db.truth row leaf = some (holds f op (.date i) value now) := by
  unfold compareDate at h
  cases hday : value.day? with
  | some day =>
      have hmeant : value.meantDay? now = some day := by
        unfold Literal.meantDay?
        rw [hday]
        rfl
      rw [hday] at h
      cases h
      rw [truth_compareDay hcell (hbounded day hmeant)]
      by_cases hop : op.isOrdering = true
      · rw [holds_of_isOrdering rfl hop, order?_date_of_day hkind i now hday]
        rfl
      · rw [holds_date_of_meantDay hkind i hop hmeant]
  | none =>
      rw [hday] at h
      cases hof : instantOf f value now with
      | error e => rw [hof] at h; cases h
      | ok instant =>
          obtain ⟨hinstant, hmeant⟩ := meantDay?_of_instantOf hof
          rw [hday, Option.getD_none] at hmeant
          rw [hof] at h
          by_cases hop : op.isOrdering = true
          · have hleaf : leaf = compareInstant f op instant := by
              cases op with
              | eq | notEq => cases hop
              | gt | lt | gtEq | ltEq => cases h; rfl
            rw [hleaf, truth_compareInstant hcell, holds_of_isOrdering rfl hop,
              order?_date_of_instant hkind i hday hinstant]
            rfl
          · -- equality asks for the whole day, also of a literal that is an instant
            have hleaf : leaf = compareDay f op instant.date := by
              rcases Comparison.eq_or_notEq hop with rfl | rfl <;> (cases h; rfl)
            rw [hleaf, truth_compareDay hcell (hbounded _ hmeant),
              holds_date_of_meantDay hkind i hop hmeant]

/-! ### Labels -/

theorem any_comm {α β : Type} (p : α → β → Bool) (xs : List α) (ys : List β) :
    (xs.any fun x => ys.any (p x)) = ys.any fun y => xs.any fun x => p x y := by
  rw [Bool.eq_iff_iff, List.any_eq_true, List.any_eq_true]
  constructor
  · rintro ⟨x, hx, hany⟩
    obtain ⟨y, hy, hp⟩ := List.any_eq_true.mp hany
    exact ⟨y, hy, List.any_eq_true.mpr ⟨x, hx, hp⟩⟩
  · rintro ⟨y, hy, hany⟩
    obtain ⟨x, hx, hp⟩ := List.any_eq_true.mp hany
    exact ⟨x, hx, List.any_eq_true.mpr ⟨y, hy, hp⟩⟩

theorem any_congr_mem {α : Type} {p q : α → Bool} {xs : List α} (h : ∀ x ∈ xs, p x = q x) :
    xs.any p = xs.any q := by
  induction xs with
  | nil => rfl
  | cons x xs ih =>
      rw [List.any_cons, List.any_cons, h x List.mem_cons_self,
        ih fun y hy => h y (List.mem_cons_of_mem _ hy)]

/-- A label is found among the texts of some literals when it equals one of the literals. -/
theorem truth_hasItem (now : Instant) (hdb : db.IsFaithful) {items : List Text}
    (hcell : row f = .list items) (htidy : ∀ item ∈ items, Text.trim item = item)
    (hkind : f.kind = .list) {values : List Literal} (hvalues : values ≠ []) :
    db.truth row (.hasItem f (values.map loweredText)) =
      some (values.any fun value => equal? f (.list items) value now == some true) := by
  have hne : values.map loweredText ≠ [] := fun h => hvalues (List.map_eq_nil_iff.mp h)
  have htruth : db.truth row (.hasItem f (values.map loweredText)) =
      some (items.any fun item =>
        db.isOneOf (some (.text (db.lower item))) ((values.map loweredText).map .text) ==
          some true) := by
    simp only [Database.truth, hcell, if_neg hne]
  have hitem : ∀ item ∈ items,
      (db.isOneOf (some (.text (db.lower item))) ((values.map loweredText).map .text) ==
        some true) = values.any fun value => folded item == folded value.text := by
    intro item hitem
    have hfolded : db.lower item = folded item := by
      unfold folded
      rw [hdb.lower_eq, htidy item hitem]
    rw [Database.isOneOf_text, some_beq_true, hfolded, List.any_map]
    rfl
  rw [htruth, Option.some.injEq, any_congr_mem hitem,
    any_comm fun item (value : Literal) => folded item == folded value.text]
  refine any_congr_mem ?_
  intro value _
  rw [equal?_list hkind, some_beq_true]

theorem truth_compareList (hdb : db.IsFaithful) {items : List Text} (hcell : row f = .list items)
    (htidy : ∀ item ∈ items, Text.trim item = item) (hne : (Cell.list items).isEmpty = false)
    (hkind : f.kind = .list) {op : Comparison} {value : Literal} {leaf : Condition}
    (h : compileCompare f op value now = .ok leaf) :
    db.truth row leaf = some (holds f op (.list items) value now) := by
  have hitem : db.truth row (.hasItem f [loweredText value]) =
      some (equal? f (.list items) value now == some true) := by
    have hany := truth_hasItem now hdb hcell htidy hkind (List.cons_ne_nil value [])
    rwa [List.any_cons, List.any_nil, Bool.or_false] at hany
  rw [equal?_list hkind, some_beq_true] at hitem
  unfold compileCompare at h
  rw [hkind] at h
  by_cases hop : op.isOrdering = true
  · simp only [if_pos hop] at h
    cases h
    rw [holds_of_isOrdering hne hop, order?_eq_none (Or.inr (Or.inr hkind))]
    rfl
  · simp only [if_neg hop] at h
    rcases Comparison.eq_or_notEq hop with rfl | rfl
    · cases h
      rw [holds_eq hne, equal?_list hkind, some_beq_true]
      exact hitem
    · cases h
      show Truth.not (db.truth row (.hasItem f [loweredText value])) = _
      rw [hitem, holds_notEq hne, equal?_list hkind, some_beq_false]
      rfl

/-! ### Predicates -/

theorem truth_compileCompare (hdb : db.IsFaithful) (hfits : (row f).Fits f.kind)
    (htidy : (row f).IsTidy) (hne : (row f).isEmpty = false) (hf : f ≠ .sprint) {op : Comparison}
    {value : Literal} (hbounded : value.IsBoundedFor f now) {leaf : Condition}
    (h : compileCompare f op value now = .ok leaf) :
    db.truth row leaf = some (holds f op (row f) value now) := by
  obtain ⟨hnumber, hday⟩ := hbounded
  cases hcell : row f with
  | missing =>
      rw [hcell] at hne
      cases hne
  | text s =>
      rw [hcell] at hfits htidy hne
      unfold compileCompare at h
      by_cases hordinal : f.kind = .ordinal
      · rw [hordinal] at h
        by_cases hop : op.isOrdering = true
        · simp only [if_pos hop] at h
          exact truth_compareRank hdb hcell htidy hne hordinal hf hop h
        · simp only [if_neg hop] at h
          cases h
          exact truth_compareLowered hdb hcell htidy hne hfits hf hop value
      · have hkind : f.kind = .enum ∨ f.kind = .text := by
          rcases hfits with hkind | hkind | hkind
          · exact Or.inl hkind
          · exact absurd hkind hordinal
          · exact Or.inr hkind
        have hleaf : leaf =
            if op.isOrdering then .constant false else compareLowered f op value := by
          rcases hkind with hkind | hkind <;> (rw [hkind] at h; exact (Except.ok.inj h).symm)
        by_cases hop : op.isOrdering = true
        · rw [hleaf, if_pos hop, holds_of_isOrdering hne hop,
            order?_eq_none (hkind.imp_right Or.inl)]
          rfl
        · rw [hleaf, if_neg hop]
          exact truth_compareLowered hdb hcell htidy hne hfits hf hop value
  | number x =>
      rw [hcell] at hfits htidy
      have hkind : f.kind = .numeric := hfits
      unfold compileCompare at h
      rw [hkind] at h
      obtain ⟨y, hof, rfl⟩ := exists_of_map_eq_ok h
      have hy := numberOf_eq_ok_iff.mp hof
      exact truth_compareNumber hcell hkind htidy (hnumber hkind y hy) hy op
  | date i =>
      rw [hcell] at hfits
      have hkind : f.kind = .date := hfits
      unfold compileCompare at h
      rw [hkind] at h
      exact truth_compareDate hcell hkind (hday hkind) h
  | list items =>
      rw [hcell] at hfits htidy hne
      exact truth_compareList hdb hcell htidy hne hfits h

theorem truth_foldl_or (conditions : List Condition) (first : Condition) :
    db.truth row (conditions.foldl .or first) =
      Truth.or (db.truth row first) (Truth.any (conditions.map (db.truth row))) := by
  induction conditions generalizing first with
  | nil => exact (Truth.or_false _).symm
  | cons c conditions ih =>
      rw [List.foldl_cons, ih]
      exact Truth.or_assoc _ _ _

theorem truth_anyOf_eq_any (conditions : List Condition) :
    db.truth row (anyOf conditions) = Truth.any (conditions.map (db.truth row)) := by
  cases conditions with
  | nil => rfl
  | cons first conditions => exact truth_foldl_or conditions first

/-- A disjunction whose every member has a truth value has one. -/
theorem truth_anyOf {α : Type} {hits : α → Bool} {sought : List α} {conditions : List Condition}
    (h : List.Forall₂ (fun a c => db.truth row c = some (hits a)) sought conditions) :
    db.truth row (anyOf conditions) = some (sought.any hits) := by
  rw [truth_anyOf_eq_any]
  exact Truth.any_eq (List.forall₂_map_right_iff.mpr h)

theorem truth_memberText (hdb : db.IsFaithful) {s : Text} (hcell : row f = .text s)
    (htrim : Text.trim s = s) (hkind : f.kind = .enum ∨ f.kind = .ordinal ∨ f.kind = .text)
    (hf : f ≠ .sprint) (values : List Literal) :
    db.truth row (.oneOf (.lowered f) (values.map fun v => .text (loweredText v))) =
      some (values.any fun v => equal? f (.text s) v now == some true) := by
  show db.isOneOf (db.operand row (.lowered f)) _ = _
  rw [operand_lowered hdb hcell htrim]
  refine db.isOneOf_eq (List.forall₂_map_right_iff.mpr (List.forall₂_same.mpr ?_))
  intro v _
  rw [equal?_text hkind hf, some_beq_true]
  exact db.compare_text_eq (folded s) (folded v.text)

theorem truth_compileMember (hdb : db.IsFaithful) (hfits : (row f).Fits f.kind)
    (htidy : (row f).IsTidy) (hne : (row f).isEmpty = false) (hf : f ≠ .sprint)
    {values : List Literal} (hvalues : values ≠ [])
    (hbounded : ∀ value ∈ values, value.IsBoundedFor f now) {leaf : Condition}
    (h : compileMember f values now = .ok leaf) :
    db.truth row leaf = some (values.any fun v => equal? f (row f) v now == some true) := by
  unfold compileMember at h
  cases hcell : row f with
  | missing =>
      rw [hcell] at hne
      cases hne
  | text s =>
      rw [hcell] at hfits htidy
      have hleaf : leaf = .oneOf (.lowered f) (values.map fun v => .text (loweredText v)) := by
        rcases hfits with hkind | hkind | hkind <;>
          (rw [hkind] at h; exact (Except.ok.inj h).symm)
      rw [hleaf]
      exact truth_memberText hdb hcell htidy hfits hf values
  | number x =>
      rw [hcell] at hfits htidy
      have hkind : f.kind = .numeric := hfits
      rw [hkind] at h
      obtain ⟨numbers, hnumbers, hleaf⟩ := exists_of_bind_eq_ok h
      cases hleaf
      refine db.isOneOf_eq (List.forall₂_map_right_iff.mpr ?_)
      have hall := (List.forall₂_and_left _ _).mpr ⟨hbounded, forall₂_of_mapM hnumbers⟩
      refine hall.imp ?_
      rintro value y ⟨⟨hnumber, _⟩, hof⟩
      have hy := numberOf_eq_ok_iff.mp hof
      rw [← holds_eq rfl]
      exact truth_compareNumber hcell hkind htidy (hnumber hkind y hy) hy .eq
  | date i =>
      rw [hcell] at hfits
      have hkind : f.kind = .date := hfits
      rw [hkind] at h
      obtain ⟨conditions, hconditions, hleaf⟩ := exists_of_map_eq_ok h
      cases hleaf
      rw [compileDay_eq] at hconditions
      refine truth_anyOf ?_
      have hall := (List.forall₂_and_left _ _).mpr ⟨hbounded, forall₂_of_mapM hconditions⟩
      refine hall.imp ?_
      rintro value c ⟨⟨_, hday⟩, hc⟩
      rw [← holds_eq rfl]
      exact truth_compareDate hcell hkind (hday hkind) hc
  | list items =>
      rw [hcell] at hfits htidy
      have hkind : f.kind = .list := hfits
      rw [hkind] at h
      cases h
      exact truth_hasItem now hdb hcell htidy hkind hvalues

/-! ### Queries -/

/-- A leaf behind its guard has the value of the leaf where the field is not empty, else false. -/
theorem truth_guarded (hdb : db.IsFaithful) (hfits : (row f).Fits f.kind) (htidy : (row f).IsTidy)
    {leaf : Condition} {b : Bool}
    (hleaf : (row f).isEmpty = false → db.truth row leaf = some b) :
    db.truth row (.and (present f) leaf) = some (!(row f).isEmpty && b) := by
  have hpresent : db.truth row (present f) = some (!(row f).isEmpty) := by
    show Truth.not (db.truth row (absent f)) = _
    rw [truth_absent hdb hfits htidy, Truth.not_some]
  show Truth.and (db.truth row (present f)) (db.truth row leaf) = _
  rw [hpresent]
  cases hempty : (row f).isEmpty with
  | true => rfl
  | false => rw [hleaf hempty, Truth.and_some]

theorem holds_eq_and (op : Comparison) (c : Cell) (value : Literal) :
    holds f op c value now = (!c.isEmpty && holds f op c value now) := by
  cases hc : c.isEmpty with
  | true =>
      unfold holds
      rw [hc]
      rfl
  | false => rfl

/--
**The condition of a query is true on a ticket when the ticket satisfies the query, and false
otherwise**; it is never unknown.
-/
theorem compile_truth (db : Database) (hdb : db.IsFaithful) (now : Instant) (t : Ticket)
    (htidy : ∀ f, (t.row f).IsTidy) (q : Query) (hq : q.IsBounded now) (c : Condition)
    (hc : compile now q = .ok c) : db.truth t.row c = some (q.eval t.row now) := by
  induction q generalizing c with
  | all =>
      cases hc
      rfl
  | compare f op value =>
      obtain ⟨hf, hbounded⟩ := hq
      obtain ⟨leaf, hleaf, hguarded⟩ := exists_of_bind_eq_ok hc
      cases hguarded
      rw [truth_guarded hdb (t.row_fits f) (htidy f) fun hne =>
        truth_compileCompare hdb (t.row_fits f) (htidy f) hne hf hbounded hleaf, ← holds_eq_and]
      rfl
  | member f negated values =>
      obtain ⟨hf, hvalues, hbounded⟩ := hq
      obtain ⟨leaf, hleaf, hguarded⟩ := exists_of_bind_eq_ok hc
      have hhit := truth_guarded hdb (t.row_fits f) (htidy f) fun hne =>
        truth_compileMember hdb (t.row_fits f) (htidy f) hne hf hvalues hbounded hleaf
      cases negated with
      | false =>
          cases hguarded
          show db.truth t.row (.and (present f) leaf) = _
          rw [hhit]
          exact congrArg some (Bool.xor_false _).symm
      | true =>
          cases hguarded
          show Truth.not (db.truth t.row (.and (present f) leaf)) = _
          rw [hhit]
          exact congrArg some (Bool.xor_true _).symm
  | empty f negated =>
      have habsent := truth_absent hdb (t.row_fits f) (htidy f)
      cases negated with
      | false =>
          cases hc
          show db.truth t.row (absent f) = _
          rw [habsent]
          exact congrArg some (Bool.xor_false _).symm
      | true =>
          cases hc
          show Truth.not (db.truth t.row (absent f)) = _
          rw [habsent]
          exact congrArg some (Bool.xor_true _).symm
  | and left right ihl ihr =>
      obtain ⟨l, hl, hrest⟩ := exists_of_bind_eq_ok hc
      obtain ⟨r, hr, hboth⟩ := exists_of_bind_eq_ok hrest
      cases hboth
      show Truth.and (db.truth t.row l) (db.truth t.row r) = _
      rw [ihl hq.1 l hl, ihr hq.2 r hr, Truth.and_some]
      rfl
  | or left right ihl ihr =>
      obtain ⟨l, hl, hrest⟩ := exists_of_bind_eq_ok hc
      obtain ⟨r, hr, hboth⟩ := exists_of_bind_eq_ok hrest
      cases hboth
      show Truth.or (db.truth t.row l) (db.truth t.row r) = _
      rw [ihl hq.1 l hl, ihr hq.2 r hr, Truth.or_some]
      rfl
  | not inner ih =>
      obtain ⟨c', hc', hnot⟩ := exists_of_bind_eq_ok hc
      cases hnot
      show Truth.not (db.truth t.row c') = _
      rw [ih hq c' hc', Truth.not_some]
      rfl

/-- A ticket of low priority without a status, and a query that both must tell to be true of it. -/
theorem compile_truth_low_without_status :
    let t : Ticket := { Ticket.blank with priority := some "Low" }
    let q : Query := .and (.compare .priority .lt (.word "MEDIUM"))
      (.not (.member .status false [.quoted "Done"]))
    ∃ c, compile Instant.earliest q = .ok c ∧ Database.plain.truth t.row c = some true := by
  intro t q
  have htidy : ∀ f, (t.row f).IsTidy := by
    intro f
    cases f <;> first | trivial | exact List.forall_mem_nil _
  have hq : q.IsBounded Instant.earliest := by
    -- neither field holds numbers or dates, so their literals need no bound
    refine ⟨⟨by decide, ?_⟩, by decide, by decide, ?_⟩
    · constructor <;> (intro hkind; cases hkind)
    · intro value _
      constructor <;> (intro hkind; cases hkind)
  have heval : q.eval t.row Instant.earliest = true := by decide +kernel
  refine ⟨_, rfl, ?_⟩
  rw [← heval]
  exact compile_truth Database.plain Database.plain_isFaithful Instant.earliest t htidy q hq _ rfl

end Sql

end TicketSearch
