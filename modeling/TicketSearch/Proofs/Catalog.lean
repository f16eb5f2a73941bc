/-
Catalogs collected from tickets.

Their values are trimmed and not blank.  The sprints among them are sorted by natural order,
which is an order on just the names of which none interrupts a series.
-/
import TicketSearch.Catalog
import TicketSearch.Evaluation
import TicketSearch.Proofs.Order
import TicketSearch.Proofs.Sorting

namespace TicketSearch

/-! ### Values that are collected -/

/-- A text without blanks is trimmed. -/
theorem Text.trim_of_not_isBlank {t : Text} (h : ∀ c ∈ t, isBlank c = false) : trim t = t := by
  have hstart : trimStart t = t := by
    cases t with
    | nil => rfl
    | cons c cs =>
        refine List.dropWhile_cons_of_neg ?_
        rw [h c List.mem_cons_self]
        exact Bool.false_ne_true
  have hend : trimEnd t = t := by
    refine List.rdropWhile_eq_self_iff.mpr fun hne => ?_
    rw [h _ (List.getLast_mem hne)]
    exact Bool.false_ne_true
  show trimEnd (trimStart t) = t
  rw [hstart, hend]

/-- Trimmed texts are trimmed. -/
theorem Text.trim_trim (t : Text) : trim (trim t) = trim t := by
  have hstart : trimStart (trim t) = trim t := by
    obtain ⟨rest, hrest⟩ : trim t <+: t.dropWhile isBlank := List.rdropWhile_prefix _ _
    cases htrim : trim t with
    | nil => rfl
    | cons c cs =>
        rw [htrim] at hrest
        have hhead := List.head?_dropWhile_not isBlank t
        rw [← hrest] at hhead
        have hc : isBlank c = false := hhead
        exact List.dropWhile_cons_of_neg (by rw [hc]; exact Bool.false_ne_true)
  have hend : trimEnd (trim t) = trim t := List.rdropWhile_idempotent _ _
  show trimEnd (trimStart (trim t)) = trim t
  rw [hstart, hend]

/-- A value that equals one that is not blank is not blank. -/
theorem trim_ne_nil_of_folded {x v : Text} (hv : Text.trim v ≠ []) (h : folded x = folded v) :
    Text.trim x ≠ [] := by
  intro hnil
  have hlower : folded v = [] := by
    rw [← h]
    unfold folded
    rw [hnil]
    rfl
  exact Text.lower_ne_nil hv hlower

/-- The texts that a cell holds. -/
def Cell.texts : Cell → List Text
  | .text s => [s]
  | .list items => items
  | .missing | .number _ | .date _ => []

/-- Whether a cell has a value, up to blanks at the ends and to case. -/
def Cell.Holds (v : Text) : Cell → Prop
  | .text x => folded x = folded v
  | .list xs => ∃ x ∈ xs, folded x = folded v
  | .missing | .number _ | .date _ => False

namespace Catalog

theorem mem_of_mem_firstSpellings {seen values : List Text} {v : Text}
    (h : v ∈ firstSpellings seen values) : v ∈ values := by
  induction values generalizing seen with
  | nil => exact h
  | cons value rest ih =>
      unfold firstSpellings at h
      split at h
      · exact List.mem_cons_of_mem _ (ih h)
      · rcases List.mem_cons.mp h with rfl | hrest
        · exact List.mem_cons_self
        · exact List.mem_cons_of_mem _ (ih hrest)

/-- A value that is collected is one of the values at hand, trimmed, and not blank. -/
theorem exists_of_mem_distinct {values : List Text} {v : Text} (h : v ∈ distinct values) :
    v ≠ [] ∧ ∃ x ∈ values, v = Text.trim x := by
  have hkept := mem_of_mem_firstSpellings ((insertionSort_perm _ _).mem_iff.mp h)
  obtain ⟨hmem, hne⟩ := List.mem_filter.mp hkept
  obtain ⟨x, hx, rfl⟩ := List.mem_map.mp hmem
  refine ⟨fun hnil => ?_, x, hx, rfl⟩
  rw [hnil] at hne
  cases hne

/-- No value of a catalog from tickets is blank, and all are trimmed. -/
theorem trim_of_mem_values {tickets : List Ticket} {roster : Roster} {v : Text}
    (h : v ∈ (ofTickets tickets).values roster) : v ≠ [] ∧ Text.trim v = v := by
  have hdistinct : ∃ values, v ∈ distinct values := by
    cases roster with
    | statuses | users | labels => exact ⟨_, h⟩
    | sprints => exact ⟨_, (insertionSort_perm _ _).mem_iff.mp h⟩
  obtain ⟨values, hmem⟩ := hdistinct
  obtain ⟨hne, x, _, rfl⟩ := exists_of_mem_distinct hmem
  exact ⟨hne, Text.trim_trim x⟩

end Catalog

/-! ### Sprints in order -/

/-- Names can be sorted by natural order exactly when none of them interrupts a series. -/
theorem sortable_iff_uninterrupted {names : List Text} :
    Sortable (fun a b => naturalOrder a b == .lt) (· ∈ names) ↔ Uninterrupted names := by
  have hle : ∀ a b : Text, (naturalOrder a b == .lt) = false ↔ (naturalOrder b a).isLE := by
    intro a b
    rw [naturalOrder_swap a b]
    cases naturalOrder a b <;> decide
  constructor
  · intro h
    rw [← naturalOrder_trans_iff]
    intro a ha b hb c hc hab hbc
    rw [← hle] at hab hbc ⊢
    exact h.trans c b a hc hb ha hbc hab
  · intro h
    constructor
    · intro a b _ _ hab
      rw [beq_iff_eq] at hab
      rw [naturalOrder_swap a b, hab]
      rfl
    · intro a b c ha hb hc hab hbc
      rw [hle] at hab hbc ⊢
      exact h.isLE_trans hc hb ha hbc hab

/-- **The sprints of a catalog are in natural order**, each and any later one, when
none interrupts a series. -/
theorem Catalog.sprints_pairwise {tickets : List Ticket}
    (h : Uninterrupted (ofTickets tickets).sprints) :
    (ofTickets tickets).sprints.Pairwise fun a b => (naturalOrder a b).isLE := by
  have hperm : (ofTickets tickets).sprints.Perm (distinct (tickets.filterMap Ticket.sprint)) :=
    insertionSort_perm _ _
  have hnames : Uninterrupted (distinct (tickets.filterMap Ticket.sprint)) :=
    h.subset hperm.symm.subset
  have hsorted := (sortable_iff_uninterrupted.mpr hnames).insertionSort_pairwise fun _ ha => ha
  refine hsorted.imp fun {a b} hab => ?_
  rw [naturalOrder_swap b a]
  rw [beq_eq_false_iff_ne] at hab
  cases hba : naturalOrder b a with
  | lt => exact absurd hba hab
  | eq | gt => rfl

/-- What a sprint that a query asks to be after another looks like. -/
theorem Query.eval_sprint_gt_iff {row : Row} {now : Instant} {value : Literal} :
    (compare .sprint .gt value).eval row now = true ↔
      ∃ name, row .sprint = .text name ∧ (Text.trim name).isEmpty = false ∧
        naturalOrder name value.text = .gt := by
  have heval : (compare .sprint .gt value).eval row now =
      (!(row .sprint).isEmpty && (order? .sprint (row .sprint) value now).any
        Comparison.gt.accepts) :=
    rfl
  rw [heval]
  cases row .sprint with
  | text name =>
      have horder : order? .sprint (.text name) value now = some (naturalOrder name value.text) :=
        rfl
      rw [horder, Bool.and_eq_true, Bool.not_eq_true']
      constructor
      · rintro ⟨hne, hgt⟩
        exact ⟨name, rfl, hne, beq_iff_eq.mp hgt⟩
      · rintro ⟨name', hname, hne, hgt⟩
        cases hname
        exact ⟨hne, beq_iff_eq.mpr hgt⟩
  | missing | number _ | date _ | list _ =>
      constructor
      · intro h
        exact absurd (Bool.and_eq_true_iff.mp h).2 Bool.false_ne_true
      · rintro ⟨_, hname, _⟩
        cases hname

/-- A sprint that is after a name is after every name that is not above that one, if
none interrupts a series. -/
theorem Query.eval_sprint_gt {names : List Text} (hnames : Uninterrupted names) {row : Row}
    {now : Instant} {first second : Literal} (hfirst : first.text ∈ names)
    (hsecond : second.text ∈ names) (hrow : ∀ name, row .sprint = .text name → name ∈ names)
    (hle : (naturalOrder first.text second.text).isLE)
    (h : (compare .sprint .gt second).eval row now = true) :
    (compare .sprint .gt first).eval row now = true := by
  rw [eval_sprint_gt_iff] at h ⊢
  obtain ⟨name, hname, hne, hgt⟩ := h
  refine ⟨name, hname, hne, ?_⟩
  by_contra hnot
  have hnameLe := hnames.isLE_trans (hrow name hname) hfirst hsecond
    (Ordering.ne_gt_iff_isLE.mp hnot) hle
  rw [hgt] at hnameLe
  cases hnameLe

/--
**How far natural order is an order.**  It is reflexive and looks the same from both sides on
all names, and is transitive exactly on the names of which none interrupts a series.  There the
sprints of a catalog are sorted, and who is after a sprint is after every sprint not above it.
-/
theorem naturalOrder_laws (names : List Text) :
    (∀ a, naturalOrder a a = .eq) ∧ (∀ a b, naturalOrder b a = (naturalOrder a b).swap) ∧
      ((∀ a ∈ names, ∀ b ∈ names, ∀ c ∈ names, (naturalOrder a b).isLE →
        (naturalOrder b c).isLE → (naturalOrder a c).isLE) ↔ Uninterrupted names) ∧
      (Uninterrupted names →
        (∀ tickets, (Catalog.ofTickets tickets).sprints ⊆ names →
          (Catalog.ofTickets tickets).sprints.Pairwise fun a b => (naturalOrder a b).isLE) ∧
        ∀ (row : Row) (now : Instant) (first second : Literal), first.text ∈ names →
          second.text ∈ names → (∀ name, row .sprint = .text name → name ∈ names) →
            (naturalOrder first.text second.text).isLE →
              (Query.compare .sprint .gt second).eval row now = true →
                (Query.compare .sprint .gt first).eval row now = true) := by
  refine ⟨fun _ => naturalOrder_of_folded rfl, naturalOrder_swap, naturalOrder_trans_iff names,
    fun hnames => ⟨fun tickets hsubset => ?_, fun row now first second hfirst hsecond hrow => ?_⟩⟩
  · exact Catalog.sprints_pairwise (hnames.subset hsubset)
  · exact Query.eval_sprint_gt hnames hfirst hsecond hrow

/-- A ticket of which only the sprint is known. -/
def Ticket.ofSprint (name : Text) : Ticket :=
  { blank with sprint := some name }

/-- Numbered sprints and a name without a number are sorted: the tenth comes after the second. -/
theorem naturalOrder_laws_of_numbered :
    (Catalog.ofTickets
      ((["Sprint 10", "backlog", "sprint 2"] : List Text).map Ticket.ofSprint)).sprints =
        (["backlog", "sprint 2", "Sprint 10"] : List Text) ∧
      (["backlog", "sprint 2", "Sprint 10"] : List Text).Pairwise fun a b =>
        (naturalOrder a b).isLE := by
  have hsprints : (Catalog.ofTickets
      ((["Sprint 10", "backlog", "sprint 2"] : List Text).map Ticket.ofSprint)).sprints =
        (["backlog", "sprint 2", "Sprint 10"] : List Text) := by decide +kernel
  have hnames : Uninterrupted (["backlog", "sprint 2", "Sprint 10"] : List Text) := by
    decide +kernel
  obtain ⟨_, _, _, hall⟩ := naturalOrder_laws (["backlog", "sprint 2", "Sprint 10"] : List Text)
  have hsorted := (hall hnames).1 _ (by rw [hsprints]; exact List.Subset.refl _)
  rw [hsprints] at hsorted
  exact ⟨hsprints, hsorted⟩

/--
Three sprints that go around in a circle.  A catalog of them has one before a sprint that it is
not below, and the one after `S 10` is not after `S 2`.
-/
theorem naturalOrder_circle :
    (naturalOrder "S 2" "S 10" = .lt ∧ naturalOrder "S 10" "S 1a" = .lt ∧
      naturalOrder "S 2" "S 1a" = .gt) ∧
    (¬(Catalog.ofTickets
      ((["S 2", "S 10", "S 1a"] : List Text).map Ticket.ofSprint)).sprints.Pairwise
      fun a b => (naturalOrder a b).isLE) ∧
    ∀ now,
      (Query.compare .sprint .gt (.quoted "S 10")).eval (Ticket.ofSprint "S 1a").row now = true ∧
      (Query.compare .sprint .gt (.quoted "S 2")).eval
        (Ticket.ofSprint "S 1a").row now = false := by
  refine ⟨by decide +kernel, by decide +kernel, fun now => ⟨?_, ?_⟩⟩
  · exact Query.eval_sprint_gt_iff.mpr ⟨_, rfl, by decide +kernel, by decide +kernel⟩
  · rw [← Bool.not_eq_true, Query.eval_sprint_gt_iff]
    rintro ⟨name, hname, _, hgt⟩
    cases hname
    exact absurd hgt (by decide +kernel)

end TicketSearch
