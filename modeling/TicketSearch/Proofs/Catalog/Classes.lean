/-
A catalog collected from tickets has one value for each class of those on them.

Values are of one class when they are equal once trimmed and in lower case.  The pass over
the values (`firstSpellings`) carries the lower cases that it has seen: it keeps a value
exactly when its lower case is a new one, so that what it keeps has no lower case twice, lacks
none, and is the first of its class.  Sorting by lower case then moves the values only, and as
no two lower cases are the same it leaves them strictly increasing.  A list that is so is
determined by its members: the tickets in another order give the same lower cases in the same
places.  Sprints are sorted once more in natural order, which keeps the values but not that.
-/
import Mathlib.Data.List.Sort
import TicketSearch.Proofs.Catalog

namespace TicketSearch

/-! ### The values on a ticket -/

/-- The values on a ticket in the fields that a roster is for, in the order of the fields. -/
def Ticket.valuesOf (t : Ticket) (roster : Roster) : List Text :=
  (Field.all.filter fun f => f.source = .roster roster).flatMap fun f => (t.row f).texts

namespace Ticket

theorem texts_textCell (value : Option Text) : (textCell value).texts = value.toList := by
  cases value with
  | none => rfl
  | some v => rfl

/-- What the fields of a roster are. -/
theorem valuesOf_eq (t : Ticket) (roster : Roster) :
    t.valuesOf roster =
      match roster with
      | .statuses => t.status.toList
      | .users => t.assignee.toList ++ t.reporter.toList
      | .sprints => t.sprint.toList
      | .labels => t.labels := by
  have hfields : Field.all.filter (fun f => f.source = .roster roster) =
      match roster with
      | .statuses => [.status]
      | .users => [.assignee, .reporter]
      | .sprints => [.sprint]
      | .labels => [.labels] := by
    cases roster <;> decide +kernel
  unfold valuesOf
  rw [hfields]
  cases roster with
  | statuses | sprints => exact (List.flatMap_singleton _ _).trans (texts_textCell _)
  | users =>
      show (textCell t.assignee).texts ++ ((textCell t.reporter).texts ++ []) = _
      rw [texts_textCell, texts_textCell, List.append_nil]
  | labels => exact List.flatMap_singleton _ _

end Ticket

namespace Catalog

/-! ### The first of each class -/

variable {seen values : List Text} {v x : Text}

theorem firstSpellings_of_mem (h : Text.lower x ∈ seen) :
    firstSpellings seen (x :: values) = firstSpellings seen values := by
  rw [firstSpellings, if_pos (List.contains_iff_mem.mpr h)]

theorem firstSpellings_of_not_mem (h : Text.lower x ∉ seen) :
    firstSpellings seen (x :: values) = x :: firstSpellings (Text.lower x :: seen) values := by
  rw [firstSpellings, if_neg fun hseen => h (List.contains_iff_mem.mp hseen)]

/-- What is kept is new. -/
theorem lower_not_mem_of_mem_firstSpellings (h : v ∈ firstSpellings seen values) :
    Text.lower v ∉ seen := by
  induction values generalizing seen with
  | nil => exact absurd h List.not_mem_nil
  | cons x rest ih =>
      by_cases hx : Text.lower x ∈ seen
      · rw [firstSpellings_of_mem hx] at h
        exact ih h
      · rw [firstSpellings_of_not_mem hx] at h
        rcases List.mem_cons.mp h with rfl | hrest
        · exact hx
        · exact fun hmem => ih hrest (List.mem_cons_of_mem _ hmem)

/-- No class is kept twice. -/
theorem firstSpellings_nodup (seen values : List Text) :
    ((firstSpellings seen values).map Text.lower).Nodup := by
  induction values generalizing seen with
  | nil => exact List.nodup_nil
  | cons x rest ih =>
      by_cases hx : Text.lower x ∈ seen
      · rw [firstSpellings_of_mem hx]
        exact ih seen
      · rw [firstSpellings_of_not_mem hx, List.map_cons, List.nodup_cons]
        refine ⟨fun hmem => ?_, ih _⟩
        obtain ⟨v, hv, hlower⟩ := List.mem_map.mp hmem
        apply lower_not_mem_of_mem_firstSpellings hv
        rw [hlower]
        exact List.mem_cons_self

/-- No class is lost. -/
theorem exists_mem_firstSpellings (h : x ∈ values) (hnew : Text.lower x ∉ seen) :
    ∃ v ∈ firstSpellings seen values, Text.lower v = Text.lower x := by
  induction values generalizing seen with
  | nil => exact absurd h List.not_mem_nil
  | cons y rest ih =>
      by_cases hy : Text.lower y ∈ seen
      · rw [firstSpellings_of_mem hy]
        rcases List.mem_cons.mp h with rfl | hrest
        · exact absurd hy hnew
        · exact ih hrest hnew
      · rw [firstSpellings_of_not_mem hy]
        by_cases hsame : Text.lower y = Text.lower x
        · exact ⟨y, List.mem_cons_self, hsame⟩
        · have hrest : x ∈ rest := by
            rcases List.mem_cons.mp h with rfl | hrest
            · exact absurd rfl hsame
            · exact hrest
          have hstill : Text.lower x ∉ Text.lower y :: seen := by
            intro hmem
            rcases List.mem_cons.mp hmem with heq | hmem
            · exact hsame heq.symm
            · exact hnew hmem
          obtain ⟨v, hv, hlower⟩ := ih hrest hstill
          exact ⟨v, List.mem_cons_of_mem _ hv, hlower⟩

/-- What is kept of a class is the first of it. -/
theorem find?_of_mem_firstSpellings (h : v ∈ firstSpellings seen values) :
    values.find? (fun x => Text.lower x == Text.lower v) = some v := by
  induction values generalizing seen with
  | nil => exact absurd h List.not_mem_nil
  | cons x rest ih =>
      by_cases hx : Text.lower x ∈ seen
      · rw [firstSpellings_of_mem hx] at h
        have hne : Text.lower x ≠ Text.lower v := by
          intro heq
          rw [heq] at hx
          exact lower_not_mem_of_mem_firstSpellings h hx
        rw [List.find?_cons_of_neg (by rw [beq_iff_eq]; exact hne)]
        exact ih h
      · rw [firstSpellings_of_not_mem hx] at h
        rcases List.mem_cons.mp h with rfl | hrest
        · exact List.find?_cons_of_pos (beq_self_eq_true _)
        · have hne : Text.lower x ≠ Text.lower v := by
            intro heq
            apply lower_not_mem_of_mem_firstSpellings hrest
            rw [← heq]
            exact List.mem_cons_self
          rw [List.find?_cons_of_neg (by rw [beq_iff_eq]; exact hne)]
          exact ih hrest

/-! ### The values that are collected -/

theorem folded_of_mem_distinct (h : v ∈ distinct values) : folded v = Text.lower v := by
  obtain ⟨_, x, _, rfl⟩ := exists_of_mem_distinct h
  unfold folded
  rw [Text.trim_trim]

/-- No class is collected twice. -/
theorem distinct_nodup (values : List Text) : ((distinct values).map Text.lower).Nodup :=
  ((insertionSort_perm _ _).map Text.lower).nodup_iff.mpr (firstSpellings_nodup [] _)

/-- Every value that is not blank has one of its class among those that are collected. -/
theorem exists_mem_distinct (hx : x ∈ values) (hne : Text.trim x ≠ []) :
    ∃ v ∈ distinct values, Text.lower v = folded x := by
  have hkept : Text.trim x ∈ (values.map Text.trim).filter fun value => !value.isEmpty := by
    refine List.mem_filter.mpr ⟨List.mem_map_of_mem hx, ?_⟩
    rw [List.isEmpty_eq_false_iff.mpr hne]
    rfl
  obtain ⟨v, hv, hlower⟩ := exists_mem_firstSpellings hkept List.not_mem_nil
  exact ⟨v, (insertionSort_perm _ _).mem_iff.mpr hv, hlower⟩

/-- What is collected of a class is the first value of it, trimmed. -/
theorem find?_of_mem_distinct (h : v ∈ distinct values) :
    (values.find? fun x => folded x == folded v).map Text.trim = some v := by
  have hfound := find?_of_mem_firstSpellings ((insertionSort_perm _ _).mem_iff.mp h)
  rw [List.find?_filter, List.find?_map] at hfound
  have htrimmed : Text.trim v ≠ [] := by
    obtain ⟨hne, x, _, rfl⟩ := exists_of_mem_distinct h
    rwa [Text.trim_trim]
  -- The pass skips blank values, which are not of the class of `v` anyway.
  have hclass :
      ((fun a => decide ((!List.isEmpty a) = true ∧ (Text.lower a == Text.lower v) = true)) ∘
        Text.trim) = fun x => folded x == folded v := by
    funext x
    rw [Bool.eq_iff_iff, Function.comp_apply, decide_eq_true_eq, beq_iff_eq, beq_iff_eq,
      folded_of_mem_distinct h]
    refine ⟨And.right, fun hx => ⟨?_, hx⟩⟩
    have hne := trim_ne_nil_of_folded htrimmed (hx.trans (folded_of_mem_distinct h).symm)
    rw [List.isEmpty_eq_false_iff.mpr hne]
    rfl
  rw [hclass] at hfound
  exact hfound

/-- Lower case puts values in an order. -/
theorem sortable_lower (P : Text → Prop) :
    Sortable (fun a b => compare (Text.lower a) (Text.lower b) == .lt) P := by
  constructor
  · intro a b _ _ hab
    rw [beq_iff_eq] at hab
    rw [beq_eq_false_iff_ne, Std.OrientedCmp.gt_of_lt hab]
    decide
  · intro a b c _ _ _ hab hbc
    rw [beq_eq_false_iff_ne, ne_eq, Ordering.ne_lt_iff_isGE] at hab hbc ⊢
    exact Std.TransCmp.isGE_trans hab hbc

/-- The values that are collected are strictly increasing by lower case. -/
theorem distinct_pairwise (values : List Text) :
    (distinct values).Pairwise fun v w => compare (Text.lower v) (Text.lower w) = .lt := by
  have hsorted : (distinct values).Pairwise fun v w =>
      (compare (Text.lower w) (Text.lower v) == .lt) = false :=
    (sortable_lower fun _ => True).insertionSort_pairwise fun _ _ => trivial
  have hne : (distinct values).Pairwise fun v w => Text.lower v ≠ Text.lower w :=
    List.pairwise_map.mp (distinct_nodup values)
  refine (hsorted.and hne).imp fun {v w} h => ?_
  obtain ⟨hle, hne⟩ := h
  refine compare_eq_lt_of_isLE ?_ hne
  rw [beq_eq_false_iff_ne, ne_eq, Ordering.ne_lt_iff_isGE] at hle
  exact Std.OrientedCmp.isGE_iff_isLE.mp hle

/-! ### Catalogs from tickets -/

/-- The values of a roster on some tickets, one after the other. -/
def valuesOn (tickets : List Ticket) (roster : Roster) : List Text :=
  tickets.flatMap fun t => t.valuesOf roster

theorem sprintNames_eq (tickets : List Ticket) :
    sprintNames tickets = distinct (valuesOn tickets .sprints) := by
  simp only [sprintNames, valuesOn, Ticket.valuesOf_eq, List.filterMap_eq_flatMap_toList]

/-- Each value that is not blank has just one of its class among those that are collected. -/
theorem countP_distinct (hx : x ∈ values) (hne : Text.trim x ≠ []) :
    (distinct values).countP (fun v => folded v == folded x) = 1 := by
  have hfolded : (distinct values).map folded = (distinct values).map Text.lower :=
    List.map_congr_left fun v hv => folded_of_mem_distinct hv
  obtain ⟨v, hv, hlower⟩ := exists_mem_distinct hx hne
  have hcount : ((distinct values).map folded).count (folded x) = 1 := by
    rw [hfolded]
    refine List.count_eq_one_of_mem (distinct_nodup values) ?_
    rw [← hlower]
    exact List.mem_map_of_mem hv
  rw [List.count, List.countP_map] at hcount
  exact hcount

/-- The lower cases that are collected depend on the classes alone. -/
theorem map_lower_distinct {values others : List Text} (h : values ⊆ others)
    (h' : others ⊆ values) :
    (distinct values).map Text.lower = (distinct others).map Text.lower := by
  have hsorted : ∀ values : List Text,
      ((distinct values).map Text.lower).Pairwise fun s t => compare s t = .lt :=
    fun values => List.pairwise_map.mpr (distinct_pairwise values)
  have hsubset : ∀ {values others : List Text}, values ⊆ others →
      (distinct values).map Text.lower ⊆ (distinct others).map Text.lower := by
    intro values others hsub s hs
    obtain ⟨v, hv, rfl⟩ := List.mem_map.mp hs
    obtain ⟨hne, x, hx, rfl⟩ := exists_of_mem_distinct hv
    obtain ⟨w, hw, hlower⟩ := exists_mem_distinct (hsub hx) hne
    rw [show Text.lower (Text.trim x) = Text.lower w from hlower.symm]
    exact List.mem_map_of_mem hw
  have : Std.Irrefl fun s t : Text => compare s t = .lt :=
    ⟨fun s hs => by rw [Std.ReflOrd.compare_self] at hs; cases hs⟩
  have : Std.Antisymm fun s t : Text => compare s t = .lt :=
    ⟨fun s t hst hts => by rw [Std.OrientedCmp.gt_of_lt hst] at hts; cases hts⟩
  exact List.Subset.antisymm_of_pairwise (hsorted values) (hsorted others) (hsubset h) (hsubset h')

/-! ### What collecting comes to -/

variable {tickets : List Ticket} {c : Catalog} {roster : Roster}

/-- What is collected is a catalog of which at most the order of the sprints is open. -/
theorem exists_of_collecting (h : Collecting tickets (some c)) :
    ∃ sprints : List Text, sprints.Perm (sprintNames tickets) ∧
      c = { ofTickets tickets with sprints := sprints } := by
  obtain ⟨sorted, hsorting, hc⟩ := h
  obtain ⟨sprints, rfl, rfl⟩ := Option.map_eq_some_iff.mp hc.symm
  exact ⟨sprints, hsorting.perm, rfl⟩

/-- All rosters but the sprints are left as they are collected. -/
theorem values_eq_distinct (h : Collecting tickets (some c)) (hroster : roster ≠ .sprints) :
    c.values roster = distinct (valuesOn tickets roster) := by
  obtain ⟨sprints, _, rfl⟩ := exists_of_collecting h
  cases roster with
  | statuses =>
      show distinct (tickets.filterMap Ticket.status) = _
      simp only [valuesOn, Ticket.valuesOf_eq, List.filterMap_eq_flatMap_toList]
  | users | labels =>
      simp only [valuesOn, Ticket.valuesOf_eq]
      rfl
  | sprints => exact absurd rfl hroster

/-- The values of a roster are those that are collected, in some order. -/
theorem values_perm_distinct (h : Collecting tickets (some c)) (roster : Roster) :
    (c.values roster).Perm (distinct (valuesOn tickets roster)) := by
  by_cases hroster : roster = .sprints
  · obtain ⟨sprints, hperm, rfl⟩ := exists_of_collecting h
    rw [hroster, ← sprintNames_eq]
    exact hperm
  · rw [values_eq_distinct h hroster]

/-- Whether the sprints on tickets are few, or none of them interrupts a series. -/
def Steady (tickets : List Ticket) : Prop :=
  (sprintNames tickets).length ≤ insertionLimit ∨ Uninterrupted (sprintNames tickets)

theorem settled_iff_steady :
    Settled (fun a b => naturalOrder a b == .lt) (sprintNames tickets) ↔ Steady tickets :=
  or_congr Iff.rfl sortable_iff_uninterrupted

/-- Where the sprints are steady, collecting comes to one catalog only. -/
theorem collecting_iff (h : Steady tickets) {outcome : Option Catalog} :
    Collecting tickets outcome ↔ outcome = some (ofTickets tickets) := by
  constructor
  · rintro ⟨sorted, hsorting, rfl⟩
    rw [(sorting_iff (settled_iff_steady.mpr h)).mp hsorting]
    rfl
  · rintro rfl
    exact ⟨_, (sorting_iff (settled_iff_steady.mpr h)).mpr rfl, rfl⟩

/-- Collecting is sure not to break off just where the sprints are steady. -/
theorem steady_iff : Steady tickets ↔ ¬Collecting tickets none := by
  rw [← settled_iff_steady, settled_iff, not_iff_not]
  constructor
  · intro h
    exact ⟨none, h, rfl⟩
  · rintro ⟨sorted, hsorting, hnone⟩
    rwa [Option.map_eq_none_iff.mp hnone.symm] at hsorting

theorem collecting_collect? (tickets : List Ticket) : Collecting tickets (collect? tickets) :=
  ⟨_, sorting_sort? _ _, rfl⟩

/-- Tickets in another order have as many sprints, which differ at most in case. -/
theorem Steady.of_perm {others : List Ticket} (h : Steady tickets) (hperm : tickets.Perm others) :
    Steady others := by
  have hvalues : (valuesOn tickets .sprints).Perm (valuesOn others .sprints) :=
    hperm.flatMap_right _
  have hlower : (sprintNames others).map Text.lower = (sprintNames tickets).map Text.lower := by
    rw [sprintNames_eq, sprintNames_eq]
    exact map_lower_distinct hvalues.symm.subset hvalues.subset
  refine h.imp (fun hfew => ?_) fun hnames => hnames.of_folded fun a ha => ?_
  · have hlength := congrArg List.length hlower
    rw [List.length_map, List.length_map] at hlength
    rwa [hlength]
  · have hmem : Text.lower a ∈ (sprintNames tickets).map Text.lower := by
      rw [← hlower]
      exact List.mem_map_of_mem ha
    obtain ⟨b, hb, hba⟩ := List.mem_map.mp hmem
    refine ⟨b, hb, ?_⟩
    rw [folded_of_mem_distinct ha, folded_of_mem_distinct hb, hba]

/-! ### One value for each class -/

/-- A roster with one value for each class of those on some tickets. -/
structure HoldsClasses (c : Catalog) (tickets : List Ticket) (roster : Roster) : Prop where
  /-- Each value of a ticket that is not blank has just one of its class there. -/
  once : ∀ t ∈ tickets, ∀ x ∈ t.valuesOf roster, Text.trim x ≠ [] →
    (c.values roster).countP (fun v => folded v == folded x) = 1
  /-- Each value there is the first of its class on the first ticket with one, trimmed. -/
  first : ∀ v ∈ c.values roster, v ≠ [] ∧
    (tickets.findSome? fun t =>
      (t.valuesOf roster).find? fun x => folded x == folded v).map Text.trim = some v
  /-- All but the sprints are strictly increasing by lower case. -/
  increasing : roster ≠ .sprints →
    (c.values roster).Pairwise fun v w => compare (Text.lower v) (Text.lower w) = .lt

/-- Whatever order the sprints are in, a catalog that is collected holds the classes. -/
theorem holdsClasses_of_collecting (h : Collecting tickets (some c)) (roster : Roster) :
    c.HoldsClasses tickets roster := by
  have hperm := values_perm_distinct h roster
  constructor
  · intro t ht x hx hne
    rw [hperm.countP_eq]
    exact countP_distinct (List.mem_flatMap.mpr ⟨t, ht, hx⟩) hne
  · intro v hv
    have hmem := hperm.mem_iff.mp hv
    refine ⟨(exists_of_mem_distinct hmem).1, ?_⟩
    have hfirst := find?_of_mem_distinct hmem
    rwa [valuesOn, List.find?_flatMap] at hfirst
  · intro hroster
    rw [values_eq_distinct h hroster]
    exact distinct_pairwise _

/--
**A catalog from tickets has one value for each class of those on them**, where there is one.
Collecting is sure to come to such a catalog exactly when the sprints are few or none of them
interrupts a series, and then there is just one; else it may break off, or leave the sprints in
any order.  Tickets in another order change neither that nor, but for the sprints, more than the
case of values.
-/
theorem collecting_classes (tickets : List Ticket) :
    Collecting tickets (collect? tickets) ∧
    ((∀ outcome, Collecting tickets outcome →
        ∃ c, outcome = some c ∧ ∀ roster, c.HoldsClasses tickets roster) ↔ Steady tickets) ∧
    (Steady tickets → ∀ outcome, Collecting tickets outcome → outcome = some (ofTickets tickets)) ∧
    (∀ c, Collecting tickets (some c) → ∀ roster, c.HoldsClasses tickets roster) ∧
    ∀ others, tickets.Perm others → (Steady others ↔ Steady tickets) ∧
      ∀ c c', Collecting tickets (some c) → Collecting others (some c') →
        ∀ roster, roster ≠ .sprints →
          (c'.values roster).map Text.lower = (c.values roster).map Text.lower := by
  refine ⟨collecting_collect? tickets, ?_, fun h _ => (collecting_iff h).mp,
    fun _ => holdsClasses_of_collecting, ?_⟩
  · rw [steady_iff]
    constructor
    · intro h hnone
      obtain ⟨_, hsome, _⟩ := h none hnone
      cases hsome
    · intro hnot outcome h
      cases outcome with
      | none => exact absurd h hnot
      | some c => exact ⟨c, rfl, holdsClasses_of_collecting h⟩
  · intro others hperm
    refine ⟨⟨fun h => h.of_perm hperm.symm, fun h => h.of_perm hperm⟩, ?_⟩
    intro c c' h h' roster hroster
    have hvalues : (valuesOn tickets roster).Perm (valuesOn others roster) :=
      hperm.flatMap_right _
    rw [values_eq_distinct h hroster, values_eq_distinct h' hroster]
    exact map_lower_distinct hvalues.symm.subset hvalues.subset

/-- Two tickets with users, of which one is on both in another case. -/
theorem collecting_classes_of_users :
    let first :=
      { Ticket.blank with assignee := some (" Zoë " : Text), reporter := some ("ΝΙΚΟΣ" : Text) }
    let second :=
      { Ticket.blank with assignee := some ("νικος" : Text), reporter := some (" " : Text) }
    Steady [first, second] ∧ collect? [first, second] = some (ofTickets [first, second]) ∧
      (ofTickets [first, second]).users = (["Zoë", "ΝΙΚΟΣ"] : List Text) ∧
      (ofTickets [first, second]).users.countP (fun v => folded v == folded ("νικος" : Text)) = 1 ∧
      (ofTickets [second, first]).users.map Text.lower = (["zoë", "νικος"] : List Text) := by
  intro first second
  have hsteady : Steady [first, second] := Or.inl (by decide +kernel)
  have husers : (ofTickets [first, second]).users = (["Zoë", "ΝΙΚΟΣ"] : List Text) := by
    decide +kernel
  obtain ⟨hcollect, _, hone, hclasses, hothers⟩ := collecting_classes [first, second]
  have hcollected := hone hsteady _ hcollect
  rw [hcollected] at hcollect
  refine ⟨hsteady, hcollected, husers, ?_, ?_⟩
  · exact (hclasses _ hcollect .users).once second (by simp) ("νικος" : Text) (by decide +kernel)
      (by decide +kernel)
  · obtain ⟨hiff, horder⟩ := hothers [second, first] (.swap _ _ _)
    have hother := (collecting_iff (hiff.mpr hsteady)).mpr rfl
    have hlower :
        (ofTickets [first, second]).users.map Text.lower = (["zoë", "νικος"] : List Text) := by
      rw [husers]
      decide +kernel
    exact (horder _ _ hcollect hother .users (by decide)).trans hlower

/-- Sprints numbered from 1 to 26, and one between the third and the twenty-fourth by its text. -/
def crowdedSprints : List Text :=
  (List.range 26).map (fun n => ("Sprint " : Text) ++ Text.ofNat (n + 1)) ++
    [("Sprint 24 hotfix" : Text)]

/-- Tickets with these sprints need not come to a catalog. -/
theorem collecting_breaksOff :
    collect? (crowdedSprints.map Ticket.ofSprint) = none ∧
      ¬∀ outcome, Collecting (crowdedSprints.map Ticket.ofSprint) outcome →
        ∃ c, outcome = some c ∧
          ∀ roster, c.HoldsClasses (crowdedSprints.map Ticket.ofSprint) roster := by
  have hnot : ¬Steady (crowdedSprints.map Ticket.ofSprint) := by
    rintro (hfew | hnames)
    · revert hfew
      decide +kernel
    · exact hnames "Sprint 3" (by decide +kernel) "Sprint 24" (by decide +kernel)
        "Sprint 24 hotfix" (by decide +kernel) (by decide +kernel)
  have hnone : collect? (crowdedSprints.map Ticket.ofSprint) = none := by
    unfold collect? sort?
    rw [if_neg (settled_iff_steady.not.mpr hnot)]
    rfl
  refine ⟨hnone, fun h => ?_⟩
  obtain ⟨_, hsome, _⟩ := h _ (collecting_collect? _)
  rw [hnone] at hsome
  cases hsome

end Catalog

end TicketSearch
