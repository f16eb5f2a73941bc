/-
One equality of texts.

Evaluation compares texts with `sameValue`, which tries ASCII case first and the full lower
case after it.  A catalog drops a value when it has seen its lower case, and a condition
compares lower cases in the database.  All three are the same equality, that of the trimmed
texts in lower case: ASCII case never makes two texts equal that have another lower case, not
even next to a sigma (`Text.sameValue_eq`).

Only sprints have one more: evaluation compares them in natural order, in which names may be
equal that differ as texts.
-/
import TicketSearch.Proofs.Catalog.Classes
import TicketSearch.Proofs.Sql.Agreement

namespace TicketSearch

open Text (sameValue)

theorem Text.sameValue_iff {s t : Text} :
    sameValue s t = true ↔ lower (trim s) = lower (trim t) := by
  rw [sameValue_eq, beq_iff_eq]

theorem Text.sameValue_equivalence : Equivalence fun s t => sameValue s t = true := by
  constructor
  · intro s
    rw [sameValue_iff]
  · intro s t h
    rw [sameValue_iff] at h ⊢
    exact h.symm
  · intro s t u h h'
    rw [sameValue_iff] at h h' ⊢
    exact h.trans h'

/-! ### Values of a catalog -/

namespace Catalog

/-- A trimmed value has been seen in lower case exactly when one of those seen equals it. -/
theorem any_sameValue {kept : List Text} {x : Text} (hkept : ∀ v ∈ kept, Text.trim v = v)
    (hx : Text.trim x = x) :
    kept.any (sameValue x) = true ↔ Text.lower x ∈ kept.map Text.lower := by
  rw [List.any_eq_true, List.mem_map]
  constructor
  · rintro ⟨v, hv, hsame⟩
    rw [Text.sameValue_iff, hx, hkept v hv] at hsame
    exact ⟨v, hv, hsame.symm⟩
  · rintro ⟨v, hv, hlower⟩
    refine ⟨v, hv, ?_⟩
    rw [Text.sameValue_iff, hx, hkept v hv]
    exact hlower.symm

/-- The pass over trimmed values drops those that equal an earlier one. -/
theorem eraseDupsBy_loop_eq {kept values : List Text} (hkept : ∀ v ∈ kept, Text.trim v = v)
    (hvalues : ∀ v ∈ values, Text.trim v = v) :
    List.eraseDupsBy.loop sameValue values kept =
      kept.reverse ++ firstSpellings (kept.map Text.lower) values := by
  induction values generalizing kept with
  | nil => exact (List.append_nil _).symm
  | cons x rest ih =>
      have hx := hvalues x List.mem_cons_self
      have hrest : ∀ v ∈ rest, Text.trim v = v := fun v hv => hvalues v (List.mem_cons_of_mem _ hv)
      have hseen := any_sameValue hkept hx
      by_cases hmem : Text.lower x ∈ kept.map Text.lower
      · rw [List.eraseDupsBy.loop, hseen.mpr hmem, firstSpellings_of_mem hmem]
        exact ih hkept hrest
      · have hnew : kept.any (sameValue x) = false := by
          rw [← Bool.not_eq_true, hseen]
          exact hmem
        have hkept' : ∀ v ∈ x :: kept, Text.trim v = v := by
          intro v hv
          rcases List.mem_cons.mp hv with rfl | hv
          · exact hx
          · exact hkept v hv
        rw [List.eraseDupsBy.loop, hnew, firstSpellings_of_not_mem hmem]
        have hloop := ih hkept' hrest
        rw [List.reverse_cons, List.append_assoc] at hloop
        exact hloop

/-- **A catalog tells values apart as evaluation does.** -/
theorem distinct_eq (values : List Text) :
    distinct values = insertionSort (fun a b => compare (Text.lower a) (Text.lower b) == .lt)
      (((values.map Text.trim).filter fun value => !value.isEmpty).eraseDupsBy sameValue) := by
  have htrimmed :
      ∀ v ∈ (values.map Text.trim).filter fun value => !value.isEmpty, Text.trim v = v := by
    intro v hv
    obtain ⟨x, _, rfl⟩ := List.mem_map.mp (List.mem_filter.mp hv).1
    exact Text.trim_trim x
  rw [List.eraseDupsBy, eraseDupsBy_loop_eq (fun v hv => absurd hv List.not_mem_nil) htrimmed]
  rfl

end Catalog

/-! ### Literals in conditions -/

namespace Sql

variable {f : Field} {now : Instant}

theorem loweredText_eq_iff {v w : Literal} :
    loweredText v = loweredText w ↔ sameValue v.text w.text = true :=
  Text.sameValue_iff.symm

/-- Where texts are compared, a literal is in the condition of an equality as its lower case. -/
theorem compileCompare_eq_iff (hnumber : f.kind ≠ .numeric) (hdate : f.kind ≠ .date)
    {op : Comparison} (hop : op.isOrdering = false) {v w : Literal} :
    compileCompare f op v now = compileCompare f op w now ↔ loweredText v = loweredText w := by
  unfold compileCompare compareLowered
  rw [hop]
  cases hkind : f.kind with
  | enum | ordinal | text => simp
  | list => by_cases hnot : op = .notEq <;> simp [hnot]
  | numeric => exact absurd hkind hnumber
  | date => exact absurd hkind hdate

theorem compileMember_eq_iff (hnumber : f.kind ≠ .numeric) (hdate : f.kind ≠ .date)
    {vs ws : List Literal} :
    compileMember f vs now = compileMember f ws now ↔ vs.map loweredText = ws.map loweredText := by
  have htexts : (vs.map fun v => Value.text (loweredText v)) =
      (ws.map fun w => Value.text (loweredText w)) ↔
      vs.map loweredText = ws.map loweredText := by
    have hinj : Function.Injective Value.text := fun s t h => Value.text.inj h
    rw [← List.map_inj_right hinj, List.map_map, List.map_map]
    rfl
  unfold compileMember
  cases hkind : f.kind with
  | enum | ordinal | text => simpa using htexts
  | list => simp
  | numeric => exact absurd hkind hnumber
  | date => exact absurd hkind hdate

theorem bind_pure_eq_iff {ε α β : Type} {g : α → β} (hg : Function.Injective g) {x y : Except ε α} :
    (x >>= fun a => pure (g a)) = (y >>= fun a => pure (g a)) ↔ x = y := by
  cases x with
  | error e => cases y <;> simp [bind, Except.bind, pure, Except.pure]
  | ok a => cases y <;> simp [bind, Except.bind, pure, Except.pure, hg.eq_iff]

/-- The conditions of two equalities are the same when their literals are the same value. -/
theorem compile_compare_eq_iff (hnumber : f.kind ≠ .numeric) (hdate : f.kind ≠ .date)
    {op : Comparison} (hop : op.isOrdering = false) {v w : Literal} :
    compile now (.compare f op v) = compile now (.compare f op w) ↔
      sameValue v.text w.text = true := by
  have hguard : Function.Injective (Condition.and (present f)) :=
    fun c d h => (Condition.and.inj h).2
  have hcompiled : compile now (.compare f op v) = compile now (.compare f op w) ↔
      compileCompare f op v now = compileCompare f op w now := bind_pure_eq_iff hguard
  rw [hcompiled, compileCompare_eq_iff hnumber hdate hop, loweredText_eq_iff]

/-- The conditions of two memberships are the same when their literals are, one by one. -/
theorem compile_member_eq_iff (hnumber : f.kind ≠ .numeric) (hdate : f.kind ≠ .date)
    {negated : Bool} {vs ws : List Literal} :
    compile now (.member f negated vs) = compile now (.member f negated ws) ↔
      List.Forall₂ (fun v w => sameValue v.text w.text = true) vs ws := by
  have hguard : Function.Injective fun leaf =>
      if negated then Condition.not (.and (present f) leaf) else .and (present f) leaf := by
    intro c d h
    cases negated with
    | true => exact (Condition.and.inj (Condition.not.inj h)).2
    | false => exact (Condition.and.inj h).2
  have htexts : vs.map loweredText = ws.map loweredText ↔
      List.Forall₂ (fun v w => sameValue v.text w.text = true) vs ws := by
    rw [← List.forall₂_eq_eq_eq, List.forall₂_map_left_iff, List.forall₂_map_right_iff]
    simp only [loweredText_eq_iff]
  have hcompiled : compile now (.member f negated vs) = compile now (.member f negated ws) ↔
      compileMember f vs now = compileMember f ws now := bind_pure_eq_iff hguard
  rw [hcompiled, compileMember_eq_iff hnumber hdate, htexts]

/-- Evaluation finds a literal in a cell of texts where its lower case is that of
one of them, trimmed. -/
theorem equal?_row_iff (hnumber : f.kind ≠ .numeric) (hdate : f.kind ≠ .date)
    (hsprint : f ≠ .sprint) (t : Ticket) (v : Literal) :
    equal? f (t.row f) v now = some true ↔
      ∃ x ∈ (t.row f).texts, Text.lower (Text.trim x) = loweredText v := by
  have hfits := t.row_fits f
  cases hcell : t.row f with
  | missing => simp [equal?, Cell.texts]
  | text x =>
      rw [hcell] at hfits
      rw [equal?_text hfits hsprint]
      simp [Cell.texts, folded, loweredText]
  | list items =>
      rw [hcell] at hfits
      rw [equal?_list hfits]
      simp [Cell.texts, folded, loweredText]
  | number x =>
      rw [hcell] at hfits
      exact absurd hfits hnumber
  | date i =>
      rw [hcell] at hfits
      exact absurd hfits hdate

/-- Natural order tells no sprints apart that are the same value. -/
theorem equal?_sprint_of_lower {t : Ticket} {v : Literal} {x : Text}
    (hx : x ∈ (t.row .sprint).texts) (h : Text.lower (Text.trim x) = loweredText v) :
    equal? .sprint (t.row .sprint) v now = some true := by
  have hsprint : t.sprint = some x := by
    rw [← Option.mem_toList, ← Ticket.texts_textCell]
    exact hx
  have hcell : t.row .sprint = .text x := by
    show Ticket.textCell t.sprint = _
    rw [hsprint]
    rfl
  rw [hcell]
  show some (naturalOrder x v.text == .eq) = some true
  rw [naturalOrder_of_folded h]
  rfl

end Sql

/--
**Texts have one equality**, that of their trimmed lower cases, which is an equivalence.  A
catalog drops the values that are equal to an earlier one.  Where texts are compared, two
conditions of an equality or a membership are the same when their literals are equal, and
evaluation finds a literal on a ticket where the lower case that the condition asks for is that of
one of the texts there; of sprints it may find more, whose names differ as texts.
-/
theorem Text.sameValue_laws :
    (∀ s t, sameValue s t = true ↔ lower (trim s) = lower (trim t)) ∧
    (Equivalence fun s t => sameValue s t = true) ∧
    (∀ values, Catalog.distinct values =
      insertionSort (fun a b => compare (lower a) (lower b) == .lt)
        (((values.map trim).filter fun value => !value.isEmpty).eraseDupsBy sameValue)) ∧
    (∀ (f : Field) (now : Instant), f.kind ≠ .numeric → f.kind ≠ .date →
      (∀ op v w, op.isOrdering = false →
        (Sql.compile now (.compare f op v) = Sql.compile now (.compare f op w) ↔
          sameValue v.text w.text = true)) ∧
      (∀ negated vs ws,
        Sql.compile now (.member f negated vs) = Sql.compile now (.member f negated ws) ↔
          List.Forall₂ (fun v w => sameValue v.text w.text = true) vs ws) ∧
      (∀ (t : Ticket) (v : Literal),
        (∃ x ∈ (t.row f).texts, lower (trim x) = Sql.loweredText v) →
          equal? f (t.row f) v now = some true) ∧
      (f ≠ .sprint → ∀ (t : Ticket) (v : Literal), equal? f (t.row f) v now = some true →
        ∃ x ∈ (t.row f).texts, lower (trim x) = Sql.loweredText v)) := by
  refine ⟨fun s t => sameValue_iff, sameValue_equivalence, Catalog.distinct_eq, ?_⟩
  intro f now hnumber hdate
  refine ⟨fun op v w hop => Sql.compile_compare_eq_iff hnumber hdate hop,
    fun negated vs ws => Sql.compile_member_eq_iff hnumber hdate, ?_, ?_⟩
  · rintro t v ⟨x, hx, h⟩
    by_cases hsprint : f = .sprint
    · subst hsprint
      exact Sql.equal?_sprint_of_lower hx h
    · exact (Sql.equal?_row_iff hnumber hdate hsprint t v).mpr ⟨x, hx, h⟩
  · intro hsprint t v h
    exact (Sql.equal?_row_iff hnumber hdate hsprint t v).mp h

/-- A street in two spellings: one has a capital sigma at the end of its first word. -/
theorem Text.sameValue_laws_of_sigma :
    lower (trim ("ΟΔΟΣ a " : Text)) = lower (trim ("οδος A" : Text)) ∧
      sameValue ("ΟΔΟΣ a " : Text) ("οδος A" : Text) = true ∧
      ∀ now, Sql.compile now (.compare .assignee .eq (.quoted "ΟΔΟΣ a ")) =
        Sql.compile now (.compare .assignee .eq (.quoted "οδος A")) := by
  have hlower : lower (trim ("ΟΔΟΣ a " : Text)) = lower (trim ("οδος A" : Text)) := by
    decide +kernel
  obtain ⟨hiff, _, _, hcompile⟩ := sameValue_laws
  have hsame := (hiff _ _).mpr hlower
  refine ⟨hlower, hsame, fun now => ?_⟩
  have hfield := (hcompile .assignee now (by decide) (by decide)).1
  exact (hfield .eq (.quoted "ΟΔΟΣ a ") (.quoted "οδος A") rfl).mpr hsame

end TicketSearch
