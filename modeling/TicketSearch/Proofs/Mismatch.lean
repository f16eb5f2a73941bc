/-
What a predicate means whose operator is not offered for its field.

Such predicates are accepted and reported.  They come in two sorts (`supports_eq_false_iff`).
A comparison that asks for an order where the values of the field have none never holds, on
whatever row.  But a test for emptiness asks nothing of the kind of the field: on a field
with a closed set of values, which does not offer it, it is evaluated like on any other.

The two sorts are told apart predicate by predicate, so the first step is to take a query
apart into its predicates (`leaves`) and to see that the reports are those of the predicates
(`mismatches_eq_flatMap`).
-/
import TicketSearch.Query.Parser
import TicketSearch.Proofs.Sql.Agreement

namespace TicketSearch

/-! ### Operators that are not offered -/

/-- What is not offered is an order where there is none, or emptiness on a closed set of values. -/
theorem Field.supports_eq_false_iff (f : Field) (op : Operator) :
    f.supports op = false ↔
      op.isOrdering = true ∧ (f.kind = .enum ∨ f.kind = .text ∨ f.kind = .list) ∨
        (op = .isEmpty ∨ op = .isNotEmpty) ∧ f.kind = .enum := by
  unfold Field.supports Field.operators
  cases f.kind <;> rcases op with (_ | _ | _ | _ | _ | _) | _ | _ | _ | _ <;> decide

/-- Nothing holds of a cell that asks for an order where there is none. -/
theorem holds_of_unordered {f : Field} (hkind : f.kind = .enum ∨ f.kind = .text ∨ f.kind = .list)
    {op : Comparison} (hop : op.isOrdering = true) (c : Cell) (value : Literal) (now : Instant) :
    holds f op c value now = false := by
  cases hempty : c.isEmpty with
  | true =>
      unfold holds
      rw [hempty]
      rfl
  | false =>
      rw [holds_of_isOrdering hempty hop, order?_eq_none hkind]
      rfl

namespace Query

/-! ### The predicates of a query -/

/-- The predicates of a query, from left to right. -/
def leaves : Query → List Query
  | all => []
  | and left right | or left right => left.leaves ++ right.leaves
  | not inner => inner.leaves
  | leaf => [leaf]

/-- The predicates of a query that are reported as mismatches, from left to right. -/
def mismatched (q : Query) : List Query :=
  q.leaves.filter fun leaf => !leaf.mismatches.isEmpty

theorem predicates_eq_flatMap (q : Query) : q.predicates = q.leaves.flatMap predicates := by
  induction q with
  | all => rfl
  | compare f op value | member f negated values | empty f negated => rfl
  | and left right ihl ihr | or left right ihl ihr =>
      rw [predicates, leaves, List.flatMap_append, ihl, ihr]
  | not inner ih => exact ih

/-- What is reported of a query is reported of its predicates, one by one. -/
theorem mismatches_eq_flatMap (q : Query) : q.mismatches = q.mismatched.flatMap mismatches := by
  have hleaves : ∀ leaves : List Query,
      (leaves.flatMap predicates).filter (fun p => !p.1.supports p.2) =
        (leaves.filter fun leaf => !leaf.mismatches.isEmpty).flatMap mismatches := by
    intro leaves
    induction leaves with
    | nil => rfl
    | cons leaf rest ih =>
        rw [List.flatMap_cons, List.filter_append, ih, List.filter_cons]
        show leaf.mismatches ++ _ = _
        by_cases hnone : leaf.mismatches = []
        · rw [hnone, if_neg (by decide), List.nil_append]
        · rw [if_pos (by simpa using hnone), List.flatMap_cons]
  unfold mismatches
  rw [predicates_eq_flatMap]
  exact hleaves q.leaves

theorem cases_of_mem_leaves {q leaf : Query} (h : leaf ∈ q.leaves) :
    (∃ f op value, leaf = .compare f op value) ∨
      (∃ f negated values, leaf = .member f negated values) ∨
      ∃ f negated, leaf = .empty f negated := by
  induction q with
  | all => cases h
  | compare f op value => exact Or.inl ⟨f, op, value, List.mem_singleton.mp h⟩
  | member f negated values => exact Or.inr (Or.inl ⟨f, negated, values, List.mem_singleton.mp h⟩)
  | empty f negated => exact Or.inr (Or.inr ⟨f, negated, List.mem_singleton.mp h⟩)
  | and left right ihl ihr | or left right ihl ihr => exact (List.mem_append.mp h).elim ihl ihr
  | not inner ih => exact ih h

/-- A reported predicate is an order where there is none, or a test for emptiness on a
closed set of values. -/
theorem cases_of_mem_mismatched {q leaf : Query} (h : leaf ∈ q.mismatched) :
    (∃ f op value, leaf = .compare f op value ∧ op.isOrdering = true ∧
      (f.kind = .enum ∨ f.kind = .text ∨ f.kind = .list)) ∨
      ∃ f negated, leaf = .empty f negated ∧ f.kind = .enum := by
  obtain ⟨hleaf, hreported⟩ := List.mem_filter.mp h
  have hunsupported : ∀ f op, leaf.predicates = [(f, op)] → f.supports op = false := by
    intro f op hpredicates
    cases hsupports : f.supports op with
    | false => rfl
    | true => simp [mismatches, hpredicates, hsupports] at hreported
  rcases cases_of_mem_leaves hleaf with
    ⟨f, op, value, rfl⟩ | ⟨f, negated, values, rfl⟩ | ⟨f, negated, rfl⟩
  · rcases (f.supports_eq_false_iff _).mp (hunsupported f (.compare op) rfl) with h | ⟨h, _⟩
    · exact Or.inl ⟨f, op, value, rfl, h⟩
    · rcases h with h | h <;> cases h
  · -- lists are offered for every field
    exfalso
    cases negated <;>
      rcases (f.supports_eq_false_iff _).mp (hunsupported f _ rfl) with
        ⟨h, _⟩ | ⟨h | h, _⟩ <;> cases h
  · refine Or.inr ⟨f, negated, rfl, ?_⟩
    cases negated <;>
      rcases (f.supports_eq_false_iff _).mp (hunsupported f _ rfl) with ⟨h, _⟩ | ⟨_, hkind⟩
    · cases h
    · exact hkind
    · cases h
    · exact hkind

/-! ### What reported predicates mean -/

/-- Both tests for emptiness are true on some ticket. -/
theorem exists_eval_empty {f : Field} (hkind : f.kind = .enum) (negated : Bool) :
    ∃ t : Ticket, ∀ now, (empty f negated).eval t.row now = true := by
  cases negated with
  | false =>
      refine ⟨.blank, fun now => ?_⟩
      cases f <;> rfl
  | true =>
      let t : Ticket :=
        { Ticket.blank with status := some "x", type := some "x", resolution := some "x" }
      refine ⟨t, fun now => ?_⟩
      cases f <;> first | rfl | cases hkind

/--
**Reported comparisons match nothing; reported tests for emptiness are tests for emptiness.**
What is reported of a query are its predicates with an operator that their field does not
offer.  Such a predicate is either a comparison, and then false on every row at any moment,
or a test for emptiness on a field with a closed set of values, and then true of the rows on
which the field is empty, or is not; there are tickets on which it is true.
-/
theorem eval_of_mem_mismatched (q : Query) :
    q.mismatches = q.mismatched.flatMap mismatches ∧
      ∀ leaf ∈ q.mismatched,
        (∃ f op value, leaf = .compare f op value ∧ ∀ row now, leaf.eval row now = false) ∨
          ∃ f negated, leaf = .empty f negated ∧ f.kind = .enum ∧
            (∀ row now, leaf.eval row now = ((row f).isEmpty != negated)) ∧
              ∃ t : Ticket, ∀ now, leaf.eval t.row now = true := by
  refine ⟨q.mismatches_eq_flatMap, fun leaf hleaf => ?_⟩
  rcases cases_of_mem_mismatched hleaf with
    ⟨f, op, value, rfl, hop, hkind⟩ | ⟨f, negated, rfl, hkind⟩
  · exact Or.inl ⟨f, op, value, rfl, fun row now => holds_of_unordered hkind hop (row f) value now⟩
  · exact Or.inr ⟨f, negated, rfl, hkind, fun row now => rfl, exists_eval_empty hkind negated⟩

/-- The case of `NOT type > bug OR resolution IS EMPTY`: both predicates are reported. -/
theorem eval_of_mem_mismatched_of_two :
    let q : Query := .or (.not (.compare .type .gt (.word "bug"))) (.empty .resolution false)
    q.mismatched = [.compare .type .gt (.word "bug"), .empty .resolution false] ∧
      ∀ leaf ∈ q.mismatched,
        (∃ f op value, leaf = .compare f op value ∧ ∀ row now, leaf.eval row now = false) ∨
          ∃ f negated, leaf = .empty f negated ∧ f.kind = .enum ∧
            (∀ row now, leaf.eval row now = ((row f).isEmpty != negated)) ∧
              ∃ t : Ticket, ∀ now, leaf.eval t.row now = true :=
  ⟨rfl, (eval_of_mem_mismatched _).2⟩

/-- `status IS EMPTY` is reported, and is true of a ticket without a status. -/
theorem eval_mismatched_of_empty_status :
    parse "status IS EMPTY" = .ok (.empty .status false) ∧
      (empty .status false).mismatches = [(.status, .isEmpty)] ∧
      (empty .status false).eval Ticket.blank.row Instant.earliest = true := by
  refine ⟨?_, rfl, rfl⟩
  decide +kernel

end Query
end TicketSearch
