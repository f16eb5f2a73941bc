/-
The six comparisons of a field with a value are one.

`=` and `!=` ask `equal?`, the other four signs ask `order?`, and the two go through the kinds of
fields each in its own way.  Where there is an order they agree all the same.  `Orders` has one
constructor for every way in which a cell can be ordered relative to a literal, and in each of
them the two are equal exactly when the order says so (`Orders.equal?_eq`).  So every sign holds
exactly when it accepts that order (`holds_eq_accepts`), and what is to be said of the six signs
is said of `Comparison.accepts`.

One way is left out: a field of dates and a literal that denotes an instant but names no day, as
`-7d` does.  There equality asks for the day and the order for the instant.
-/
import TicketSearch.Proofs.Sql.Agreement

namespace TicketSearch

/-! ### Where there is an order -/

/-- The ways in which a cell is ordered relative to a literal, by the kind of the field. -/
inductive Orders (f : Field) (value : Literal) (now : Instant) : Cell → Ordering → Prop
  | text {t : Text} {o : Ordering} (kind : f.kind = .ordinal)
      (order : f.order? t value.text = some o) :
      Orders f value now (.text t) o
  | number {x y : Float} {o : Ordering} (kind : f.kind = .numeric)
      (denotes : value.number? = some y)
      (order : compareFloats? x y = some o) : Orders f value now (.number x) o
  | day {i : Instant} {d : Date} (kind : f.kind = .date) (names : value.day? = some d) :
      Orders f value now (.date i) (compare i.date d)
  | instant {i j : Instant} (kind : f.kind = .date) (noDay : value.day? = none)
      (denotes : value.instant? now = some j) : Orders f value now (.date i) (compare i j)

variable {f : Field} {c : Cell} {value : Literal} {now : Instant} {o : Ordering}

theorem orders_of_order? (h : order? f c value now = some o) : Orders f value now c o := by
  unfold order? at h
  split at h
  · next kind => exact .text kind h
  · next kind =>
      obtain ⟨y, denotes, order⟩ := Option.bind_eq_some_iff.mp h
      exact .number kind denotes order
  · next kind =>
      split at h
      · next d names =>
          cases h
          exact .day kind names
      · next noDay =>
          obtain ⟨j, denotes, rfl⟩ := Option.map_eq_some_iff.mp h
          exact .instant kind noDay denotes
  · cases h

/-- Two numbers that have an order are equal exactly when they are ordered so. -/
theorem beq_of_compareFloats? {x y : Float} (h : compareFloats? x y = some o) :
    (x == y) = (o == .eq) := by
  rw [compareFloats?_eq] at h
  rw [float_beq_eq, h]
  rfl

/-- **Where there is an order, equality is part of it**; of dates, where the literal names a day. -/
theorem Orders.equal?_eq (h : Orders f value now c o)
    (hday : f.kind = .date → value.day?.isSome = true) :
    equal? f c value now = some (o == .eq) := by
  cases h with
  | text kind order =>
      unfold equal?
      simp only [kind, order]
  | number kind denotes order =>
      rw [equal?_number kind, denotes, Option.map_some, beq_of_compareFloats? order]
  | @day i d kind names =>
      have hmeant : value.meantDay? now = some d := by
        unfold Literal.meantDay?
        rw [names, Option.some_or]
      rw [equal?_date kind, hmeant, Option.map_some, Date.compare_beq_eq]
  | instant kind noDay _ =>
      have hsome := hday kind
      rw [noDay] at hsome
      cases hsome

/-! ### The signs -/

/-- Of an empty cell nothing holds. -/
theorem holds_of_isEmpty (hc : c.isEmpty = true) (f : Field) (op : Comparison) (value : Literal)
    (now : Instant) : holds f op c value now = false := by
  unfold holds
  rw [hc]
  rfl

/-- Of any other cell a sign holds when it accepts the order, if equality is part of that. -/
theorem holds_eq_accepts (hc : c.isEmpty = false) (horder : order? f c value now = some o)
    (hequal : equal? f c value now = some (o == .eq)) (op : Comparison) :
    holds f op c value now = op.accepts o := by
  by_cases hop : op.isOrdering = true
  · rw [holds_of_isOrdering hc hop, horder, Option.any_some]
  · rcases Comparison.eq_or_notEq hop with rfl | rfl
    · rw [holds_eq hc, hequal, some_beq_true]
      rfl
    · rw [holds_notEq hc, hequal, some_beq_false]
      rfl

/-- What six signs have in common with those of a linear order. -/
structure IsTrichotomous (holds : Comparison → Bool) : Prop where
  /-- One of less, equal and greater holds, and no other. -/
  one : ∃ sign ∈ [Comparison.lt, .eq, .gt],
    ∀ op ∈ [Comparison.lt, .eq, .gt], holds op = true ↔ op = sign
  ltEq : holds .ltEq = (holds .lt || holds .eq)
  gtEq : holds .gtEq = (holds .gt || holds .eq)
  notEq : holds .notEq = (holds .lt || holds .gt)

/-- The sign for an order. -/
def Comparison.ofOrdering : Ordering → Comparison
  | .lt => .lt
  | .eq => .eq
  | .gt => .gt

theorem isTrichotomous_accepts (o : Ordering) : IsTrichotomous fun op => op.accepts o := by
  have hsign : ∀ op ∈ [Comparison.lt, .eq, .gt], op.accepts o = true ↔ op = .ofOrdering o := by
    cases o <;> decide
  have hmem : Comparison.ofOrdering o ∈ [Comparison.lt, .eq, .gt] := by
    cases o <;> decide
  constructor
  · exact ⟨.ofOrdering o, hmem, hsign⟩
  · cases o <;> rfl
  · cases o <;> rfl
  · cases o <;> rfl

namespace Query

/-- The sprint of a row compares with a value as natural order says, whatever the sign. -/
theorem eval_compare_sprint {row : Row} {name : Text} (hcell : row .sprint = .text name)
    (hname : (Text.trim name).isEmpty = false) (op : Comparison) (value : Literal) (now : Instant) :
    (compare .sprint op value).eval row now = op.accepts (naturalOrder name value.text) := by
  have horder : order? .sprint (row .sprint) value now = some (naturalOrder name value.text) := by
    rw [hcell]
    rfl
  have hequal := (orders_of_order? horder).equal?_eq fun hdate => by cases hdate
  refine holds_eq_accepts ?_ horder hequal op
  rw [hcell]
  exact hname

/--
**Where a field has an order to a value, its six comparisons with the value are those of a linear
order.**  Wherever the cell of a field, whatever it holds, is ordered relative to a literal, which
for dates is to name a day, it equals the literal exactly when it is ordered so; and unless the cell
is empty, one of `<`, `=` and `>` holds and no other, and the other three signs go by these.  Of an
empty cell none of the six holds, for any field and any literal.
-/
theorem eval_compare_isTrichotomous (row : Row) (now : Instant) (f : Field) (value : Literal) :
    (∀ o, (f.kind = .date → value.day?.isSome = true) → order? f (row f) value now = some o →
      equal? f (row f) value now = some (o == .eq) ∧
        ((row f).isEmpty = false → IsTrichotomous fun op => (compare f op value).eval row now)) ∧
    ((row f).isEmpty = true → ∀ op, (compare f op value).eval row now = false) := by
  constructor
  · intro o hday horder
    have hequal := (orders_of_order? horder).equal?_eq hday
    refine ⟨hequal, fun hc => ?_⟩
    have hholds : (fun op => (compare f op value).eval row now) = fun op => op.accepts o :=
      funext fun op => holds_eq_accepts hc horder hequal op
    rw [hholds]
    exact isTrichotomous_accepts o
  · intro hc op
    exact holds_of_isEmpty hc f op value now

/-- The last second of a day and a quoted text that names the day, and a ticket
that is due on no day. -/
theorem eval_compare_isTrichotomous_of_day :
    let day : Date := ⟨20152, by decide, by decide⟩
    let due : Ticket := { Ticket.blank with dueDate := some ⟨day, 86399, 0, by decide, by decide⟩ }
    let value : Literal := .quoted " 2025-03-05"
    equal? .dueDate (due.row .dueDate) value .earliest = some true ∧
      IsTrichotomous (fun op => (compare .dueDate op value).eval due.row .earliest) ∧
      (compare .dueDate .notEq value).eval Ticket.blank.row .earliest = false := by
  intro day due value
  have hday : value.day? = some day := by decide +kernel
  have horder : order? .dueDate (due.row .dueDate) value .earliest = some .eq :=
    order?_date_of_day rfl _ _ hday
  obtain ⟨hequal, htrichotomous⟩ :=
    (eval_compare_isTrichotomous due.row .earliest .dueDate value).1 .eq
    (fun _ => by rw [hday]; rfl) horder
  exact ⟨hequal, htrichotomous rfl,
    (eval_compare_isTrichotomous Ticket.blank.row .earliest .dueDate value).2 rfl .notEq⟩

end Query

end TicketSearch
