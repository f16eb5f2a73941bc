/-
Sprints in the database.

The evaluation tells sprints apart by natural order, the database by their folded texts.
Two names with the same folded text are equal in natural order, but not the other way
round: the number of a sprint can be written with zeros before it, and with more or fewer
blanks between it and the text.  Such a name is `Respelled`, and that is the only thing the
database misses: a search for one sprint has the same answer on both sides unless the sprint
of the ticket is the one sought in another spelling, and a search for several unless it is
one of them in another spelling and none of them in its own.
-/
import TicketSearch.Proofs.Order
import TicketSearch.Proofs.Sql.Agreement
import TicketSearch.Proofs.Trichotomy

namespace TicketSearch

/-! ### Names of one number in two spellings -/

/-- Two names with the same text and the same number that are written differently. -/
structure Respelled (a b : Text) : Prop where
  series : SameSeries a b
  number : seriesNumber a = seriesNumber b
  written : folded a ≠ folded b

variable {a b : Text}

instance : Decidable (Respelled a b) :=
  decidable_of_iff (SameSeries a b ∧ seriesNumber a = seriesNumber b ∧ folded a ≠ folded b)
    ⟨fun ⟨series, number, written⟩ => ⟨series, number, written⟩,
      fun h => ⟨h.series, h.number, h.written⟩⟩

/-- Names are equal in natural order when they have one text, or one number in two spellings. -/
theorem naturalOrder_eq_iff : naturalOrder a b = .eq ↔ folded a = folded b ∨ Respelled a b := by
  constructor
  · intro h
    by_cases hsame : folded a = folded b
    · exact Or.inl hsame
    · by_cases hseries : SameSeries a b
      · rw [naturalOrder_of_sameSeries hseries, Nat.compare_eq_eq] at h
        exact Or.inr ⟨hseries, h, hsame⟩
      · rw [naturalOrder_of_not_sameSeries hseries] at h
        exact absurd (Std.LawfulEqOrd.eq_of_compare h) hsame
  · rintro (hsame | h)
    · exact naturalOrder_of_folded hsame
    · rw [naturalOrder_of_sameSeries h.series, Nat.compare_eq_eq]
      exact h.number

/-- Looking for a name by its text and in natural order differs by the respelled names. -/
theorem folded_beq_eq_iff :
    (folded a == folded b) = (naturalOrder a b == .eq) ↔ ¬Respelled a b := by
  rw [Bool.eq_iff_iff, beq_iff_eq, beq_iff_eq, naturalOrder_eq_iff]
  constructor
  · intro h hrespelled
    exact hrespelled.written (h.mpr (Or.inr hrespelled))
  · intro h
    exact ⟨Or.inl, fun hor => hor.resolve_right h⟩

/-- Among several names only those matter that are not there in their own spelling. -/
theorem any_folded_beq_eq_iff {names : List Text} :
    (names.any (folded a == folded ·)) = (names.any (naturalOrder a · == .eq)) ↔
      ((∃ b ∈ names, Respelled a b) → ∃ b ∈ names, folded a = folded b) := by
  rw [Bool.eq_iff_iff, List.any_eq_true, List.any_eq_true]
  simp only [beq_iff_eq, naturalOrder_eq_iff]
  constructor
  · rintro h ⟨b, hb, hrespelled⟩
    exact h.mpr ⟨b, hb, Or.inr hrespelled⟩
  · intro h
    constructor
    · rintro ⟨b, hb, hsame⟩
      exact ⟨b, hb, Or.inl hsame⟩
    · rintro ⟨b, hb, hsame | hrespelled⟩
      · exact ⟨b, hb, hsame⟩
      · exact h ⟨b, hb, hrespelled⟩

/-- Sprints are equal when natural order makes them so. -/
theorem equal?_sprint (name : Text) (value : Literal) (now : Instant) :
    equal? .sprint (.text name) value now = some (naturalOrder name value.text == .eq) :=
  rfl

namespace Sql

variable {db : Database} {t : Ticket} {name : Text}

/-! ### The condition of a search for sprints -/

/-- The cell of a sprint without blanks around it, which is one that the database can read. -/
theorem sprint_cell (hsprint : t.sprint = some name) (htrim : Text.trim name = name)
    (hname : name ≠ []) :
    t.row .sprint = .text name ∧ (t.row .sprint).IsTidy ∧ (t.row .sprint).isEmpty = false := by
  have hcell : t.row .sprint = .text name := by
    show Ticket.textCell t.sprint = _
    rw [hsprint]
    rfl
  rw [hcell]
  refine ⟨rfl, htrim, ?_⟩
  show (Text.trim name).isEmpty = false
  rw [htrim, List.isEmpty_eq_false_iff]
  exact hname

theorem eval_compareSprint (now : Instant) (hsprint : t.sprint = some name)
    (htrim : Text.trim name = name) (hname : name ≠ []) {op : Comparison}
    (hop : ¬op.isOrdering = true) (value : Literal) :
    (Query.compare .sprint op value).eval t.row now =
      ((naturalOrder name value.text == .eq) != (op == .notEq)) := by
  obtain ⟨hcell, _, hne⟩ := sprint_cell hsprint htrim hname
  rw [hcell] at hne
  rw [Query.eval_compare_sprint hcell hne]
  rcases Comparison.eq_or_notEq hop with rfl | rfl
  · exact (Bool.xor_false _).symm
  · exact (Bool.xor_true _).symm

theorem eval_memberSprint (now : Instant) (hsprint : t.sprint = some name)
    (htrim : Text.trim name = name) (hname : name ≠ []) (negated : Bool) (values : List Literal) :
    (Query.member .sprint negated values).eval t.row now =
      (((values.map Literal.text).any (naturalOrder name · == .eq)) != negated) := by
  obtain ⟨hcell, _, hne⟩ := sprint_cell hsprint htrim hname
  show ((!(t.row .sprint).isEmpty &&
    values.any fun value => equal? .sprint (t.row .sprint) value now == some true) != negated) = _
  rw [hne, Bool.not_false, Bool.true_and, List.any_map, hcell]
  refine congrArg (· != negated) (any_congr_mem fun value _ => ?_)
  rw [equal?_sprint, some_beq_true]
  rfl

theorem truth_compareSprint (hdb : db.IsFaithful) (now : Instant) (hsprint : t.sprint = some name)
    (htrim : Text.trim name = name) (hname : name ≠ []) {op : Comparison}
    (hop : ¬op.isOrdering = true) (value : Literal) :
    ∃ c, compile now (.compare .sprint op value) = .ok c ∧
      db.truth t.row c = some ((folded name == folded value.text) != (op == .notEq)) := by
  obtain ⟨hcell, htidy, hne⟩ := sprint_cell hsprint htrim hname
  have hleaf : db.truth t.row (compareLowered .sprint op value) =
      some ((folded name == folded value.text) != (op == .notEq)) := by
    show db.compare (db.operand t.row (.lowered .sprint)) op (.text (folded value.text)) = _
    rw [operand_lowered hdb hcell htrim]
    rcases Comparison.eq_or_notEq hop with rfl | rfl
    · rw [Database.compare_text_eq]
      exact congrArg some (Bool.xor_false _).symm
    · rw [Database.compare_text_notEq]
      exact congrArg some (Bool.xor_true _).symm
  refine ⟨.and (present .sprint) (compareLowered .sprint op value), ?_, ?_⟩
  · rcases Comparison.eq_or_notEq hop with rfl | rfl <;> rfl
  · rw [truth_guarded hdb (t.row_fits .sprint) htidy fun _ => hleaf, hne]
    rfl

theorem truth_memberSprint (hdb : db.IsFaithful) (now : Instant) (hsprint : t.sprint = some name)
    (htrim : Text.trim name = name) (hname : name ≠ []) (negated : Bool) (values : List Literal) :
    ∃ c, compile now (.member .sprint negated values) = .ok c ∧
      db.truth t.row c =
        some (((values.map Literal.text).any (folded name == folded ·)) != negated) := by
  obtain ⟨hcell, htidy, hne⟩ := sprint_cell hsprint htrim hname
  have hleaf :
      db.truth t.row (.oneOf (.lowered .sprint) (values.map fun v => .text (loweredText v))) =
      some ((values.map Literal.text).any (folded name == folded ·)) := by
    show db.isOneOf (db.operand t.row (.lowered .sprint)) _ = _
    rw [operand_lowered hdb hcell htrim, List.any_map]
    refine db.isOneOf_eq (List.forall₂_map_right_iff.mpr (List.forall₂_same.mpr ?_))
    intro v _
    exact db.compare_text_eq (folded name) (folded v.text)
  have hhit := truth_guarded hdb (t.row_fits .sprint) htidy fun _ => hleaf
  rw [hne, Bool.not_false, Bool.true_and] at hhit
  cases negated with
  | false =>
      refine ⟨_, rfl, hhit.trans ?_⟩
      exact congrArg some (Bool.xor_false _).symm
  | true =>
      refine ⟨_, rfl, (congrArg Truth.not hhit).trans ?_⟩
      exact congrArg some (Bool.xor_true _).symm

/--
**The database and the evaluation find the same sprints up to respelling.**  Let a ticket
have a sprint, without blanks around its name.  A search for another compiles, and its
condition is true or false on the ticket.  For `=` and `!=` this is what the search evaluates
to exactly when the sprint of the ticket is not the one sought in another spelling; for `IN`
and `NOT IN` exactly when, if it is one of those sought in another spelling, it is also one of
them in its own.
-/
theorem compile_sprint (db : Database) (hdb : db.IsFaithful) (now : Instant) (t : Ticket)
    (name : Text) (hsprint : t.sprint = some name) (htrim : Text.trim name = name)
    (hname : name ≠ []) :
    (∀ (op : Comparison) (value : Literal), ¬op.isOrdering = true →
      ∃ c truth, compile now (.compare .sprint op value) = .ok c ∧ db.truth t.row c = some truth ∧
        (truth = (Query.compare .sprint op value).eval t.row now ↔ ¬Respelled name value.text)) ∧
      ∀ (negated : Bool) (values : List Literal),
        ∃ c truth, compile now (.member .sprint negated values) = .ok c ∧
          db.truth t.row c = some truth ∧
            (truth = (Query.member .sprint negated values).eval t.row now ↔
              ((∃ value ∈ values, Respelled name value.text) →
                ∃ value ∈ values, folded name = folded value.text)) := by
  constructor
  · intro op value hop
    obtain ⟨c, hc, htruth⟩ := truth_compareSprint hdb now hsprint htrim hname hop value
    refine ⟨c, _, hc, htruth, ?_⟩
    rw [eval_compareSprint now hsprint htrim hname hop, Bool.bne_left_inj]
    exact folded_beq_eq_iff
  · intro negated values
    obtain ⟨c, hc, htruth⟩ := truth_memberSprint hdb now hsprint htrim hname negated values
    refine ⟨c, _, hc, htruth, ?_⟩
    rw [eval_memberSprint now hsprint htrim hname, Bool.bne_left_inj, any_folded_beq_eq_iff]
    simp only [List.mem_map, exists_exists_and_eq_and]

/-- A ticket of `sprint 10` is found as one of `Sprint 9` and `Sprint 10`. -/
theorem compile_sprint_of_case :
    let t : Ticket := { Ticket.blank with sprint := some "sprint 10" }
    let sought : List Literal := [.quoted "Sprint 9", .quoted "Sprint 10"]
    ∃ c, compile Instant.earliest (.member .sprint false sought) = .ok c ∧
      Database.plain.truth t.row c =
        some ((Query.member .sprint false sought).eval t.row Instant.earliest) := by
  intro t sought
  obtain ⟨c, truth, hc, htruth, hagree⟩ :=
    (compile_sprint Database.plain Database.plain_isFaithful Instant.earliest t "sprint 10" rfl
      (by decide +kernel) (by decide)).2 false sought
  have hsought : ∃ value ∈ sought, folded "sprint 10" = folded value.text :=
    ⟨.quoted "Sprint 10", by decide, by decide +kernel⟩
  exact ⟨c, hc, htruth.trans (congrArg some (hagree.mpr fun _ => hsought))⟩

/-- On a ticket of `Sprint 010` the evaluation finds `Sprint 10` in all four ways, and
the database in none. -/
theorem compile_sprint_of_zero :
    let t : Ticket := { Ticket.blank with sprint := some "Sprint 010" }
    let sought : Literal := .quoted "Sprint 10"
    (∃ c, compile Instant.earliest (.compare .sprint .eq sought) = .ok c ∧
      Database.plain.truth t.row c = some false ∧
      (Query.compare .sprint .eq sought).eval t.row Instant.earliest = true) ∧
    (∃ c, compile Instant.earliest (.compare .sprint .notEq sought) = .ok c ∧
      Database.plain.truth t.row c = some true ∧
      (Query.compare .sprint .notEq sought).eval t.row Instant.earliest = false) ∧
    (∃ c, compile Instant.earliest (.member .sprint false [sought]) = .ok c ∧
      Database.plain.truth t.row c = some false ∧
      (Query.member .sprint false [sought]).eval t.row Instant.earliest = true) ∧
    ∃ c, compile Instant.earliest (.member .sprint true [sought]) = .ok c ∧
      Database.plain.truth t.row c = some true ∧
      (Query.member .sprint true [sought]).eval t.row Instant.earliest = false := by
  refine ⟨⟨_, rfl, ?_, ?_⟩, ⟨_, rfl, ?_, ?_⟩, ⟨_, rfl, ?_, ?_⟩, ⟨_, rfl, ?_, ?_⟩⟩ <;> decide +kernel

end Sql

end TicketSearch
