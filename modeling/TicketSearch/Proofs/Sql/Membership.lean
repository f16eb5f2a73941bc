/-
A search for several values is a search for the first or the second and so on.

To the evaluation this is what `IN` means, once it is seen that the presence of the field may be
asked for once or once for every value.  In the database it takes more.  The condition of `IN` is
made in other ways than those of the equalities, one for every kind of field, and it may fail to be
made.  So what is compared are outcomes: the error, or the truth value that the condition has on a
row.  The outcome of `IN` is that of the equalities, taken one after the other and joined by `OR`
(`outcome_compileMember`, `outcome_equalsAny`), on every row and in every database.

Where the cell of the field has the type of its column, that truth value is never unknown.
-/
import TicketSearch.Proofs.Sql.Agreement

namespace TicketSearch

namespace Query

/-- The query `field = first OR field = second OR ...`. -/
def equalsAny (f : Field) (first : Literal) (rest : List Literal) : Query :=
  rest.foldl (fun q v => .or q (.compare f .eq v)) (.compare f .eq first)

theorem eval_foldl_or (f : Field) (row : Row) (now : Instant) (vs : List Literal) (q : Query) :
    (vs.foldl (fun q v => .or q (.compare f .eq v)) q).eval row now =
      (q.eval row now || vs.any fun v => holds f .eq (row f) v now) := by
  induction vs generalizing q with
  | nil => simp
  | cons v vs ih => simp [ih, eval, Bool.or_assoc]

/-- A row is found by one of several values when its field is not empty and equals one of them. -/
theorem eval_equalsAny (f : Field) (row : Row) (now : Instant) (v : Literal) (vs : List Literal) :
    (equalsAny f v vs).eval row now =
      (!(row f).isEmpty && (v :: vs).any fun v => equal? f (row f) v now == some true) := by
  unfold equalsAny
  rw [eval_foldl_or]
  by_cases hempty : (row f).isEmpty = true
  · simp [eval, holds, hempty]
  · simp [eval, holds, hempty]

end Query

namespace Sql

/-- What is known of all operands is known of them joined. -/
theorem Truth.exists_any {ts : List Truth} (h : ∀ t ∈ ts, ∃ b, t = some b) :
    ∃ b, any ts = some b := by
  induction ts with
  | nil => exact ⟨false, rfl⟩
  | cons t ts ih =>
      obtain ⟨a, ha⟩ := h t List.mem_cons_self
      obtain ⟨b, hb⟩ := ih fun t' ht' => h t' (List.mem_cons_of_mem _ ht')
      refine ⟨a || b, ?_⟩
      rw [any_cons, ha, hb, or_some]

theorem Truth.any_map_some {α : Type} (hits : α → Bool) (xs : List α) :
    any (xs.map fun x => some (hits x)) = some (xs.any hits) := by
  refine any_eq (List.forall₂_map_right_iff.mpr (List.forall₂_same.mpr ?_))
  intro x _
  rfl

variable (db : Database) (row : Row) (f : Field) (now : Instant)

/-! ### Outcomes -/

/-- The truth value of a condition that may not have been made. -/
def outcome (c : Except CompileError Condition) : Except CompileError Truth :=
  c.map (db.truth row)

/-- A search among labels is one for each of the texts. -/
theorem truth_hasItem_eq_any {values : List Literal} (hvalues : values ≠ []) :
    db.truth row (.hasItem f (values.map loweredText)) =
      Truth.any (values.map fun v => db.truth row (.hasItem f [loweredText v])) := by
  have hne : values.map loweredText ≠ [] := by simpa using hvalues
  cases hcell : row f with
  | list items =>
      simp only [Database.truth, hcell, if_neg hne, if_neg (List.cons_ne_nil _ _),
        Truth.any_map_some, Database.isOneOf_text, some_beq_true, List.any_map]
      rw [any_comm]
      simp
  | missing | text t | number x | date i =>
      simp only [Database.truth, hcell, Truth.any_map_some]
      simp

/-- The outcome of a list is that of the equalities with its values, from the first on. -/
theorem outcome_compileMember {values : List Literal} (hvalues : values ≠ []) :
    outcome db row (compileMember f values now) =
      (values.mapM fun v => outcome db row (compileCompare f .eq v now)).map Truth.any := by
  -- on texts and labels nothing can fail
  have hmade : ∀ leaf : Literal → Condition,
      (values.mapM fun v => outcome db row (.ok (leaf v))) =
        .ok (values.map fun v => db.truth row (leaf v)) := by
    intro leaf
    exact List.mapM_pure
  have hlowered : db.truth row (.oneOf (.lowered f) (values.map fun v => .text (loweredText v))) =
      Truth.any (values.map fun v => db.truth row (compareLowered f .eq v)) := by
    show db.isOneOf (db.operand row (.lowered f)) _ = _
    rw [Database.isOneOf_eq_any, List.map_map]
    rfl
  have heq : Comparison.eq.isOrdering = false := rfl
  unfold compileMember compileCompare
  cases hkind : f.kind with
  | enum | text | ordinal =>
      simp only [heq, Bool.false_eq_true, if_false, hmade]
      exact congrArg Except.ok hlowered
  | list =>
      simp only [heq, Bool.false_eq_true, if_false, reduceCtorEq, hmade]
      exact congrArg Except.ok (truth_hasItem_eq_any db row f hvalues)
  | numeric =>
      simp only [outcome, map_map, mapM_map]
      cases values.mapM (numberOf f) with
      | error e => rfl
      | ok numbers =>
        refine congrArg Except.ok ?_
        show db.isOneOf (valueOfCell (row f)) (numbers.map .number) = _
        rw [Database.isOneOf_eq_any, List.map_map]
        rfl
  | date =>
      simp only [outcome, map_map, mapM_map, compileDay_eq]
      cases values.mapM fun v => compareDate f .eq v now with
      | error e => rfl
      | ok conditions => exact congrArg Except.ok (truth_anyOf_eq_any conditions)

/-! ### From leaves to queries -/

theorem outcome_compare (v : Literal) :
    outcome db row (compile now (.compare f .eq v)) =
      (outcome db row (compileCompare f .eq v now)).map (Truth.and (db.truth row (present f))) := by
  simp only [compile]
  cases compileCompare f .eq v now <;> rfl

theorem outcome_member (negated : Bool) (values : List Literal) :
    outcome db row (compile now (.member f negated values)) =
      (outcome db row (compileMember f values now)).map fun t =>
        if negated then Truth.not (Truth.and (db.truth row (present f)) t)
        else Truth.and (db.truth row (present f)) t := by
  simp only [compile]
  cases compileMember f values now with
  | error e => rfl
  | ok leaf => cases negated <;> rfl

theorem outcome_or (p q : Query) :
    outcome db row (compile now (.or p q)) = do
      let a ← outcome db row (compile now p)
      let b ← outcome db row (compile now q)
      return Truth.or a b := by
  simp only [compile]
  cases compile now p with
  | error e => rfl
  | ok c => cases compile now q <;> rfl

theorem outcome_foldl_or (vs : List Literal) (q : Query) :
    outcome db row (compile now (vs.foldl (fun q v => .or q (.compare f .eq v)) q)) = do
      let t ← outcome db row (compile now q)
      let ts ← vs.mapM fun v => outcome db row (compile now (.compare f .eq v))
      return Truth.or t (Truth.any ts) := by
  induction vs generalizing q with
  | nil => simp [Truth.any, Truth.or_false]
  | cons v vs ih =>
      rw [List.foldl_cons, ih, outcome_or]
      simp only [List.mapM_cons, bind_assoc, pure_bind]
      refine bind_congr fun a => bind_congr fun b => bind_congr fun ts => ?_
      exact congrArg pure (Truth.or_assoc a b (Truth.any ts))

/-- The outcome of the equalities joined by `OR` is theirs, from the first on. -/
theorem outcome_equalsAny (v : Literal) (vs : List Literal) :
    outcome db row (compile now (.equalsAny f v vs)) =
      ((v :: vs).mapM fun v => outcome db row (compile now (.compare f .eq v))).map Truth.any := by
  unfold Query.equalsAny
  rw [outcome_foldl_or, List.mapM_cons]
  cases outcome db row (compile now (.compare f .eq v)) with
  | error e => rfl
  | ok t => cases vs.mapM fun v => outcome db row (compile now (.compare f .eq v)) <;> rfl

/-- `IN` has the outcome of the equalities joined by `OR`. -/
theorem outcome_member_eq (v : Literal) (vs : List Literal) :
    outcome db row (compile now (.member f false (v :: vs))) =
      outcome db row (compile now (.equalsAny f v vs)) := by
  rw [outcome_equalsAny, outcome_member, outcome_compileMember db row f now (List.cons_ne_nil v vs)]
  simp only [outcome_compare, mapM_map, map_map]
  cases (v :: vs).mapM fun v => outcome db row (compileCompare f .eq v now) with
  | error e => rfl
  | ok ts => exact congrArg Except.ok (Truth.and_any _ ts)

/-- `NOT IN` has the outcome of `IN`, negated. -/
theorem outcome_member_not (values : List Literal) :
    outcome db row (compile now (.member f true values)) =
      (outcome db row (compile now (.member f false values))).map Truth.not := by
  rw [outcome_member, outcome_member, map_map]
  rfl

/-! ### Nothing is unknown -/

variable {row f now}

/-- On a cell of the type of its column the guard is known, and on a missing one it is false. -/
theorem exists_truth_present (hfits : (row f).Fits f.kind) :
    ∃ b, db.truth row (present f) = some b ∧ (b = true → row f ≠ .missing) := by
  show ∃ b, Truth.not (db.truth row (absent f)) = some b ∧ _
  unfold absent
  cases hcell : row f with
  | missing =>
      refine ⟨false, ?_, by simp⟩
      cases f.kind <;> simp [Database.truth, hcell]
  | text s =>
      rw [hcell] at hfits
      rcases hfits with hkind | hkind | hkind <;> simp [hkind, Database.truth, hcell]
  | number x | date i | list items =>
      rw [hcell] at hfits
      have hkind : f.kind = _ := hfits
      simp [hkind, Database.truth, hcell]

/-- On any other cell of that type the equality behind the guard is known. -/
theorem exists_truth_equal (hfits : (row f).Fits f.kind) (hcell : row f ≠ .missing) {v : Literal}
    {leaf : Condition} (h : compileCompare f .eq v now = .ok leaf) :
    ∃ b, db.truth row leaf = some b := by
  have heq : Comparison.eq.isOrdering = false := rfl
  unfold compileCompare at h
  cases hrow : row f with
  | missing => exact absurd hrow hcell
  | text s =>
      rw [hrow] at hfits
      have hleaf : leaf = compareLowered f .eq v := by
        rcases hfits with hkind | hkind | hkind <;> (simp [hkind, heq] at h; exact h.symm)
      simp [hleaf, compareLowered, Database.truth, Database.operand, hrow]
  | number x =>
      have hkind : f.kind = .numeric := by rwa [hrow] at hfits
      rw [hkind] at h
      obtain ⟨y, _, rfl⟩ := exists_of_map_eq_ok h
      simp [Database.truth, Database.operand, hrow, valueOfCell, Database.compare, Database.order?]
  | date i =>
      have hkind : f.kind = .date := by rwa [hrow] at hfits
      rw [hkind] at h
      have hday : compileDay f now v = .ok leaf := by rwa [compileDay_eq]
      obtain ⟨instant, _, hleaf⟩ := exists_of_bind_eq_ok hday
      cases hleaf
      simp [sameDay, Database.truth, truth_compareInstant hrow]
  | list items =>
      have hkind : f.kind = .list := by rwa [hrow] at hfits
      simp [hkind, heq] at h
      simp [← h, Database.truth, hrow]

/-- So no equality is unknown. -/
theorem exists_truth_compare (hfits : (row f).Fits f.kind) {v : Literal} {c : Condition}
    (hc : compile now (.compare f .eq v) = .ok c) : ∃ b, db.truth row c = some b := by
  obtain ⟨leaf, hleaf, hguarded⟩ := exists_of_bind_eq_ok hc
  cases hguarded
  obtain ⟨guard, hguard, hcell⟩ := exists_truth_present db hfits
  show ∃ b, Truth.and (db.truth row (present f)) (db.truth row leaf) = some b
  rw [hguard]
  by_cases hpresent : guard = true
  · obtain ⟨b, hb⟩ := exists_truth_equal db hfits (hcell hpresent) hleaf
    rw [hb, Truth.and_some]
    exact ⟨_, rfl⟩
  · rw [eq_false_of_ne_true hpresent]
    exact ⟨false, rfl⟩

theorem exists_truth_equalsAny (hfits : (row f).Fits f.kind) {v : Literal} {vs : List Literal}
    {c : Condition} (hc : compile now (.equalsAny f v vs) = .ok c) :
    ∃ b, db.truth row c = some b := by
  have houtcome := outcome_equalsAny db row f now v vs
  rw [hc] at houtcome
  obtain ⟨ts, hts, hany⟩ := exists_of_map_eq_ok houtcome.symm
  show ∃ b, db.truth row c = some b
  rw [← hany]
  refine Truth.exists_any fun t ht => ?_
  obtain ⟨w, _, hw⟩ := exists_of_mem_mapM hts ht
  obtain ⟨d, hd, htruth⟩ := exists_of_map_eq_ok hw
  obtain ⟨b, hb⟩ := exists_truth_compare db hfits hd
  exact ⟨b, htruth.symm.trans hb⟩

/--
**A search for several values is a search for the first or the second and so on.**  On every row, at
every moment, `IN` is true where one of the equalities is, and `NOT IN` where none is.  In SQL they
fail to compile when the equalities joined by `OR` do, with the same error.  Otherwise, on every row
of every database, the condition of `IN` has the truth value of theirs, and that of `NOT IN` the
negated one; where the cell has the type of its column, none of them is unknown.
-/
theorem member_eq_equalsAny (now : Instant) (f : Field) (v : Literal) (vs : List Literal) :
    (∀ row, (Query.member f false (v :: vs)).eval row now = (Query.equalsAny f v vs).eval row now ∧
      (Query.member f true (v :: vs)).eval row now = !(Query.equalsAny f v vs).eval row now) ∧
    (∀ negated e, compile now (.member f negated (v :: vs)) = .error e ↔
      compile now (.equalsAny f v vs) = .error e) ∧
    ∀ negated c d, compile now (.member f negated (v :: vs)) = .ok c →
      compile now (.equalsAny f v vs) = .ok d → ∀ (db : Database) (row : Row),
        db.truth row c = (if negated then Truth.not (db.truth row d) else db.truth row d) ∧
          ((row f).Fits f.kind → db.truth row c ≠ none ∧ db.truth row d ≠ none) := by
  have houtcome : ∀ (negated : Bool) (db : Database) (row : Row),
      outcome db row (compile now (.member f negated (v :: vs))) =
        (outcome db row (compile now (.equalsAny f v vs))).map fun t =>
          if negated then Truth.not t else t := by
    intro negated db row
    have hin := outcome_member_eq db row f now v vs
    cases negated with
    | false =>
        rw [hin]
        cases outcome db row (compile now (.equalsAny f v vs)) <;> rfl
    | true =>
        rw [outcome_member_not, hin]
        rfl
  refine ⟨fun row => ?_, fun negated e => ?_, fun negated c d hc hd db row => ?_⟩
  · rw [Query.eval_equalsAny]
    exact ⟨Bool.xor_false _, Bool.xor_true _⟩
  · -- the error of an outcome is there on any row of any database
    have h := houtcome negated .plain Ticket.blank.row
    rw [← map_eq_error_iff (f := Database.plain.truth Ticket.blank.row), ← outcome, h,
      map_eq_error_iff, outcome, map_eq_error_iff]
  · have h := houtcome negated db row
    rw [hc, hd] at h
    have htruth : db.truth row c = if negated then Truth.not (db.truth row d) else db.truth row d :=
      Except.ok.inj h
    refine ⟨htruth, fun hfits => ?_⟩
    obtain ⟨b, hb⟩ := exists_truth_equalsAny db hfits hd
    rw [htruth, hb]
    cases negated <;> simp

/--
The search for a due date that is none of two is true of a ticket without one, and `IN` stumbles
over the same value as the equalities.
-/
theorem member_eq_equalsAny_of_due_dates :
    (∃ c,
      compile .earliest (.member .dueDate true [.quoted "2024-05-10", .word "2024-05-11"]) = .ok c ∧
      Database.plain.truth Ticket.blank.row c = some true) ∧
    compile .earliest (.member .dueDate true [.quoted "2024-05-10", .word "soon", .word "later"]) =
      .error (.invalidValue .dueDate (.word "soon")) := by
  constructor
  · obtain ⟨_, _, hok⟩ :=
      member_eq_equalsAny .earliest .dueDate (.quoted "2024-05-10") [.word "2024-05-11"]
    refine ⟨_, rfl, ?_⟩
    rw [(hok true _ _ rfl rfl Database.plain Ticket.blank.row).1]
    decide +kernel
  · obtain ⟨_, herror, _⟩ :=
      member_eq_equalsAny .earliest .dueDate (.quoted "2024-05-10") [.word "soon", .word "later"]
    rw [herror]
    decide +kernel

end Sql

end TicketSearch
