/-
Which queries cannot be said in SQL, and why.

Three things stand in the way: an order of sprints, a literal that is no number where one is needed,
and one that names neither a day nor an instant where one is needed (`Refused`).  Each of them is a
flaw of one predicate.  A query is refused for the first flawed predicate from the left, whatever
connectives stand around it, and a list for its first flawed value: both are the first of a list for
which something is known (`IsFirst`), and so is the error of a traversal.

To the evaluation a flawed literal is a literal that nothing compares with.
-/
import TicketSearch.Proofs.Mismatch

namespace TicketSearch

/-! ### Flaws -/

/-- A literal that is no number in a field of numbers, and neither a day nor an
instant in one of dates. -/
def Literal.IsInvalidFor (f : Field) (now : Instant) (v : Literal) : Prop :=
  f.kind = .numeric ∧ v.number? = none ∨ f.kind = .date ∧ v.day? = none ∧ v.instant? now = none

/-- Nothing compares with an invalid literal. -/
theorem Literal.IsInvalidFor.holds_eq_false {f : Field} {now : Instant} {v : Literal}
    (h : v.IsInvalidFor f now) (op : Comparison) (c : Cell) : holds f op c v now = false := by
  have hequal : equal? f c v now = none := by
    rcases h with ⟨hkind, hnumber⟩ | ⟨hkind, hday, hinstant⟩
    · cases c <;> simp [equal?, hkind, hnumber]
    · cases c <;> simp [equal?, hkind, Literal.meantDay?, hday, hinstant]
  have horder : order? f c v now = none := by
    rcases h with ⟨hkind, hnumber⟩ | ⟨hkind, hday, hinstant⟩
    · cases c <;> simp [order?, hkind, hnumber]
    · cases c <;> simp [order?, hkind, hday, hinstant]
  unfold holds
  cases op <;> simp [hequal, horder]

namespace Sql

/-- The flaws of a predicate, by the error that reports them. -/
inductive Refused (now : Instant) : Query → CompileError → Prop
  /-- Sprints have no order in SQL. -/
  | order {op : Comparison} (value : Literal) (hop : op.isOrdering = true) :
    Refused now (.compare .sprint op value) (.unsupported .sprint (.compare op))
  | value {f : Field} (op : Comparison) {value : Literal} (h : value.IsInvalidFor f now) :
    Refused now (.compare f op value) (.invalidValue f value)
  /-- A list is reported for its first invalid value. -/
  | values {f : Field} (negated : Bool) {before : List Literal} {value : Literal}
      (after : List Literal)
    (hbefore : ∀ v ∈ before, ¬v.IsInvalidFor f now) (h : value.IsInvalidFor f now) :
    Refused now (.member f negated (before ++ value :: after)) (.invalidValue f value)

variable {f : Field} {now : Instant} {e : CompileError}

/-! ### Comparisons -/

theorem numberOf_eq_error_iff {v : Literal} :
    numberOf f v = .error e ↔ v.number? = none ∧ .invalidValue f v = e := by
  unfold numberOf
  cases v.number? <;> simp

theorem instantOf_eq_error_iff {v : Literal} :
    instantOf f v now = .error e ↔ v.instant? now = none ∧ .invalidValue f v = e := by
  unfold instantOf
  cases v.instant? now <;> simp

theorem compareDate_eq_error_iff {op : Comparison} {v : Literal} :
    compareDate f op v now = .error e ↔
      (v.day? = none ∧ v.instant? now = none) ∧ .invalidValue f v = e := by
  unfold compareDate
  cases v.day? with
  | some day => simp
  | none =>
      simp only [true_and]
      rw [bind_pure_eq_error_iff, instantOf_eq_error_iff]

/-- Only sprints cannot be ordered in SQL. -/
theorem compareRank_eq_error_iff (hkind : f.kind = .ordinal) {op : Comparison} {v : Literal} :
    compareRank f op v = .error e ↔ f = .sprint ∧ .unsupported .sprint (.compare op) = e := by
  unfold compareRank
  by_cases hf : f = .sprint
  · subst hf
    show Except.error _ = Except.error e ↔ _
    simp
  · simp [source_of_ordinal hkind hf, hf]

theorem compileCompare_eq_error_iff {op : Comparison} {v : Literal} :
    compileCompare f op v now = .error e ↔
      (f = .sprint ∧ op.isOrdering = true ∧ .unsupported .sprint (.compare op) = e) ∨
        v.IsInvalidFor f now ∧ .invalidValue f v = e := by
  have hsprint : f.kind ≠ .ordinal → f ≠ .sprint := by
    rintro hkind rfl
    exact hkind rfl
  unfold compileCompare Literal.IsInvalidFor
  cases hkind : f.kind with
  | enum | text | list =>
      have hne : f ≠ .sprint := hsprint (by simp [hkind])
      simp [hne]
  | ordinal =>
      by_cases hop : op.isOrdering = true
      · simp [hop, compareRank_eq_error_iff hkind]
      · simp [hop]
  | numeric =>
      have hne : f ≠ .sprint := hsprint (by simp [hkind])
      simp [hne, map_eq_error_iff, numberOf_eq_error_iff]
  | date =>
      have hne : f ≠ .sprint := hsprint (by simp [hkind])
      simp [hne, compareDate_eq_error_iff]

/-- A list of values is refused for the first invalid one. -/
theorem compileMember_eq_error_iff {values : List Literal} :
    compileMember f values now = .error e ↔
      IsFirst (fun (v : Literal) e => v.IsInvalidFor f now ∧ .invalidValue f v = e) values e := by
  unfold compileMember Literal.IsInvalidFor
  cases hkind : f.kind with
  | enum | text | ordinal | list => simp [IsFirst]
  | numeric =>
      simp only
      rw [bind_pure_eq_error_iff, mapM_eq_error_iff]
      simp [numberOf_eq_error_iff]
  | date => simp [map_eq_error_iff, mapM_eq_error_iff, compileDay_eq, compareDate_eq_error_iff]

/-! ### Predicates and queries -/

theorem compile_compare_eq_error_iff {op : Comparison} {v : Literal} :
    compile now (.compare f op v) = .error e ↔ Refused now (.compare f op v) e := by
  rw [compile, bind_pure_eq_error_iff, compileCompare_eq_error_iff]
  constructor
  · rintro (⟨rfl, hop, rfl⟩ | ⟨h, rfl⟩)
    · exact .order v hop
    · exact .value op h
  · rintro (⟨_, hop⟩ | ⟨_, h⟩)
    · exact Or.inl ⟨rfl, hop, rfl⟩
    · exact Or.inr ⟨h, rfl⟩

theorem compile_member_eq_error_iff {negated : Bool} {values : List Literal} :
    compile now (.member f negated values) = .error e ↔
      Refused now (.member f negated values) e := by
  rw [compile, bind_pure_eq_error_iff, compileMember_eq_error_iff]
  constructor
  · rintro ⟨before, v, after, rfl, hbefore, hv, rfl⟩
    exact .values negated after (fun w hw h => hbefore w hw _ ⟨h, rfl⟩) hv
  · intro h
    cases h with
    | values _ after hbefore hv =>
        exact ⟨_, _, after, rfl, fun w hw _ h => hbefore w hw h.1, hv, rfl⟩

/-- A query is refused for the first of its predicates that has a flaw. -/
theorem compile_eq_error_iff (q : Query) (e : CompileError) :
    compile now q = .error e ↔ IsFirst (Refused now) q.leaves e := by
  induction q generalizing e with
  | all => simp [compile, Query.leaves, not_isFirst_nil]
  | compare f op v => exact compile_compare_eq_error_iff.trans isFirst_singleton.symm
  | member f negated values => exact compile_member_eq_error_iff.trans isFirst_singleton.symm
  | empty f negated =>
      refine iff_of_false (by simp [compile]) fun h => ?_
      have hflaw : Refused now (.empty f negated) e := isFirst_singleton.mp h
      cases hflaw
  | and left right ihl ihr | or left right ihl ihr =>
      rw [compile, bind_bind_eq_error_iff, Query.leaves, isFirst_append, ihr]
      simp only [ihl]
  | not inner ih =>
      rw [compile, bind_pure_eq_error_iff]
      exact ih e

/--
**A query is refused exactly for its first flaw from the left.**  There is no statement for it
when one of its predicates has a flaw, and the error is that of the first such predicate: that an
order of sprints cannot be said, or the first literal of the predicate that does not denote what
its field holds.  A comparison with such a literal holds on no row.
-/
theorem statement_error_iff (table : Text) (now : Instant) (q : Query) :
    ((∃ e, statement table now q = .error e) ↔ ∃ leaf ∈ q.leaves, ∃ e, Refused now leaf e) ∧
      (∀ e, statement table now q = .error e ↔ IsFirst (Refused now) q.leaves e) ∧
      ∀ f op (value : Literal), value.IsInvalidFor f now →
        ∀ row, (Query.compare f op value).eval row now = false := by
  have hfirst : ∀ e, statement table now q = .error e ↔ IsFirst (Refused now) q.leaves e := by
    intro e
    unfold statement
    rw [map_eq_error_iff]
    exact compile_eq_error_iff q e
  refine ⟨?_, hfirst, ?_⟩
  · rw [← exists_isFirst]
    exact exists_congr hfirst
  · intro f op value hinvalid row
    exact hinvalid.holds_eq_false op (row f)

/-- The case of `NOT (sprint = s1 AND storyPoints IN ("3", many, few)) OR sprint > s1`. -/
theorem statement_error_iff_of_list :
    statement "tickets" .earliest
        (.or (.not (.and (.compare .sprint .eq (.word "s1"))
            (.member .storyPoints false [.quoted "3", .word "many", .word "few"])))
          (.compare .sprint .gt (.word "s1"))) =
      .error (.invalidValue .storyPoints (.word "many")) := by
  obtain ⟨_, herror, _⟩ := statement_error_iff "tickets" .earliest
    (.or (.not (.and (.compare .sprint .eq (.word "s1"))
        (.member .storyPoints false [.quoted "3", .word "many", .word "few"])))
      (.compare .sprint .gt (.word "s1")))
  refine (herror _).mpr ⟨[.compare .sprint .eq (.word "s1")], _, _, rfl, ?_, ?_⟩
  · -- an equality of sprints has no flaw
    intro leaf hleaf e hflaw
    rw [List.mem_singleton.mp hleaf] at hflaw
    cases hflaw with
    | order _ hop => cases hop
    | value _ h => simp [Literal.IsInvalidFor, Field.kind] at h
  · show Refused _ (.member .storyPoints false ([.quoted "3"] ++ .word "many" :: [.word "few"])) _
    refine .values false [.word "few"] ?_ ?_
    · intro v hv
      rw [List.mem_singleton.mp hv]
      unfold Literal.IsInvalidFor
      decide +kernel
    · unfold Literal.IsInvalidFor
      decide +kernel

end Sql

end TicketSearch
