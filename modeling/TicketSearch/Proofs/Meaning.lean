/-
Literals that nothing tells apart.

Of a literal, fields use its text up to blanks at the ends and to case, and the number, the
day and the instant that it denotes.  Two literals that agree in these are alike
(`Literal.Alike`), whatever tokens they were written as.  Queries of one shape with literals
that are alike have the same value on every row, and the same condition in SQL if they have
one: by one induction each, over lemmas for the functions that read literals.
-/
import TicketSearch.Proofs.Order
import TicketSearch.Proofs.Parsing.Likeness
import TicketSearch.Proofs.Sql.Agreement

namespace TicketSearch

/-- Two literals that agree in all that a field may ask of them. -/
structure Literal.Alike (v w : Literal) : Prop where
  /-- The texts are the same in the form in which values are compared. -/
  text : folded v.text = folded w.text
  number : v.number? = w.number?
  day : v.day? = w.day?
  instant : ∀ now, v.instant? now = w.instant? now

theorem Literal.Alike.refl (v : Literal) : v.Alike v :=
  ⟨rfl, rfl, rfl, fun _ => rfl⟩

/-! ### Evaluation -/

/-- An ordinal field orders a value by its folded form. -/
theorem field_order?_congr_right {f : Field} (hkind : f.kind = .ordinal) {t t' : Text}
    (h : folded t = folded t') (s : Text) : f.order? s t = f.order? s t' := by
  by_cases hf : f = .sprint
  · rw [hf]
    exact congrArg some (naturalOrder_congr rfl h)
  · rw [field_order?_eq hkind hf, field_order?_eq hkind hf, rank?_eq priority_isPlainTable t, h,
      ← rank?_eq priority_isPlainTable t']

namespace Literal.Alike

variable {v w : Literal} {now : Instant}

theorem meantDay?_eq (h : v.Alike w) (now : Instant) : v.meantDay? now = w.meantDay? now := by
  unfold meantDay?
  rw [h.day, h.instant]

theorem sameValue_eq (h : v.Alike w) (s : Text) :
    Text.sameValue s v.text = Text.sameValue s w.text := by
  rw [sameValue_eq_folded, sameValue_eq_folded, h.text]

theorem equal?_eq (h : v.Alike w) (f : Field) (c : Cell) (now : Instant) :
    equal? f c v now = equal? f c w now := by
  unfold equal?
  split
  · rw [h.sameValue_eq]
  · rw [h.sameValue_eq]
  · next hkind => rw [field_order?_congr_right hkind h.text, h.sameValue_eq]
  · rw [h.number]
  · rw [h.meantDay?_eq]
  · simp only [h.sameValue_eq]
  · rfl

theorem order?_eq (h : v.Alike w) (f : Field) (c : Cell) (now : Instant) :
    order? f c v now = order? f c w now := by
  unfold order?
  split
  · next hkind => rw [field_order?_congr_right hkind h.text]
  · rw [h.number]
  · rw [h.day, h.instant]
  · rfl

theorem holds_eq (h : v.Alike w) (f : Field) (op : Comparison) (c : Cell) (now : Instant) :
    holds f op c v now = holds f op c w now := by
  unfold holds
  rw [h.equal?_eq, h.order?_eq]

end Literal.Alike

theorem any_equal?_congr {vs ws : List Literal} (h : List.Forall₂ Literal.Alike vs ws) (f : Field)
    (c : Cell) (now : Instant) :
    vs.any (fun v => equal? f c v now == some true) =
      ws.any fun w => equal? f c w now == some true := by
  induction h with
  | nil => rfl
  | cons hv _ ih => rw [List.any_cons, List.any_cons, hv.equal?_eq, ih]

/-- **Queries that are alike select the same rows.** -/
theorem Query.Alike.eval_eq {p q : Query} (h : p.Alike Literal.Alike q) (row : Row)
    (now : Instant) : p.eval row now = q.eval row now := by
  induction h with
  | all | empty f negated => rfl
  | compare f op hvalue => exact hvalue.holds_eq f op (row f) now
  | member f negated hvalues => rw [eval, eval, any_equal?_congr hvalues]
  | and _ _ ihl ihr | or _ _ ihl ihr => rw [eval, eval, ihl, ihr]
  | not _ ih => rw [eval, eval, ih]

/-! ### Conditions -/

namespace Sql

section

variable {v w : Literal} {now : Instant}

theorem loweredText_congr (h : v.Alike w) : loweredText v = loweredText w :=
  h.text

theorem toOption_numberOf (f : Field) (value : Literal) :
    (numberOf f value).toOption = value.number? := by
  unfold numberOf
  split <;> simp_all [Except.toOption]

theorem toOption_instantOf (f : Field) (value : Literal) (now : Instant) :
    (instantOf f value now).toOption = value.instant? now := by
  unfold instantOf
  split <;> simp_all [Except.toOption]

theorem compareRank_congr (h : v.Alike w) {f : Field} (hkind : f.kind = .ordinal)
    (op : Comparison) : compareRank f op v = compareRank f op w := by
  have horder : ∀ s, f.order? s v.text = f.order? s w.text := field_order?_congr_right hkind h.text
  unfold compareRank
  simp only [horder]

theorem toOption_compareDate_congr (h : v.Alike w) (f : Field) (op : Comparison) (now : Instant) :
    (compareDate f op v now).toOption = (compareDate f op w now).toOption := by
  unfold compareDate
  rw [h.day]
  cases w.day? with
  | some day => rfl
  | none => simp only [toOption_bind, toOption_instantOf, h.instant]

theorem toOption_compileCompare_congr (h : v.Alike w) (f : Field) (op : Comparison)
    (now : Instant) :
    (compileCompare f op v now).toOption = (compileCompare f op w now).toOption := by
  have hlowered : compareLowered f op v = compareLowered f op w := by
    unfold compareLowered
    rw [loweredText_congr h]
  unfold compileCompare
  split
  · rw [hlowered]
  · rw [hlowered]
  · rw [loweredText_congr h]
  · next hkind => rw [compareRank_congr h hkind, hlowered]
  · rw [toOption_map, toOption_map, toOption_numberOf, toOption_numberOf, h.number]
  · exact toOption_compareDate_congr h f op now

theorem toOption_compileMember_congr {vs ws : List Literal} (h : List.Forall₂ Literal.Alike vs ws)
    (f : Field) (now : Instant) :
    (compileMember f vs now).toOption = (compileMember f ws now).toOption := by
  have htexts : vs.map loweredText = ws.map loweredText := by
    induction h with
    | nil => rfl
    | cons hv _ ih => rw [List.map_cons, List.map_cons, loweredText_congr hv, ih]
  have hvalues : vs.map (fun v => Value.text (loweredText v)) =
      ws.map fun w => Value.text (loweredText w) := by
    simpa only [List.map_map, Function.comp_def] using congrArg (List.map Value.text) htexts
  have hday : ∀ v w, v.Alike w → (compileDay f now v).toOption = (compileDay f now w).toOption := by
    intro v w hvw
    rw [compileDay_eq]
    exact toOption_compareDate_congr hvw f .eq now
  have hnumber : ∀ v w, v.Alike w → (numberOf f v).toOption = (numberOf f w).toOption := by
    intro v w hvw
    rw [toOption_numberOf, toOption_numberOf, hvw.number]
  unfold compileMember
  split
  · rw [hvalues]
  · rw [hvalues]
  · rw [hvalues]
  · simp only [toOption_bind, toOption_mapM_congr hnumber h]
  · rw [toOption_map, toOption_map, toOption_mapM_congr hday h]
  · rw [htexts]

end

/-- **Queries that are alike have the same condition, or none.** -/
theorem toOption_compile_congr {p q : Query} (h : p.Alike Literal.Alike q) (now : Instant) :
    (compile now p).toOption = (compile now q).toOption := by
  induction h with
  | all | empty f negated => rfl
  | compare f op hvalue =>
      simp only [compile, toOption_bind, toOption_compileCompare_congr hvalue]
  | member f negated hvalues =>
      simp only [compile, toOption_bind, toOption_compileMember_congr hvalues]
  | and _ _ ihl ihr | or _ _ ihl ihr => simp only [compile, toOption_bind, ihl, ihr]
  | not _ ih => simp only [compile, toOption_bind, ih]

theorem toOption_statement_congr {p q : Query} (h : p.Alike Literal.Alike q) (table : Text)
    (now : Instant) : (statement table now p).toOption = (statement table now q).toOption := by
  unfold statement
  rw [toOption_map, toOption_map, toOption_compile_congr h]

end Sql

end TicketSearch
