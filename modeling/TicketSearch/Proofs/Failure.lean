/-
Computations that may fail.

What has a result has had the results of its parts, and what fails does so with the error of a
part: of the first, that is, since nothing is computed after an error.  A traversal of a list so
fails with the error of the first item that has one (`mapM_eq_error_iff`), and what "the first"
means of two lists in a row or of an item and a list is said once, for any relation (`IsFirst`).
-/
import Mathlib.Data.List.Forall2

namespace TicketSearch

/-! ### The first of a list -/

/-- The first item that is in a relation to anything is in it to `b`. -/
def IsFirst {α β : Type} (R : α → β → Prop) (xs : List α) (b : β) : Prop :=
  ∃ before x after, xs = before ++ x :: after ∧ (∀ y ∈ before, ∀ c, ¬R y c) ∧ R x b

section

variable {α β : Type} {R : α → β → Prop} {b : β}

theorem not_isFirst_nil : ¬IsFirst R [] b := by
  rintro ⟨before, x, after, h, -⟩
  simp at h

theorem isFirst_cons {x : α} {xs : List α} :
    IsFirst R (x :: xs) b ↔ R x b ∨ (∀ c, ¬R x c) ∧ IsFirst R xs b := by
  constructor
  · rintro ⟨before, y, after, heq, hbefore, hy⟩
    cases before with
    | nil =>
        obtain ⟨rfl, -⟩ := List.cons.inj heq
        exact Or.inl hy
    | cons z before =>
        obtain ⟨rfl, rfl⟩ := List.cons.inj heq
        refine Or.inr ⟨hbefore x List.mem_cons_self, before, y, after, rfl, ?_, hy⟩
        exact fun w hw => hbefore w (List.mem_cons_of_mem _ hw)
  · rintro (hx | ⟨hx, before, y, after, rfl, hbefore, hy⟩)
    · exact ⟨[], x, xs, rfl, by simp, hx⟩
    · refine ⟨x :: before, y, after, rfl, ?_, hy⟩
      intro w hw
      rcases List.mem_cons.mp hw with rfl | hw
      · exact hx
      · exact hbefore w hw

theorem isFirst_singleton {x : α} : IsFirst R [x] b ↔ R x b := by
  simp [isFirst_cons, not_isFirst_nil]

/-- There is a first item in the relation when there is one. -/
theorem exists_isFirst {xs : List α} : (∃ b, IsFirst R xs b) ↔ ∃ x ∈ xs, ∃ b, R x b := by
  induction xs with
  | nil => simp [not_isFirst_nil]
  | cons x xs ih =>
      by_cases hx : ∃ b, R x b
      · obtain ⟨b, hb⟩ := hx
        exact iff_of_true ⟨b, isFirst_cons.mpr (Or.inl hb)⟩ ⟨x, List.mem_cons_self, b, hb⟩
      · have hnone : ∀ c, ¬R x c := not_exists.mp hx
        simp [isFirst_cons, hnone, ih]

theorem isFirst_append {xs ys : List α} :
    IsFirst R (xs ++ ys) b ↔ IsFirst R xs b ∨ (∀ c, ¬IsFirst R xs c) ∧ IsFirst R ys b := by
  induction xs with
  | nil => simp [not_isFirst_nil]
  | cons x xs ih =>
      rw [List.cons_append, isFirst_cons, ih]
      by_cases hx : ∃ c, R x c
      · obtain ⟨c, hc⟩ := hx
        have hsome : ¬∀ c, ¬R x c := fun h => h c hc
        simp [hsome, isFirst_cons]
      · have hnone : ∀ c, ¬R x c := not_exists.mp hx
        simp [isFirst_cons, hnone]

end

section

variable {ε α β γ : Type}

/-! ### Results -/

theorem exists_of_map_eq_ok {f : α → β} {x : Except ε α} {b : β} (h : x.map f = .ok b) :
    ∃ a, x = .ok a ∧ f a = b := by
  cases x with
  | error e => cases h
  | ok a => exact ⟨a, rfl, Except.ok.inj h⟩

theorem exists_of_bind_eq_ok {f : α → Except ε β} {x : Except ε α} {b : β} (h : x.bind f = .ok b) :
    ∃ a, x = .ok a ∧ f a = .ok b := by
  cases x with
  | error e => cases h
  | ok a => exact ⟨a, rfl, h⟩

theorem forall₂_of_mapM {f : α → Except ε β} {xs : List α} {ys : List β} (h : xs.mapM f = .ok ys) :
    List.Forall₂ (fun x y => f x = .ok y) xs ys := by
  induction xs generalizing ys with
  | nil =>
      cases h
      exact .nil
  | cons x xs ih =>
      rw [List.mapM_cons] at h
      obtain ⟨y, hy, hrest⟩ := exists_of_bind_eq_ok h
      obtain ⟨ys', hys, hcons⟩ := exists_of_bind_eq_ok hrest
      cases hcons
      exact .cons hy (ih hys)

theorem exists_of_mem_mapM {f : α → Except ε β} {xs : List α} {ys : List β} (h : xs.mapM f = .ok ys)
    {y : β} (hy : y ∈ ys) : ∃ x ∈ xs, f x = .ok y := by
  have hall := forall₂_of_mapM h
  clear h
  induction hall with
  | nil => cases hy
  | cons hx _ ih =>
      rcases List.mem_cons.mp hy with rfl | hy
      · exact ⟨_, List.mem_cons_self, hx⟩
      · obtain ⟨x, hmem, hx⟩ := ih hy
        exact ⟨x, List.mem_cons_of_mem _ hmem, hx⟩

theorem map_map (x : Except ε α) (f : α → β) (g : β → γ) : (x.map f).map g = x.map (g ∘ f) := by
  cases x <;> rfl

theorem mapM_map (f : α → Except ε β) (g : β → γ) (xs : List α) :
    (xs.mapM fun x => (f x).map g) = (xs.mapM f).map (List.map g) := by
  induction xs with
  | nil => rfl
  | cons x xs ih =>
      simp only [List.mapM_cons, ih]
      cases f x with
      | error e => rfl
      | ok b => cases xs.mapM f <;> rfl

/-! ### Errors -/

theorem map_eq_error_iff {f : α → β} {x : Except ε α} {e : ε} :
    x.map f = .error e ↔ x = .error e := by
  cases x <;> simp [Except.map]

theorem bind_pure_eq_error_iff {f : α → β} {x : Except ε α} {e : ε} :
    (x >>= fun a => pure (f a)) = .error e ↔ x = .error e := by
  cases x <;> simp [bind, Except.bind, pure, Except.pure]

/-- Of two computations in a row the second one fails only where the first did not. -/
theorem bind_bind_eq_error_iff {f : α → β → γ} {x : Except ε α} {y : Except ε β} {e : ε} :
    (do let a ← x; let b ← y; return f a b) = .error e ↔
      x = .error e ∨ (∀ e', ¬x = .error e') ∧ y = .error e := by
  cases x <;> cases y <;> simp [bind, Except.bind, pure, Except.pure]

/-- A traversal fails with the error of the first item that has one. -/
theorem mapM_eq_error_iff {f : α → Except ε β} {xs : List α} {e : ε} :
    xs.mapM f = .error e ↔ IsFirst (fun x e => f x = .error e) xs e := by
  induction xs with
  | nil => simp [not_isFirst_nil, pure, Except.pure]
  | cons x xs ih => rw [List.mapM_cons, bind_bind_eq_error_iff, isFirst_cons, ih]

/-! ### Results without errors -/

theorem toOption_eq_some_iff {x : Except ε α} {a : α} : x.toOption = some a ↔ x = .ok a := by
  cases x <;> simp [Except.toOption]

theorem toOption_bind (x : Except ε α) (f : α → Except ε β) :
    (x >>= f).toOption = x.toOption.bind fun a => (f a).toOption := by
  cases x <;> rfl

theorem toOption_map (x : Except ε α) (f : α → β) : (x.map f).toOption = x.toOption.map f := by
  cases x <;> rfl

/-- What has the same results on the items of two lists has the same results on the lists. -/
theorem toOption_mapM_congr {f : α → Except ε β} {xs ys : List α} {R : α → α → Prop}
    (hf : ∀ x y, R x y → (f x).toOption = (f y).toOption) (h : List.Forall₂ R xs ys) :
    (xs.mapM f).toOption = (ys.mapM f).toOption := by
  induction h with
  | nil => rfl
  | cons hx _ ih => simp only [List.mapM_cons, toOption_bind, hf _ _ hx, ih]

end

end TicketSearch
