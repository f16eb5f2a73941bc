/-
Sorting keeps the values, and sorts them where the comparison is an order.

Both go by induction from the last value, which is put among the others when these are sorted.
That no value is lost or made up holds by any comparison.  That the values are in order
afterwards needs one that is transitive on them: what is inserted is compared with a few values
only, and the rest follows.  Where neither that nor a small number of values settles what
sorting comes to, it may come to anything with the same values, and to nothing.
-/
import Mathlib.Data.List.Induction
import TicketSearch.Sorting

namespace TicketSearch

/-! ### By insertion -/

variable {α : Type} {isLess : α → α → Bool}

theorem insertDescending_perm (isLess : α → α → Bool) (x : α) (xs : List α) :
    (insertDescending isLess x xs).Perm (x :: xs) := by
  induction xs with
  | nil => exact .refl _
  | cons y ys ih =>
      unfold insertDescending
      split
      · exact (ih.cons y).trans (.swap x y ys)
      · exact .refl _

/-- The last value is put among the others when these are sorted. -/
theorem reverse_insertionSort_concat (isLess : α → α → Bool) (xs : List α) (x : α) :
    (insertionSort isLess (xs ++ [x])).reverse =
      insertDescending isLess x (insertionSort isLess xs).reverse := by
  unfold insertionSort
  rw [List.foldl_append, List.foldl_cons, List.foldl_nil, List.reverse_reverse,
    List.reverse_reverse]

/-- Sorting keeps the values. -/
theorem insertionSort_perm (isLess : α → α → Bool) (xs : List α) :
    (insertionSort isLess xs).Perm xs := by
  induction xs using List.reverseRecOn with
  | nil => exact .nil
  | append_singleton xs x ih =>
      have hinsert : (insertionSort isLess (xs ++ [x])).reverse.Perm
          (x :: (insertionSort isLess xs).reverse) := by
        rw [reverse_insertionSort_concat]
        exact insertDescending_perm isLess x _
      have hrest := ((List.reverse_perm _).trans ih).cons x
      have hlast := (List.perm_append_singleton x xs).symm
      exact (List.reverse_perm _).symm.trans (hinsert.trans (hrest.trans hlast))

variable {P : α → Prop}

theorem Sortable.insertDescending_pairwise (h : Sortable isLess P) {x : α} (hx : P x)
    {xs : List α} (hxs : ∀ y ∈ xs, P y) (hsorted : xs.Pairwise fun x y => isLess x y = false) :
    (insertDescending isLess x xs).Pairwise fun x y => isLess x y = false := by
  induction xs with
  | nil => exact List.pairwise_singleton _ _
  | cons y ys ih =>
      have hy := hxs y List.mem_cons_self
      have hys : ∀ z ∈ ys, P z := fun z hz => hxs z (List.mem_cons_of_mem _ hz)
      obtain ⟨hhead, htail⟩ := List.pairwise_cons.mp hsorted
      unfold insertDescending
      split
      · rename_i hless
        refine List.pairwise_cons.mpr ⟨fun z hz => ?_, ih hys htail⟩
        rcases List.mem_cons.mp ((insertDescending_perm isLess x ys).mem_iff.mp hz) with rfl | hmem
        · exact h.asymm _ _ hx hy hless
        · exact hhead z hmem
      · rename_i hnot
        have hxy := eq_false_of_ne_true hnot
        refine List.pairwise_cons.mpr ⟨fun z hz => ?_, hsorted⟩
        rcases List.mem_cons.mp hz with rfl | hmem
        · exact hxy
        · exact h.trans x y z hx hy (hys z hmem) hxy (hhead z hmem)

/-- **Sorting puts the values in order**, when the order is one on them. -/
theorem Sortable.insertionSort_pairwise (h : Sortable isLess P) {xs : List α}
    (hxs : ∀ x ∈ xs, P x) :
    (insertionSort isLess xs).Pairwise fun x y => isLess y x = false := by
  induction xs using List.reverseRecOn with
  | nil => exact .nil
  | append_singleton xs x ih =>
      obtain ⟨hxs, hx⟩ := List.forall_mem_append.mp hxs
      rw [← List.pairwise_reverse, reverse_insertionSort_concat]
      refine h.insertDescending_pairwise (List.forall_mem_singleton.mp hx) (fun y hy => ?_)
        (List.pairwise_reverse.mpr (ih hxs))
      exact hxs y ((insertionSort_perm isLess xs).mem_iff.mp (List.mem_reverse.mp hy))

/-! ### What sorting comes to -/

variable {xs ys : List α} {outcome : Option (List α)}

/-- Where the comparison is an order or the values are few, sorting comes to one thing only. -/
theorem sorting_iff (h : Settled isLess xs) :
    Sorting isLess xs outcome ↔ outcome = some (insertionSort isLess xs) := by
  constructor
  · rintro (_ | ⟨hnot, _⟩ | hnot)
    · rfl
    · exact absurd h hnot
    · exact absurd h hnot
  · rintro rfl
    exact .inserted h

/-- Sorting keeps the values, when it comes to something. -/
theorem Sorting.perm (h : Sorting isLess xs (some ys)) : ys.Perm xs := by
  cases h with
  | inserted => exact insertionSort_perm isLess xs
  | disordered _ hperm => exact hperm

/-- Sorting is sure not to break off just where it is certain what it comes to. -/
theorem settled_iff : Settled isLess xs ↔ ¬Sorting isLess xs none := by
  constructor
  · intro h hnone
    cases (sorting_iff h).mp hnone
  · intro h
    exact Decidable.byContradiction fun hnot => h (.brokenOff hnot)

/-- There is always something that sorting comes to. -/
theorem sorting_sort? (isLess : α → α → Bool) (xs : List α) :
    Sorting isLess xs (sort? isLess xs) := by
  unfold sort?
  split
  · rename_i h
    exact .inserted h
  · rename_i h
    exact .brokenOff h

end TicketSearch
