/-
Sorting, and what may come of it.

Sorting puts values in order when the comparison is an order on them, and equal ones keep
their places.  By any other comparison nothing is promised: the values may end up in any order,
or sorting may notice that the comparison contradicts itself and break off.  Only a few values
are safe from that, as those are inserted one by one.
-/
namespace TicketSearch

variable {α : Type} {isLess : α → α → Bool} {xs : List α}

/-- Puts a value into a list in descending order, before the first value that is not above it. -/
def insertDescending {α : Type} (isLess : α → α → Bool) (x : α) : List α → List α
  | [] => [x]
  | y :: ys => if isLess x y then y :: insertDescending isLess x ys else x :: y :: ys

/-- Sorts a list by insertion from the left; values that are not ordered keep their places. -/
def insertionSort {α : Type} (isLess : α → α → Bool) (xs : List α) : List α :=
  (xs.foldl (fun sorted x => insertDescending isLess x sorted) []).reverse

/-! ### Comparisons that are orders -/

/-- An order in which the values of a class can be sorted: what is not less goes on so. -/
structure Sortable (isLess : α → α → Bool) (P : α → Prop) : Prop where
  asymm : ∀ x y, P x → P y → isLess x y = true → isLess y x = false
  trans : ∀ x y z, P x → P y → P z → isLess x y = false → isLess y z = false → isLess x z = false

namespace Sortable

variable {P : α → Prop} {x y z : α}

theorem irrefl (h : Sortable isLess P) (hx : P x) : isLess x x = false := by
  cases hxx : isLess x x with
  | false => rfl
  | true => exact hxx.symm.trans (h.asymm x x hx hx hxx)

/-- What is less than a value is less than any that this one is not above. -/
theorem isLess_of_isLess (h : Sortable isLess P) (hx : P x) (hy : P y) (hz : P z)
    (hzx : isLess z x = true) (hyx : isLess y x = false) : isLess z y = true := by
  cases hzy : isLess z y with
  | true => rfl
  | false =>
      rw [h.trans z y x hz hy hx hzy hyx] at hzx
      cases hzx

end Sortable

/-- How many of some values are less than one. -/
def rank (isLess : α → α → Bool) (xs : List α) (x : α) : Nat :=
  xs.countP (isLess · x)

theorem rank_le {x y : α} (h : ∀ z ∈ xs, isLess z x = true → isLess z y = true) :
    rank isLess xs x ≤ rank isLess xs y :=
  List.countP_mono_left h

theorem rank_lt {x y : α} (h : ∀ z ∈ xs, isLess z x = true → isLess z y = true) (hx : x ∈ xs)
    (hxx : isLess x x = false) (hxy : isLess x y = true) :
    rank isLess xs x < rank isLess xs y := by
  obtain ⟨front, rest, rfl⟩ := List.append_of_mem hx
  have hfront : rank isLess front x ≤ rank isLess front y :=
    rank_le fun z hz => h z (List.mem_append_left _ hz)
  have hrest : rank isLess rest x ≤ rank isLess rest y :=
    rank_le fun z hz => h z (List.mem_append_right _ (List.mem_cons_of_mem _ hz))
  have hsplit : ∀ v, rank isLess (front ++ x :: rest) v =
      rank isLess front v + (rank isLess rest v + if isLess x v then 1 else 0) := by
    intro v
    unfold rank
    rw [List.countP_append, List.countP_cons]
  rw [hsplit, hsplit, hxx, hxy]
  simp only [Bool.false_eq_true, if_false, if_true]
  omega

/-- Whether some values are less than each other just as their ranks are. -/
def isRanked (isLess : α → α → Bool) (xs : List α) : Bool :=
  let ranked := xs.map fun x => (x, rank isLess xs x)
  ranked.all fun (x, m) => ranked.all fun (y, n) => isLess x y == decide (m < n)

theorem isRanked_iff :
    isRanked isLess xs = true ↔
      ∀ x ∈ xs, ∀ y ∈ xs, isLess x y = decide (rank isLess xs x < rank isLess xs y) := by
  unfold isRanked
  simp only [List.all_map, List.all_eq_true, Function.comp_apply, beq_iff_eq]

/-- A comparison is an order on some values exactly when their ranks are ordered as they are. -/
theorem isRanked_iff_sortable : isRanked isLess xs = true ↔ Sortable isLess (· ∈ xs) := by
  rw [isRanked_iff]
  constructor
  · intro h
    constructor
    · intro x y hx hy hxy
      rw [h x hx y hy, decide_eq_true_eq] at hxy
      rw [h y hy x hx, decide_eq_false_iff_not]
      omega
    · intro x y z hx hy hz hxy hyz
      rw [h x hx y hy, decide_eq_false_iff_not] at hxy
      rw [h y hy z hz, decide_eq_false_iff_not] at hyz
      rw [h x hx z hz, decide_eq_false_iff_not]
      omega
  · intro h x hx y hy
    cases hxy : isLess x y with
    | true =>
        have hyx := h.asymm x y hx hy hxy
        have hrank := rank_lt (fun z hz hzx => h.isLess_of_isLess hx hy hz hzx hyx) hx
          (h.irrefl hx) hxy
        exact (decide_eq_true hrank).symm
    | false =>
        have hrank : rank isLess xs y ≤ rank isLess xs x :=
          rank_le fun z hz hzy => h.isLess_of_isLess hy hx hz hzy hxy
        exact (decide_eq_false (Nat.not_lt.mpr hrank)).symm

instance : Decidable (Sortable isLess (· ∈ xs)) :=
  decidable_of_iff _ isRanked_iff_sortable

/-! ### What sorting comes to -/

/-- How many values are sorted by insertion, whatever the comparison is. -/
def insertionLimit : Nat := 20

/-- Whether it is certain what sorting comes to. -/
def Settled (isLess : α → α → Bool) (xs : List α) : Prop :=
  xs.length ≤ insertionLimit ∨ Sortable isLess (· ∈ xs)

instance : Decidable (Settled isLess xs) :=
  inferInstanceAs (Decidable (_ ∨ _))

/-- What sorting some values may come to; none where it breaks off. -/
inductive Sorting (isLess : α → α → Bool) (xs : List α) : Option (List α) → Prop
  | inserted (h : Settled isLess xs) : Sorting isLess xs (some (insertionSort isLess xs))
  /-- The values are all there, in whatever order. -/
  | disordered {ys : List α} (h : ¬Settled isLess xs) (hperm : ys.Perm xs) :
      Sorting isLess xs (some ys)
  | brokenOff (h : ¬Settled isLess xs) : Sorting isLess xs none

/-- Sorts a list, and breaks off where it is not certain what sorting comes to. -/
def sort? (isLess : α → α → Bool) (xs : List α) : Option (List α) :=
  if Settled isLess xs then some (insertionSort isLess xs) else none

end TicketSearch
