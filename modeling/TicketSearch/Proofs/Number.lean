/-
The order of numbers.

Equality and order of binary64 numbers are three separate tests on their encodings.
They are facets of one partial comparison, `Float.Model.compare`, which fails exactly on
NaN and changes sign when its arguments trade places.  From this it follows that
`compareFloats?` is that comparison, and that two numbers that are not NaN are ordered
in exactly one of the three ways.
-/
import TicketSearch.Evaluation

namespace TicketSearch

open Float.Model (UnpackedFloat)

theorem unpacked_compare_swap (x y : UnpackedFloat) :
    y.compare x = (x.compare y).map Ordering.swap := by
  have hexp : ∀ (e e' : Int) (m m' : Nat), (compare e' e).then (compare m' m) =
      ((compare e e').then (compare m m')).swap := by
    intro e e' m m'
    rw [Ordering.swap_then, Int.compare_swap, Nat.compare_swap]
  cases x with
  | notANumber => cases y <;> rfl
  | infinity s =>
      cases y with
      | notANumber => rfl
      | infinity s' => cases s <;> cases s' <;> rfl
      | zero s' => cases s <;> rfl
      | finite s' m' e' _ => cases s <;> rfl
  | zero s =>
      cases y with
      | notANumber => rfl
      | infinity s' => cases s' <;> rfl
      | zero s' => rfl
      | finite s' m' e' _ => cases s' <;> rfl
  | finite s m e _ =>
      cases y with
      | notANumber => cases s <;> rfl
      | infinity s' => cases s <;> cases s' <;> rfl
      | zero s' => cases s <;> rfl
      | finite s' m' e' _ =>
          cases s <;> cases s'
          · exact congrArg (fun o => some (Ordering.swap o)) (hexp e e' m m')
          · rfl
          · rfl
          · exact congrArg some (hexp e e' m m')

theorem unpacked_compare_isSome (x y : UnpackedFloat) :
    (x.compare y).isSome = (!x.isNaN && !y.isNaN) := by
  cases x with
  | notANumber => rfl
  | infinity s => cases s <;> cases y <;> rfl
  | zero s =>
      cases y with
      | notANumber => rfl
      | infinity s' => cases s' <;> rfl
      | zero s' => rfl
      | finite s' m' e' _ => cases s' <;> rfl
  | finite s m e _ =>
      cases y with
      | notANumber => cases s <;> rfl
      | infinity s' => cases s <;> cases s' <;> rfl
      | zero s' => cases s <;> rfl
      | finite s' m' e' _ => cases s <;> cases s' <;> rfl

/-- The partial comparison of two numbers. -/
def floatOrder? (x y : Float) : Option Ordering :=
  x.toModel.compare y.toModel

theorem floatOrder?_swap (x y : Float) : floatOrder? y x = (floatOrder? x y).map Ordering.swap :=
  unpacked_compare_swap _ _

theorem float_beq_eq (x y : Float) : (x == y) = (floatOrder? x y == some .eq) := rfl

theorem float_lt_iff (x y : Float) : x < y ↔ floatOrder? x y = some .lt := by
  have hmodel : x < y ↔ x.toModel < y.toModel := decide_eq_true_iff
  exact hmodel.trans beq_iff_eq

theorem float_gt_iff (x y : Float) : y < x ↔ floatOrder? x y = some .gt := by
  rw [float_lt_iff, floatOrder?_swap x y]
  cases floatOrder? x y with
  | none => simp
  | some o => cases o <;> simp

/-- Two numbers have an order exactly when neither is NaN. -/
theorem floatOrder?_isSome (x y : Float) : (floatOrder? x y).isSome = (!x.isNaN && !y.isNaN) :=
  unpacked_compare_isSome _ _

theorem not_isNaN_of_isFinite {x : Float} (h : x.isFinite = true) : x.isNaN = false := by
  have hunpacked : ∀ u : UnpackedFloat, u.isFinite = true → u.isNaN = false := by
    intro u hu
    cases u <;> first | rfl | cases hu
  exact hunpacked _ h

/-- The three tests on numbers make up their partial comparison. -/
theorem compareFloats?_eq (x y : Float) : compareFloats? x y = floatOrder? x y := by
  unfold compareFloats?
  by_cases heq : floatOrder? x y = some .eq
  · rw [float_beq_eq, heq]
    rfl
  · rw [float_beq_eq, beq_false_of_ne heq, if_neg Bool.false_ne_true]
    by_cases hlt : floatOrder? x y = some .lt
    · rw [if_pos ((float_lt_iff x y).mpr hlt), hlt]
    · rw [if_neg (fun h => hlt ((float_lt_iff x y).mp h))]
      by_cases hgt : floatOrder? x y = some .gt
      · rw [if_pos ((float_gt_iff x y).mpr hgt), hgt]
      · rw [if_neg (fun h => hgt ((float_gt_iff x y).mp h))]
        cases ho : floatOrder? x y with
        | none => rfl
        | some o => cases o <;> simp_all

end TicketSearch
