/-
Classes of characters by their code points.

ASCII letters and digits are intervals of code points, and every other class is a table
of such intervals.  That two classes have no character in common is a fact about the
tables, `inRanges_eq_false`.
-/
import TicketSearch.Text.Letter

namespace TicketSearch

theorem toNat_ofNat {n : Nat} (h : n.isValidChar) : (Char.ofNat n).toNat = n := by
  unfold Char.ofNat
  rw [dif_pos h]
  exact UInt32.toNat_ofNatLT

theorem toNat_toLower (c : Char) :
    c.toLower.toNat = if 65 ≤ c.toNat ∧ c.toNat ≤ 90 then c.toNat + 32 else c.toNat := by
  have hval : c.val.toNat = c.toNat := rfl
  unfold Char.toLower
  simp only [Char.reduceVal, ge_iff_le, UInt32.le_iff_toNat_le, UInt32.reduceToNat, hval]
  by_cases h : 65 ≤ c.toNat ∧ c.toNat ≤ 90
  · rw [dif_pos h, if_pos h]
    show (c.val + _).toNat = _
    rw [UInt32.toNat_add, hval]
    simp
    omega
  · rw [dif_neg h, if_neg h]

theorem toNat_toUpper (c : Char) :
    c.toUpper.toNat = if 97 ≤ c.toNat ∧ c.toNat ≤ 122 then c.toNat - 32 else c.toNat := by
  have hval : c.val.toNat = c.toNat := rfl
  unfold Char.toUpper
  simp only [Char.reduceVal, UInt32.le_iff_toNat_le, UInt32.reduceToNat, hval]
  by_cases h : 97 ≤ c.toNat ∧ c.toNat ≤ 122
  · rw [dif_pos h, if_pos h]
    show (c.val + _).toNat = _
    rw [UInt32.toNat_add, hval]
    simp
    omega
  · rw [dif_neg h, if_neg h]

theorem isAlpha_iff (c : Char) :
    c.isAlpha = true ↔ 65 ≤ c.toNat ∧ c.toNat ≤ 90 ∨ 97 ≤ c.toNat ∧ c.toNat ≤ 122 := by
  have hrange : ∀ first last : UInt32, c.val ≥ first ∧ c.val ≤ last ↔
      first.toNat ≤ c.toNat ∧ c.toNat ≤ last.toNat := by
    intro first last
    rw [ge_iff_le, UInt32.le_iff_toNat_le, UInt32.le_iff_toNat_le]
    rfl
  show (decide (c.val ≥ 'A'.val ∧ c.val ≤ 'Z'.val) ||
    (decide (c.val ≥ 'a'.val) && decide (c.val ≤ 'z'.val))) = true ↔ _
  rw [Bool.or_eq_true, Bool.and_eq_true, decide_eq_true_eq, decide_eq_true_eq, decide_eq_true_eq,
    hrange, hrange]
  rfl

theorem isDigit_iff (c : Char) : c.isDigit = true ↔ 48 ≤ c.toNat ∧ c.toNat ≤ 57 := by
  have hval : c.val.toNat = c.toNat := rfl
  simp only [Char.isDigit, Bool.and_eq_true, decide_eq_true_eq, ge_iff_le,
    UInt32.le_iff_toNat_le, hval]
  simp only [Char.reduceVal, UInt32.reduceToNat]

/-! ### Tables -/

/-- A number of an interval that no range of a table meets is not in the table. -/
theorem inRanges_eq_false {ranges : List (Nat × Nat)} {first last n : Nat}
    (hranges : ∀ r ∈ ranges, r.2 < first ∨ last < r.1) (hfirst : first ≤ n) (hlast : n ≤ last) :
    inRanges ranges n = false := by
  unfold inRanges
  rw [List.any_eq_false]
  intro r hr hin
  have hout := hranges r hr
  rw [Bool.and_eq_true, decide_eq_true_eq, decide_eq_true_eq] at hin
  omega

theorem isBlank_of_isDigit {c : Char} (h : c.isDigit = true) : isBlank c = false := by
  obtain ⟨hfirst, hlast⟩ := (isDigit_iff c).mp h
  exact inRanges_eq_false (by decide) hfirst hlast

theorem isDigit_of_isBlank {c : Char} (h : isBlank c = true) : c.isDigit = false := by
  rw [← Bool.not_eq_true]
  intro hdigit
  rw [isBlank_of_isDigit hdigit] at h
  cases h

/-- No letter or numeral is a blank. -/
theorem not_isLetter_of_isBlank {c : Char} (h : isBlank c = true) :
    isLetter c = false ∧ isNumeral c = false := by
  have hletters : ∀ b ∈ blankRanges, ∀ r ∈ alphabeticRanges, r.2 < b.1 ∨ b.2 < r.1 := by
    decide +kernel
  have hnumerals : ∀ b ∈ blankRanges, ∀ r ∈ numeralRanges, r.2 < b.1 ∨ b.2 < r.1 := by
    decide +kernel
  have hascii : ∀ b ∈ blankRanges, b.2 < 48 ∨ 57 < b.1 ∧ b.2 < 65 ∨ 90 < b.1 ∧ b.2 < 97 ∨
      122 < b.1 := by
    decide
  unfold isBlank inRanges at h
  obtain ⟨b, hb, hin⟩ := List.any_eq_true.mp h
  rw [Bool.and_eq_true, decide_eq_true_eq, decide_eq_true_eq] at hin
  have hout := hascii b hb
  unfold isLetter isNumeral
  constructor
  · split
    · rw [← Bool.not_eq_true, isAlpha_iff]
      omega
    · exact inRanges_eq_false (hletters b hb) hin.1 hin.2
  · split
    · rw [← Bool.not_eq_true, isDigit_iff]
      omega
    · exact inRanges_eq_false (hnumerals b hb) hin.1 hin.2

end TicketSearch
