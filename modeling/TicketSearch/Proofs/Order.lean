/-
Natural order, and when it is one.

Names of one series, numbered with the same text before the number, are ordered by their
numbers; any other two names by their texts.  Each of the two is an order on its own, and
natural order looks the same from both sides.  But a third name can stand between two names
of a series by its text where the texts are the other way round than the numbers:

    S 2 < S 10      by the numbers
    S 10 < S 1a     by the texts
    S 1a < S 2      by the texts

Then it goes around in a circle.  That is the only thing that can go wrong: natural order is
transitive on some names exactly when none of them interrupts a series so
(`naturalOrder_trans_iff`).
-/
import TicketSearch.Proofs.Case.Caseless

namespace TicketSearch

open Std (OrientedCmp ReflCmp TransCmp)

/-! ### The parts of a name -/

namespace NumberedName

/-- A name is taken apart by its folded form alone. -/
theorem of_eq (name : Text) :
    of name =
      if digitsAtEnd (folded name) = [] then ⟨folded name, none⟩
      else ⟨Text.trimEnd ((folded name).rdropWhile Char.isDigit),
        if digitsValue (digitsAtEnd (folded name)) < UInt64.size then
          some (digitsValue (digitsAtEnd (folded name))) else none⟩ := by
  obtain ⟨hfront, hdigits⟩ := Caseless.isDigit.lower_rdropWhile (Text.trim name)
  obtain ⟨htrimmed, _⟩ :=
    Caseless.isBlank.lower_rdropWhile ((Text.trim name).rdropWhile Char.isDigit)
  have htake :
      (Text.trim name).take ((Text.trim name).length - (digitsAtEnd (Text.trim name)).length) =
      (Text.trim name).rdropWhile Char.isDigit := by
    have hsplit : (Text.trim name).rdropWhile Char.isDigit ++ digitsAtEnd (Text.trim name) =
        Text.trim name := List.rdropWhile_append_rtakeWhile
    have hfirst : ∀ front digits : Text,
        (front ++ digits).take ((front ++ digits).length - digits.length) = front := by
      intro front digits
      rw [List.length_append, Nat.add_sub_cancel, List.take_left]
    have hparts := hfirst ((Text.trim name).rdropWhile Char.isDigit) (digitsAtEnd (Text.trim name))
    rwa [hsplit] at hparts
  have hsame : digitsAtEnd (folded name) = digitsAtEnd (Text.trim name) := hdigits
  have hstem : Text.trimEnd ((folded name).rdropWhile Char.isDigit) =
      Text.lower (Text.trimEnd ((Text.trim name).rdropWhile Char.isDigit)) := by
    unfold folded
    rw [hfront]
    exact htrimmed
  rw [hstem, hsame, ← htake]
  rfl

theorem of_congr {a b : Text} (h : folded a = folded b) : of a = of b := by
  rw [of_eq, of_eq, h]

end NumberedName

/-- Two names with the same text before a number. -/
structure SameSeries (a b : Text) : Prop where
  left : (NumberedName.of a).number.isSome
  right : (NumberedName.of b).number.isSome
  stem : (NumberedName.of a).stem = (NumberedName.of b).stem

variable {a b c : Text}

instance : Decidable (SameSeries a b) :=
  decidable_of_iff ((NumberedName.of a).number.isSome ∧ (NumberedName.of b).number.isSome ∧
      (NumberedName.of a).stem = (NumberedName.of b).stem)
    ⟨fun ⟨left, right, stem⟩ => ⟨left, right, stem⟩, fun h => ⟨h.left, h.right, h.stem⟩⟩

namespace SameSeries

theorem symm (h : SameSeries a b) : SameSeries b a :=
  ⟨h.right, h.left, h.stem.symm⟩

theorem trans (h : SameSeries a b) (h' : SameSeries b c) : SameSeries a c :=
  ⟨h.left, h'.right, h.stem.trans h'.stem⟩

/-- A name of a series is in the series of any name with the same text. -/
theorem of_folded (h : (NumberedName.of a).number.isSome) (hfolded : folded a = folded b) :
    SameSeries a b := by
  have hof := NumberedName.of_congr hfolded
  exact ⟨h, hof ▸ h, congrArg _ hof⟩

end SameSeries

/-- The number of a name of a series. -/
def seriesNumber (a : Text) : Nat :=
  (NumberedName.of a).number.getD 0

/-! ### The two orders -/

theorem naturalOrder_of_sameSeries (h : SameSeries a b) :
    naturalOrder a b = compare (seriesNumber a) (seriesNumber b) := by
  obtain ⟨m, hm⟩ := Option.isSome_iff_exists.mp h.left
  obtain ⟨n, hn⟩ := Option.isSome_iff_exists.mp h.right
  simp only [naturalOrder, seriesNumber, hm, hn, if_pos h.stem, Option.getD_some]

theorem naturalOrder_of_not_sameSeries (h : ¬SameSeries a b) :
    naturalOrder a b = compare (folded a) (folded b) := by
  unfold naturalOrder
  simp only
  split
  · rename_i m n hm hn
    have hstem : (NumberedName.of a).stem ≠ (NumberedName.of b).stem := by
      intro hstem
      exact h ⟨by rw [hm]; rfl, by rw [hn]; rfl, hstem⟩
    rw [if_neg hstem]
    rfl
  · rfl

/-- Natural order looks the same from both sides. -/
theorem naturalOrder_swap (a b : Text) : naturalOrder b a = (naturalOrder a b).swap := by
  by_cases h : SameSeries a b
  · rw [naturalOrder_of_sameSeries h, naturalOrder_of_sameSeries h.symm]
    exact OrientedCmp.eq_swap
  · have h' : ¬SameSeries b a := fun hba => h hba.symm
    rw [naturalOrder_of_not_sameSeries h, naturalOrder_of_not_sameSeries h']
    exact OrientedCmp.eq_swap

instance : OrientedCmp naturalOrder :=
  ⟨fun {a b} => naturalOrder_swap b a⟩

/-- Names with the same text are equal in natural order. -/
theorem naturalOrder_of_folded (h : folded a = folded b) : naturalOrder a b = .eq := by
  by_cases hs : SameSeries a b
  · rw [naturalOrder_of_sameSeries hs, seriesNumber, seriesNumber, NumberedName.of_congr h]
    exact ReflCmp.compare_self
  · rw [naturalOrder_of_not_sameSeries hs, h]
    exact ReflCmp.compare_self

/-- Natural order looks at the texts of names only up to blanks at the ends and to case. -/
theorem naturalOrder_congr {a' b' : Text} (ha : folded a = folded a') (hb : folded b = folded b') :
    naturalOrder a b = naturalOrder a' b' := by
  have hleft : Text.lower (Text.trim a) = Text.lower (Text.trim a') := ha
  have hright : Text.lower (Text.trim b) = Text.lower (Text.trim b') := hb
  unfold naturalOrder
  rw [NumberedName.of_congr ha, NumberedName.of_congr hb, hleft, hright]

/-! ### Names that interrupt a series -/

/-- Whether a name stands between two of a series that is not its own, where their texts
are the wrong way round. -/
structure Interrupts (c a b : Text) : Prop where
  series : SameSeries a b
  outside : ¬SameSeries a c
  ordered : (naturalOrder a b).isLE
  above : compare (folded b) (folded c) = .lt
  below : compare (folded c) (folded a) = .lt

instance : Decidable (Interrupts c a b) :=
  decidable_of_iff (SameSeries a b ∧ ¬SameSeries a c ∧ (naturalOrder a b).isLE ∧
      compare (folded b) (folded c) = .lt ∧ compare (folded c) (folded a) = .lt)
    ⟨fun ⟨series, outside, ordered, above, below⟩ => ⟨series, outside, ordered, above, below⟩,
      fun h => ⟨h.series, h.outside, h.ordered, h.above, h.below⟩⟩

/-- Some names of which none interrupts a series. -/
def Uninterrupted (names : List Text) : Prop :=
  ∀ a ∈ names, ∀ b ∈ names, ∀ c ∈ names, ¬Interrupts c a b

instance (names : List Text) : Decidable (Uninterrupted names) :=
  inferInstanceAs (Decidable (∀ a ∈ names, ∀ b ∈ names, ∀ c ∈ names, ¬Interrupts c a b))

theorem Uninterrupted.subset {names fewer : List Text} (h : Uninterrupted names)
    (hsubset : fewer ⊆ names) : Uninterrupted fewer :=
  fun a ha b hb c hc => h a (hsubset ha) b (hsubset hb) c (hsubset hc)

/-- A name outside a series has another text than every name of the series. -/
theorem SameSeries.folded_ne (h : SameSeries a b) (houtside : ¬SameSeries a c) :
    folded c ≠ folded a ∧ folded c ≠ folded b := by
  constructor
  · intro heq
    exact houtside (of_folded h.left heq.symm)
  · intro heq
    exact houtside (h.trans (of_folded h.right heq.symm))

theorem compare_eq_lt_of_isLE {s t : Text} (h : (compare s t).isLE) (hne : s ≠ t) :
    compare s t = .lt := by
  rcases Ordering.isLE_iff_eq_lt_or_eq_eq.mp h with hlt | heq
  · exact hlt
  · exact absurd (Std.LawfulEqOrd.eq_of_compare heq) hne

theorem compare_eq_lt_of_not_isLE {s t : Text} (h : ¬(compare s t).isLE) : compare t s = .lt := by
  rw [Bool.not_eq_true, Ordering.isLE_eq_false] at h
  exact OrientedCmp.gt_iff_lt.mp h

/-- On names that interrupt no series, natural order is transitive. -/
theorem Uninterrupted.isLE_trans {names : List Text} (h : Uninterrupted names) (ha : a ∈ names)
    (hb : b ∈ names) (hc : c ∈ names) (hab : (naturalOrder a b).isLE)
    (hbc : (naturalOrder b c).isLE) : (naturalOrder a c).isLE := by
  by_cases sab : SameSeries a b
  · by_cases sbc : SameSeries b c
    · rw [naturalOrder_of_sameSeries sab] at hab
      rw [naturalOrder_of_sameSeries sbc] at hbc
      rw [naturalOrder_of_sameSeries (sab.trans sbc)]
      exact TransCmp.isLE_trans hab hbc
    · have sac : ¬SameSeries a c := fun hac => sbc (sab.symm.trans hac)
      rw [naturalOrder_of_not_sameSeries sbc] at hbc
      rw [naturalOrder_of_not_sameSeries sac]
      by_contra hgt
      refine h a ha b hb c hc ⟨sab, sac, hab, ?_, compare_eq_lt_of_not_isLE hgt⟩
      exact compare_eq_lt_of_isLE hbc (sab.folded_ne sac).2.symm
  · by_cases sbc : SameSeries b c
    · have sba : ¬SameSeries b a := fun hba => sab hba.symm
      have sac : ¬SameSeries a c := fun hac => sab (hac.trans sbc.symm)
      rw [naturalOrder_of_not_sameSeries sab] at hab
      rw [naturalOrder_of_not_sameSeries sac]
      by_contra hgt
      refine h b hb c hc a ha ⟨sbc, sba, hbc, compare_eq_lt_of_not_isLE hgt, ?_⟩
      exact compare_eq_lt_of_isLE hab (sbc.folded_ne sba).1
    · rw [naturalOrder_of_not_sameSeries sab] at hab
      rw [naturalOrder_of_not_sameSeries sbc] at hbc
      by_cases sac : SameSeries a c
      · -- Here the ends are of one series, and what is between them is not.
        have scb : ¬SameSeries c b := fun hcb => sbc hcb.symm
        by_contra hgt
        have hca : (naturalOrder c a).isLE := by
          rw [naturalOrder_swap a c, Ordering.isLE_swap]
          rw [Bool.not_eq_true, Ordering.isLE_eq_false] at hgt
          rw [hgt]
          rfl
        refine h c hc a ha b hb ⟨sac.symm, scb, hca, ?_, ?_⟩
        · exact compare_eq_lt_of_isLE hab (sac.folded_ne sab).1.symm
        · exact compare_eq_lt_of_isLE hbc (sac.folded_ne sab).2
      · rw [naturalOrder_of_not_sameSeries sac]
        exact TransCmp.isLE_trans hab hbc

/-- A name that interrupts a series is part of a circle. -/
theorem Interrupts.circle (h : Interrupts c a b) :
    (naturalOrder a b).isLE ∧ naturalOrder b c = .lt ∧ naturalOrder c a = .lt := by
  have sbc : ¬SameSeries b c := fun hbc => h.outside (h.series.trans hbc)
  have sca : ¬SameSeries c a := fun hca => h.outside hca.symm
  refine ⟨h.ordered, ?_, ?_⟩
  · rw [naturalOrder_of_not_sameSeries sbc]
    exact h.above
  · rw [naturalOrder_of_not_sameSeries sca]
    exact h.below

/-- **Natural order is transitive on some names exactly when none of them interrupts a series.** -/
theorem naturalOrder_trans_iff (names : List Text) :
    (∀ a ∈ names, ∀ b ∈ names, ∀ c ∈ names, (naturalOrder a b).isLE → (naturalOrder b c).isLE →
      (naturalOrder a c).isLE) ↔ Uninterrupted names := by
  constructor
  · intro htrans a ha b hb c hc h
    obtain ⟨hab, hbc, hca⟩ := h.circle
    have hcb := htrans c hc a ha b hb (Ordering.isLE_of_eq_lt hca) hab
    rw [naturalOrder_swap b c, hbc] at hcb
    cases hcb
  · intro h a ha b hb c hc
    exact h.isLE_trans ha hb hc

/-- Whether names interrupt a series does not depend on their case. -/
theorem Uninterrupted.of_folded {names others : List Text} (h : Uninterrupted names)
    (hothers : ∀ a ∈ others, ∃ b ∈ names, folded a = folded b) : Uninterrupted others := by
  rw [← naturalOrder_trans_iff] at h ⊢
  intro a' ha' b' hb' c' hc'
  obtain ⟨a, ha, hfa⟩ := hothers a' ha'
  obtain ⟨b, hb, hfb⟩ := hothers b' hb'
  obtain ⟨c, hc, hfc⟩ := hothers c' hc'
  rw [naturalOrder_congr hfa hfb, naturalOrder_congr hfb hfc, naturalOrder_congr hfa hfc]
  exact h a ha b hb c hc

end TicketSearch
