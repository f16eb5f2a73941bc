/-
Characters that the rules for case pass by.

Blanks and digits have no case.  Lower case leaves them as they are, makes none of them out
of other characters, and no rule looks past them for a neighbour of a sigma.  That is a fact
about the tables (`Caseless.of_ranges`).  So the blanks or the digits at the end of a text
can be taken off before or after lower case is taken (`Caseless.lower_rdropWhile`).

A name taken apart into a text and the number at its end is such a case, see `Proofs.Order`.
-/
import Mathlib.Data.List.DropRight
import Mathlib.Tactic.SplitIfs
import TicketSearch.Proofs.Case

namespace TicketSearch

/-- A class of characters that lower case keeps and does not make, and that no rule looks past. -/
structure Caseless (p : Char → Bool) : Prop where
  kept : ∀ c, p c = true → lowerChar c = [c] ∧ c ≠ 'Σ'
  seen : ∀ c, p c = true → isCaseIgnorable c = false ∧ isCased c = false
  notMade : ∀ c, p c = false → ∀ d ∈ lowerChar c, p d = false
  notSigma : p 'ς' = false ∧ p 'σ' = false

/-! ### Classes by code points -/

theorem toNat_ofNat_or (n : Nat) : (Char.ofNat n).toNat = n ∨ (Char.ofNat n).toNat = 0 := by
  by_cases h : n.isValidChar
  · exact Or.inl (toNat_ofNat h)
  · unfold Char.ofNat
    rw [dif_neg h]
    exact Or.inr rfl

/-- The lower case of a character is itself, or comes by one of the tables. -/
theorem lowerChar_cases (c : Char) :
    c.toNat < 128 ∧ lowerChar c = [c.toLower] ∨
      c.toNat = 0x130 ∧ lowerChar c = ['i', Char.ofNat 0x307] ∨
        (∃ run ∈ lowerRuns, run.first ≤ c.toNat ∧ c.toNat ≤ run.last ∧
          lowerChar c = [Char.ofNat (c.toNat + run.distance).toNat]) ∨ lowerChar c = [c] := by
  unfold lowerChar
  split_ifs with hascii hdotted
  · exact Or.inl ⟨hascii, rfl⟩
  · exact Or.inr (Or.inl ⟨hdotted, rfl⟩)
  · refine Or.inr (Or.inr ?_)
    split
    · rename_i run hrun
      have hin := List.find?_some hrun
      rw [Bool.and_eq_true, Bool.and_eq_true, decide_eq_true_eq, decide_eq_true_eq] at hin
      exact Or.inl ⟨run, List.mem_of_find?_eq_some hrun, hin.1.1, hin.1.2, rfl⟩
    · exact Or.inr rfl

theorem lowerChar_ne_nil (c : Char) : lowerChar c ≠ [] := by
  rcases lowerChar_cases c with ⟨_, h⟩ | ⟨_, h⟩ | ⟨_, _, _, _, h⟩ | h <;>
    (rw [h]; exact List.cons_ne_nil _ _)

namespace Caseless

/-- Whether no character that has a case lies in a range, nor one that the rules look past. -/
def IsClear (range : Nat × Nat) : Prop :=
  0 < range.1 ∧ (range.2 < 65 ∨ 90 < range.1) ∧ (range.2 < 97 ∨ 122 < range.1) ∧
    (∀ code ∈ [0x130, 0x307, 0x3A3, 0x3C2, 0x3C3], code < range.1 ∨ range.2 < code) ∧
      (∀ run ∈ lowerRuns, (range.2 < run.first ∨ run.last < range.1) ∧
        (range.2 < run.first + run.distance ∨ run.last + run.distance < range.1)) ∧
        ∀ other ∈ casedRanges ++ caseIgnorableRanges, other.2 < range.1 ∨ range.2 < other.1

instance (range : Nat × Nat) : Decidable (IsClear range) :=
  inferInstanceAs (Decidable (_ ∧ _))

theorem exists_of_inRanges {ranges : List (Nat × Nat)} {n : Nat} (h : inRanges ranges n = true) :
    ∃ r ∈ ranges, r.1 ≤ n ∧ n ≤ r.2 := by
  obtain ⟨r, hr, hin⟩ := List.any_eq_true.mp h
  rw [Bool.and_eq_true, decide_eq_true_eq, decide_eq_true_eq] at hin
  exact ⟨r, hr, hin⟩

/-- Ranges without letters that have a case make a class without case. -/
theorem of_ranges {ranges : List (Nat × Nat)} (h : ∀ r ∈ ranges, IsClear r) :
    Caseless fun c => inRanges ranges c.toNat := by
  have hout : ∀ n, (∀ r ∈ ranges, n < r.1 ∨ r.2 < n) → inRanges ranges n = false := by
    intro n hn
    rw [← Bool.not_eq_true]
    intro hin
    obtain ⟨r, hr, hfirst, hlast⟩ := exists_of_inRanges hin
    have hr' := hn r hr
    omega
  have hsigma : ∀ code ∈ [0x130, 0x307, 0x3A3, 0x3C2, 0x3C3], inRanges ranges code = false :=
    fun code hcode => hout code fun r hr => (h r hr).2.2.2.1 code hcode
  constructor
  · intro c hc
    obtain ⟨r, hr, hfirst, hlast⟩ := exists_of_inRanges hc
    obtain ⟨_, hupper, _, hcodes, hruns, _⟩ := h r hr
    constructor
    · rcases lowerChar_cases c with ⟨_, heq⟩ | ⟨hdotted, _⟩ | ⟨run, hrun, _, _, _⟩ | heq
      · rw [heq]
        congr 1
        rw [← Char.toNat_inj, toNat_toLower, if_neg (by omega)]
      · have hcode := hcodes 0x130 (by decide)
        omega
      · have hrun := (hruns run hrun).1
        omega
      · exact heq
    · rintro rfl
      have hcode := hcodes 0x3A3 (by decide)
      have hvalue : 'Σ'.toNat = 0x3A3 := rfl
      omega
  · intro c hc
    obtain ⟨r, hr, hfirst, hlast⟩ := exists_of_inRanges hc
    obtain ⟨_, hupper, hlower, _, _, hothers⟩ := h r hr
    have hother : ∀ table ⊆ casedRanges ++ caseIgnorableRanges, inRanges table c.toNat = false := by
      intro table htable
      refine inRanges_eq_false (fun other hmem => ?_) hfirst hlast
      exact hothers other (htable hmem)
    refine ⟨hother _ (List.subset_append_right _ _), ?_⟩
    unfold isCased
    split_ifs
    · rw [← Bool.not_eq_true, isAlpha_iff]
      omega
    · exact hother _ (List.subset_append_left _ _)
  · intro c hc d hd
    rcases lowerChar_cases c with ⟨_, heq⟩ | ⟨_, heq⟩ | ⟨run, hrun, hfirst, hlast, heq⟩ | heq
    · rw [heq, List.mem_singleton] at hd
      rw [hd, toNat_toLower]
      split_ifs
      · refine hout _ fun r hr => ?_
        have hlower := (h r hr).2.2.1
        omega
      · exact hc
    · rw [heq] at hd
      simp only [List.mem_cons, List.not_mem_nil, or_false] at hd
      rcases hd with rfl | rfl
      · refine hout _ fun r hr => ?_
        have hlower := (h r hr).2.2.1
        have hvalue : 'i'.toNat = 105 := rfl
        omega
      · exact hsigma 0x307 (by decide)
    · rw [heq, List.mem_singleton] at hd
      subst hd
      refine hout _ fun r hr => ?_
      obtain ⟨hpos, _, _, _, hruns, _⟩ := h r hr
      have hshift := (hruns run hrun).2
      rcases toNat_ofNat_or (c.toNat + run.distance).toNat with hn | hn <;> omega
    · rw [heq, List.mem_singleton] at hd
      rw [hd]
      exact hc
  · exact ⟨hsigma 0x3C2 (by decide), hsigma 0x3C3 (by decide)⟩

theorem isBlank : Caseless isBlank :=
  of_ranges (by decide +kernel)

theorem isDigit : Caseless Char.isDigit := by
  have heq : (Char.isDigit : Char → Bool) = fun c => inRanges [(48, 57)] c.toNat := by
    funext c
    rw [Bool.eq_iff_iff, isDigit_iff]
    simp [inRanges]
  rw [heq]
  exact of_ranges (by decide +kernel)

end Caseless

/-! ### Lower case of a first part -/

namespace Text

theorem leadsToCased_append {y : Text} (hy : leadsToCased y = false) (x : Text) :
    leadsToCased (x ++ y) = leadsToCased x := by
  induction x with
  | nil => exact hy
  | cons c x ih => rw [List.cons_append, leadsToCased_cons, leadsToCased_cons, ih]

/-- Where the second of two parts does not lead to a cased letter, the first does not see it. -/
theorem exists_lowerAfter_append {y : Text} (hy : leadsToCased y = false) (cased : Bool)
    (x : Text) :
    ∃ cased', lowerAfter cased (x ++ y) = lowerAfter cased x ++ lowerAfter cased' y := by
  induction x generalizing cased with
  | nil => exact ⟨cased, rfl⟩
  | cons c x ih =>
      obtain ⟨cased', h⟩ := ih (if isCaseIgnorable c then cased else isCased c)
      refine ⟨cased', ?_⟩
      rw [List.cons_append, lowerAfter, lowerAfter, h, leadsToCased_append hy, List.append_assoc]

theorem lower_ne_nil {t : Text} (h : t ≠ []) : lower t ≠ [] := by
  obtain ⟨c, cs, rfl⟩ := List.exists_cons_of_ne_nil h
  unfold lower lowerAfter
  intro hnil
  have hhead := (List.append_eq_nil_iff.mp hnil).1
  split_ifs at hhead
  · exact lowerChar_ne_nil c hhead

end Text

namespace Caseless

open Text (lower lowerAfter leadsToCased)

variable {p : Char → Bool}

theorem lowerAfter_eq (hp : Caseless p) {y : Text} (hy : ∀ c ∈ y, p c = true) (cased : Bool) :
    lowerAfter cased y = y := by
  induction y generalizing cased with
  | nil => rfl
  | cons c y ih =>
      obtain ⟨hkept, hsigma⟩ := hp.kept c (hy c List.mem_cons_self)
      rw [lowerAfter, if_neg hsigma, hkept, ih fun d hd => hy d (List.mem_cons_of_mem _ hd)]
      rfl

theorem lower_append (hp : Caseless p) (x : Text) {y : Text} (hy : ∀ c ∈ y, p c = true) :
    lower (x ++ y) = lower x ++ y := by
  have hleads : leadsToCased y = false := by
    cases y with
    | nil => rfl
    | cons c y =>
        obtain ⟨hignorable, hcased⟩ := hp.seen c (hy c List.mem_cons_self)
        rw [Text.leadsToCased_cons, hignorable, if_neg Bool.false_ne_true, hcased]
  obtain ⟨cased', h⟩ := Text.exists_lowerAfter_append hleads false x
  unfold lower
  rw [h, hp.lowerAfter_eq hy]

/-- The lower case of a text ends as the text does. -/
theorem exists_lowerAfter_concat (hp : Caseless p) {c : Char} (hc : p c = false) (cased : Bool)
    (x : Text) : ∃ init d, lowerAfter cased (x ++ [c]) = init ++ [d] ∧ p d = false := by
  induction x generalizing cased with
  | nil =>
      have hlowered : ∃ l : Text, lowerAfter cased [c] = l ∧ l ≠ [] ∧ ∀ d ∈ l, p d = false := by
        rw [lowerAfter, lowerAfter, List.append_nil]
        refine ⟨_, rfl, ?_⟩
        split_ifs
        · exact ⟨List.cons_ne_nil _ _,
            fun d hd => by rw [List.mem_singleton.mp hd]; exact hp.notSigma.1⟩
        · exact ⟨List.cons_ne_nil _ _,
            fun d hd => by rw [List.mem_singleton.mp hd]; exact hp.notSigma.2⟩
        · exact ⟨lowerChar_ne_nil c, hp.notMade c hc⟩
      obtain ⟨l, heq, hne, hl⟩ := hlowered
      rw [List.nil_append, heq]
      exact ⟨l.dropLast, l.getLast hne, (List.dropLast_append_getLast hne).symm,
        hl _ (List.getLast_mem hne)⟩
  | cons b x ih =>
      obtain ⟨init, d, h, hd⟩ := ih (if isCaseIgnorable b then cased else isCased b)
      rw [List.cons_append, lowerAfter, h, ← List.append_assoc]
      exact ⟨_, d, rfl, hd⟩

theorem rdropWhile_append {y : Text} (hy : ∀ c ∈ y, p c = true) (x : Text) :
    (x ++ y).rdropWhile p = x.rdropWhile p := by
  unfold List.rdropWhile
  rw [List.reverse_append, List.dropWhile_append_of_pos fun c hc => hy c (List.mem_reverse.mp hc)]

theorem rtakeWhile_append {y : Text} (hy : ∀ c ∈ y, p c = true) (x : Text) :
    (x ++ y).rtakeWhile p = x.rtakeWhile p ++ y := by
  unfold List.rtakeWhile
  rw [List.reverse_append, List.takeWhile_append_of_pos fun c hc => hy c (List.mem_reverse.mp hc),
    List.reverse_append, List.reverse_reverse]

/-- What a class without case leaves of a text stays when lower case is taken. -/
theorem lower_rdropWhile (hp : Caseless p) (t : Text) :
    (lower t).rdropWhile p = lower (t.rdropWhile p) ∧ (lower t).rtakeWhile p = t.rtakeWhile p := by
  have htail : ∀ c ∈ t.rtakeWhile p, p c = true := fun c hc => List.mem_rtakeWhile_imp hc
  have hlower : lower t = lower (t.rdropWhile p) ++ t.rtakeWhile p := by
    rw [← hp.lower_append _ htail, List.rdropWhile_append_rtakeWhile]
  have hfront : ∀ hne : lower (t.rdropWhile p) ≠ [], ¬p ((lower (t.rdropWhile p)).getLast hne) := by
    intro hne
    have hdrop : t.rdropWhile p ≠ [] := by
      intro hnil
      rw [hnil] at hne
      exact hne rfl
    have hlast := eq_false_of_ne_true (List.rdropWhile_last_not p t hdrop)
    obtain ⟨init, d, heq, hd⟩ := hp.exists_lowerAfter_concat hlast false (t.rdropWhile p).dropLast
    rw [List.dropLast_append_getLast hdrop] at heq
    have hlowerLast : (lower (t.rdropWhile p)).getLast hne = d := by
      unfold lower
      simp only [heq, List.getLast_append_singleton]
    rw [hlowerLast, hd]
    exact Bool.false_ne_true
  constructor
  · rw [hlower, rdropWhile_append htail, List.rdropWhile_eq_self_iff.mpr hfront]
  · rw [hlower, rtakeWhile_append htail, List.rtakeWhile_eq_nil_iff.mpr hfront, List.nil_append]

end Caseless

end TicketSearch
