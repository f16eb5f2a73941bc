/-
Case and the characters of words.

Case leads from letters to letters and leaves everything else alone, so it never tells a
character of a word from another character.  For lower case that is a fact about two tables:
every run of capitals lies among the letters, and so does the run of their partners.  The
first characters of two texts are therefore of one sort when one text is a beginning of the
other up to case (`head?_of_prefix`).
-/
import TicketSearch.Proofs.Case.Ends
import TicketSearch.Proofs.Lexing

namespace TicketSearch

/-! ### Runs of capitals among the letters -/

/-- Whether one range of a table holds all numbers between two; the test is a
cheap one for the kernel. -/
def isWithin (ranges : List (Nat × Nat)) (first last : Nat) : Bool :=
  ranges.any fun r => Nat.ble r.1 first && Nat.ble last r.2

theorem inRanges_of_isWithin {ranges : List (Nat × Nat)} {first last n : Nat}
    (h : isWithin ranges first last = true) (hfirst : first ≤ n) (hlast : n ≤ last) :
    inRanges ranges n = true := by
  obtain ⟨r, hr, hin⟩ := List.any_eq_true.mp h
  rw [Bool.and_eq_true, Nat.ble_eq, Nat.ble_eq] at hin
  refine List.any_eq_true.mpr ⟨r, hr, ?_⟩
  rw [Bool.and_eq_true, decide_eq_true_eq, decide_eq_true_eq]
  omega

theorem isLetter_of_inRanges {c : Char} (hc : 128 ≤ c.toNat)
    (h : inRanges alphabeticRanges c.toNat = true) : isLetter c = true := by
  unfold isLetter
  rw [if_neg (by omega), h]

theorem isLetter_of_isAlpha {c : Char} (h : c.isAlpha = true) : isLetter c = true := by
  have hc := (isAlpha_iff c).mp h
  unfold isLetter
  rw [if_pos (by omega), h]

/-- What has a partner in lower case is a letter. -/
theorem isLetter_of_mem_run {run : CaseRun} (hrun : run ∈ lowerRuns) {c : Char}
    (hc : 128 ≤ c.toNat) (hfirst : run.first ≤ c.toNat) (hlast : c.toNat ≤ run.last)
    (hstep : (c.toNat - run.first) % run.step = 0) : isLetter c = true := by
  have hwithin : (lowerRuns.all fun run =>
      Nat.beq run.first 0x1F59 || isWithin alphabeticRanges run.first run.last) = true := by
    decide +kernel
  have hgaps : ∀ run ∈ lowerRuns, run.first = 0x1F59 → run.last = 0x1F5F ∧ run.step = 2 := by
    decide +kernel
  refine isLetter_of_inRanges hc ?_
  have hcases := List.all_eq_true.mp hwithin run hrun
  rw [Bool.or_eq_true, Nat.beq_eq] at hcases
  rcases hcases with hgap | hin
  · -- the code points between these capitals are not assigned
    obtain ⟨hend, htwo⟩ := hgaps run hrun hgap
    have hletters : ∀ n ∈ [0x1F59, 0x1F5B, 0x1F5D, 0x1F5F], inRanges alphabeticRanges n = true := by
      decide +kernel
    refine hletters _ ?_
    simp only [List.mem_cons, List.not_mem_nil, or_false]
    rw [htwo] at hstep
    omega
  · exact inRanges_of_isWithin hin hfirst hlast

/-- The partner in lower case is one too. -/
theorem isLetter_partner {run : CaseRun} (hrun : run ∈ lowerRuns) {n : Nat} (hfirst : run.first ≤ n)
    (hlast : n ≤ run.last) : isLetter (Char.ofNat (n + run.distance).toNat) = true := by
  have hwithin : (lowerRuns.all fun run => Nat.beq (run.first + run.distance).toNat 107 ||
      isWithin alphabeticRanges (run.first + run.distance).toNat
        (run.last + run.distance).toNat) = true := by
    decide +kernel
  have hbeyond : (n + run.distance).toNat.isValidChar → 128 ≤ run.first + run.distance →
      isLetter (Char.ofNat (n + run.distance).toNat) = true := by
    intro hvalid hascii
    have hcases := List.all_eq_true.mp hwithin run hrun
    rw [Bool.or_eq_true, Nat.beq_eq] at hcases
    rcases hcases with hkelvin | hin
    · omega
    · have hvalue := toNat_ofNat hvalid
      refine isLetter_of_inRanges (by rw [hvalue]; omega) ?_
      rw [hvalue]
      exact inRanges_of_isWithin hin (by omega) (by omega)
  rcases lowerRuns_reach run hrun with hrange | hrange | ⟨hkelvin, hend, hdistance⟩
  · exact hbeyond (Or.inl (by omega)) hrange.1
  · exact hbeyond (Or.inr (by omega)) (by omega)
  · have hn : n = 0x212A := by omega
    rw [hn, hdistance]
    decide

/-! ### Case leads from letters to letters -/

/-- A letter of ASCII stays one in either case, and nothing else of ASCII changes. -/
theorem toLower_eq_or_isLetter (c : Char) :
    c.toLower = c ∨ isLetter c = true ∧ isLetter c.toLower = true :=
  (toLower_eq_or_isAlpha c).imp_right fun ⟨hc, hlower⟩ =>
    ⟨isLetter_of_isAlpha hc, isLetter_of_isAlpha hlower⟩

theorem toUpper_eq_or_isLetter (c : Char) :
    c.toUpper = c ∨ isLetter c = true ∧ isLetter c.toUpper = true := by
  by_cases h : 97 ≤ c.toNat ∧ c.toNat ≤ 122
  · refine Or.inr ⟨isLetter_of_isAlpha ((isAlpha_iff c).mpr (Or.inr h)), ?_⟩
    refine isLetter_of_isAlpha ((isAlpha_iff _).mpr (Or.inl ?_))
    rw [toNat_toUpper, if_pos h]
    omega
  · left
    rw [← Char.toNat_inj, toNat_toUpper, if_neg h]

/-- The lower case of a character is itself, or leads from a letter to a letter. -/
theorem lowerChar_eq_or_isLetter (c : Char) :
    lowerChar c = [c] ∨
      isLetter c = true ∧ ∃ d ds, lowerChar c = d :: ds ∧ isLetter d = true := by
  unfold lowerChar
  split_ifs with hascii hdotted
  · rcases toLower_eq_or_isLetter c with hsame | ⟨hc, hlower⟩
    · exact Or.inl (congrArg (fun d => [d]) hsame)
    · exact Or.inr ⟨hc, _, _, rfl, hlower⟩
  · have hletter : inRanges alphabeticRanges 0x130 = true := by decide +kernel
    refine Or.inr ⟨isLetter_of_inRanges (by omega) (hdotted ▸ hletter), _, _, rfl, by decide⟩
  · split
    · rename_i run hfind
      have hrun := List.mem_of_find?_eq_some hfind
      have hin := List.find?_some hfind
      rw [Bool.and_eq_true, Bool.and_eq_true, decide_eq_true_eq, decide_eq_true_eq,
        beq_iff_eq] at hin
      obtain ⟨⟨hfirst, hlast⟩, hstep⟩ := hin
      exact Or.inr ⟨isLetter_of_mem_run hrun (by omega) hfirst hlast hstep, _, _, rfl,
        isLetter_partner hrun hfirst hlast⟩
    · exact Or.inl rfl

/-! ### Words -/

theorem isWordChar_of_isLetter {c : Char} (h : isLetter c = true) : isWordChar c = true := by
  unfold isWordChar
  rw [h]
  simp

/-- Lower case keeps the characters of words apart from the others. -/
theorem head?_lowerChar_isWordChar (c : Char) :
    (lowerChar c).head?.map isWordChar = some (isWordChar c) := by
  rcases lowerChar_eq_or_isLetter c with hsame | ⟨hc, d, ds, hlower, hd⟩
  · rw [hsame]
    rfl
  · rw [hlower, isWordChar_of_isLetter hc]
    exact congrArg some (isWordChar_of_isLetter hd)

/-- The first characters of a text and of a beginning of it are of one sort, up to lower case. -/
theorem head?_of_prefix {p : Char → Bool} (hp : ∀ c, (lowerChar c).head?.map p = some (p c))
    {s t : Text} (hs : s ≠ []) (h : Text.lower s <+: Text.lower t) :
    s.head?.map p = t.head?.map p := by
  obtain ⟨d, ds, hd⟩ := List.exists_cons_of_ne_nil (Text.lower_ne_nil hs)
  obtain ⟨r, hr⟩ := h
  rw [← head?_lower hp s, ← head?_lower hp t, ← hr, hd]
  rfl

end TicketSearch
