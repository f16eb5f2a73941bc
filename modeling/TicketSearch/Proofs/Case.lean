/-
The two foldings of case agree where they meet.

Texts that are equal up to the case of ASCII letters have the same Unicode lower case:
a letter that changes its case stays cased and is never skipped, so that even the rule of
the final sigma sees the same neighbours.  `sameValue` therefore asks for the second of
its two tests only.

The other way round, a lower case that is all ASCII can only come from ASCII: the sole
characters beyond it with an ASCII lower case are the dotted capital I, which leaves a dot
behind, and the Kelvin sign.  The values of a table use neither, so the place of a value
in a table is the place of its lower case.
-/
import TicketSearch.Field.Order
import TicketSearch.Proofs.Character

namespace TicketSearch

/-! ### ASCII letters under the rules for case -/

/-- Characters that agree up to ASCII case are the same, or both are ASCII letters. -/
theorem eq_or_isAlpha_of_toLower_eq {c d : Char} (h : c.toLower = d.toLower) :
    c = d ∨ c.isAlpha = true ∧ d.isAlpha = true := by
  have hnat : c.toLower.toNat = d.toLower.toNat := congrArg Char.toNat h
  rw [toNat_toLower, toNat_toLower] at hnat
  rw [isAlpha_iff, isAlpha_iff, ← Char.toNat_inj]
  split at hnat <;> split at hnat <;> omega

/-- Lower case changes letters only, and into letters. -/
theorem toLower_eq_or_isAlpha (c : Char) :
    c.toLower = c ∨ c.isAlpha = true ∧ c.toLower.isAlpha = true := by
  rw [← Char.toNat_inj, isAlpha_iff, isAlpha_iff, toNat_toLower]
  split <;> omega

/-- No ASCII letter is looked past by the rules for case. -/
theorem isCaseIgnorable_of_isAlpha {c : Char} (h : c.isAlpha = true) :
    isCaseIgnorable c = false := by
  have hupper : ∀ r ∈ caseIgnorableRanges, r.2 < 65 ∨ 90 < r.1 := by decide +kernel
  have hlower : ∀ r ∈ caseIgnorableRanges, r.2 < 97 ∨ 122 < r.1 := by decide +kernel
  unfold isCaseIgnorable
  rcases (isAlpha_iff c).mp h with ⟨hfirst, hlast⟩ | ⟨hfirst, hlast⟩
  · exact inRanges_eq_false hupper hfirst hlast
  · exact inRanges_eq_false hlower hfirst hlast

theorem isCased_of_isAlpha {c : Char} (h : c.isAlpha = true) : isCased c = true := by
  have hc := (isAlpha_iff c).mp h
  unfold isCased
  rw [if_pos (by omega), h]

theorem ne_sigma_of_isAlpha {c : Char} (h : c.isAlpha = true) : c ≠ 'Σ' := by
  rintro rfl
  exact absurd h (by decide)

theorem lowerChar_of_isAlpha {c : Char} (h : c.isAlpha = true) : lowerChar c = [c.toLower] := by
  have hc := (isAlpha_iff c).mp h
  unfold lowerChar
  rw [if_pos (by omega)]

namespace Text

/-! ### Texts that agree up to ASCII case -/

theorem leadsToCased_cons (c : Char) (cs : Text) :
    leadsToCased (c :: cs) = if isCaseIgnorable c then leadsToCased cs else isCased c := by
  unfold leadsToCased
  rw [List.dropWhile_cons]
  by_cases hc : isCaseIgnorable c = true
  · rw [if_pos hc, if_pos hc]
  · rw [if_neg hc, if_neg hc]

theorem leadsToCased_congr {s t : Text} (h : asciiLower s = asciiLower t) :
    leadsToCased s = leadsToCased t := by
  induction s generalizing t with
  | nil =>
      cases t with
      | nil => rfl
      | cons d ds => cases h
  | cons c cs ih =>
      cases t with
      | nil => cases h
      | cons d ds =>
          obtain ⟨hhead, htail⟩ := List.cons.inj h
          rw [leadsToCased_cons, leadsToCased_cons, ih htail]
          rcases eq_or_isAlpha_of_toLower_eq hhead with rfl | ⟨hc, hd⟩
          · rfl
          · rw [isCaseIgnorable_of_isAlpha hc, isCaseIgnorable_of_isAlpha hd,
              isCased_of_isAlpha hc, isCased_of_isAlpha hd]

theorem lowerAfter_congr {s t : Text} (cased : Bool) (h : asciiLower s = asciiLower t) :
    lowerAfter cased s = lowerAfter cased t := by
  induction s generalizing t cased with
  | nil =>
      cases t with
      | nil => rfl
      | cons d ds => cases h
  | cons c cs ih =>
      cases t with
      | nil => cases h
      | cons d ds =>
          obtain ⟨hhead, htail⟩ := List.cons.inj h
          unfold lowerAfter
          rcases eq_or_isAlpha_of_toLower_eq hhead with rfl | ⟨hc, hd⟩
          · rw [ih _ htail, leadsToCased_congr htail]
          · rw [if_neg (ne_sigma_of_isAlpha hc), if_neg (ne_sigma_of_isAlpha hd),
              lowerChar_of_isAlpha hc, lowerChar_of_isAlpha hd, hhead,
              isCaseIgnorable_of_isAlpha hc, isCaseIgnorable_of_isAlpha hd,
              isCased_of_isAlpha hc, isCased_of_isAlpha hd, ih _ htail]

/-- Texts that differ at most in the case of ASCII letters have the same lower case. -/
theorem lower_congr {s t : Text} (h : asciiLower s = asciiLower t) : lower s = lower t :=
  lowerAfter_congr false h

/-- **Two values are the same when their lower cases are**, blanks at the ends aside. -/
theorem sameValue_eq (s t : Text) : sameValue s t = (lower (trim s) == lower (trim t)) := by
  unfold sameValue sameIgnoringAsciiCase
  by_cases h : asciiLower (trim s) = asciiLower (trim t)
  · rw [beq_iff_eq.mpr h, beq_iff_eq.mpr (lower_congr h), Bool.true_or]
  · rw [beq_false_of_ne h, Bool.false_or]

/-! ### Lower case that is all ASCII -/

/-- On ASCII the two foldings are one. -/
theorem lowerAfter_of_ascii {t : Text} (cased : Bool) (h : ∀ c ∈ t, c.toNat < 128) :
    lowerAfter cased t = asciiLower t := by
  induction t generalizing cased with
  | nil => rfl
  | cons c cs ih =>
      have hc := h c List.mem_cons_self
      have hsigma : c ≠ 'Σ' := by
        rintro rfl
        exact absurd hc (by decide)
      have hchar : lowerChar c = [c.toLower] := by
        unfold lowerChar
        rw [if_pos hc]
      unfold lowerAfter
      rw [if_neg hsigma, hchar, ih _ fun d hd => h d (List.mem_cons_of_mem _ hd)]
      rfl

end Text

/-- An ASCII character that is the lower case of no character beyond ASCII. -/
def IsPlain (c : Char) : Prop :=
  c.toNat < 128 ∧ c ≠ 'k'

instance (c : Char) : Decidable (IsPlain c) :=
  inferInstanceAs (Decidable (c.toNat < 128 ∧ c ≠ 'k'))

/-- A run of the table leads beyond ASCII, clear of the surrogates, or is the Kelvin sign alone. -/
theorem lowerRuns_reach : ∀ run ∈ lowerRuns,
    128 ≤ run.first + run.distance ∧ run.last + run.distance < 0xD800 ∨
      0xE000 ≤ run.first + run.distance ∧ run.last + run.distance < 0x110000 ∨
        run.first = 0x212A ∧ run.last = 0x212A ∧ run.distance = -8383 := by
  decide +kernel

/-- The lower case of a character beyond ASCII is not plain. -/
theorem exists_not_isPlain {c : Char} (hc : 128 ≤ c.toNat) : ∃ d ∈ lowerChar c, ¬IsPlain d := by
  unfold lowerChar
  rw [if_neg (by omega)]
  by_cases hdotted : c.toNat = 0x130
  · rw [if_pos hdotted]
    exact ⟨Char.ofNat 0x307, by simp, by decide⟩
  · rw [if_neg hdotted]
    split
    · rename_i run hrun
      refine ⟨_, List.mem_singleton_self _, ?_⟩
      have hin := List.find?_some hrun
      rw [Bool.and_eq_true, Bool.and_eq_true, decide_eq_true_eq, decide_eq_true_eq] at hin
      have hvalue : ∀ n : Nat, 128 ≤ n → n.isValidChar → ¬IsPlain (Char.ofNat n) := by
        intro n hn hvalid hplain
        have hlt := hplain.1
        rw [toNat_ofNat hvalid] at hlt
        omega
      rcases lowerRuns_reach run (List.mem_of_find?_eq_some hrun) with
        h | h | ⟨hfirst, hlast, hdist⟩
      · exact hvalue _ (by omega) (Or.inl (by omega))
      · exact hvalue _ (by omega) (Or.inr (by omega))
      · have hkelvin : c.toNat = 0x212A := by omega
        rw [hkelvin, hdist]
        decide
    · exact ⟨c, List.mem_singleton_self _, fun h => by have := h.1; omega⟩

theorem lowerChar_of_isPlain {c : Char} (h : ∀ d ∈ lowerChar c, IsPlain d) :
    lowerChar c = [c.toLower] := by
  by_cases hc : c.toNat < 128
  · unfold lowerChar
    rw [if_pos hc]
  · obtain ⟨d, hd, hplain⟩ := exists_not_isPlain (c := c) (by omega)
    exact absurd (h d hd) hplain

namespace Text

theorem lowerAfter_of_isPlain {t : Text} {cased : Bool} (h : ∀ c ∈ lowerAfter cased t, IsPlain c) :
    lowerAfter cased t = asciiLower t := by
  induction t generalizing cased with
  | nil => rfl
  | cons c cs ih =>
      unfold lowerAfter at h ⊢
      by_cases hsigma : c = 'Σ'
      · -- both forms of the small sigma lie beyond ASCII
        rw [if_pos hsigma] at h
        have hhead := fun d hd => h d (List.mem_append_left _ hd)
        split at hhead
        · exact absurd (hhead 'ς' (by simp)) (by decide)
        · exact absurd (hhead 'σ' (by simp)) (by decide)
      · rw [if_neg hsigma] at h ⊢
        rw [lowerChar_of_isPlain fun d hd => h d (List.mem_append_left _ hd),
          ih fun d hd => h d (List.mem_append_right _ hd)]
        rfl

/-- A text whose lower case is plain has changed in the case of ASCII letters only. -/
theorem lower_of_isPlain {t : Text} (h : ∀ c ∈ lower t, IsPlain c) : lower t = asciiLower t :=
  lowerAfter_of_isPlain h

end Text

/-! ### Places in a table -/

/-- The form in which values are compared: without blanks at the ends and in lower case. -/
def folded (t : Text) : Text :=
  Text.lower (Text.trim t)

theorem sameValue_eq_folded (s t : Text) : Text.sameValue s t = (folded s == folded t) :=
  Text.sameValue_eq s t

/-- A table whose entries are written as they are compared, in plain characters. -/
def IsPlainTable (table : List Text) : Prop :=
  ∀ entry ∈ table, Text.trim entry = entry ∧ Text.asciiLower entry = entry ∧ ∀ c ∈ entry, IsPlain c

theorem lower_of_mem {table : List Text} (htable : IsPlainTable table) {entry : Text}
    (h : entry ∈ table) : Text.lower entry = entry := by
  obtain ⟨_, hascii, hplain⟩ := htable entry h
  exact (Text.lowerAfter_of_ascii false fun c hc => (hplain c hc).1).trans hascii

theorem folded_of_mem {table : List Text} (htable : IsPlainTable table) {entry : Text}
    (h : entry ∈ table) : folded entry = entry := by
  unfold folded
  rw [(htable entry h).1, lower_of_mem htable h]

/-- An entry matches a value up to ASCII case exactly when it is the folded value. -/
theorem sameIgnoringAsciiCase_entry {table : List Text} (htable : IsPlainTable table)
    {entry : Text} (h : entry ∈ table) (value : Text) :
    Text.sameIgnoringAsciiCase entry (Text.trim value) = (entry == folded value) := by
  obtain ⟨_, hascii, hplain⟩ := htable entry h
  unfold Text.sameIgnoringAsciiCase
  rw [hascii, Bool.eq_iff_iff, beq_iff_eq, beq_iff_eq]
  constructor
  · intro heq
    rw [← lower_of_mem htable h]
    exact Text.lower_congr (hascii.trans heq)
  · intro heq
    have hvalue : Text.lower (Text.trim value) = Text.asciiLower (Text.trim value) := by
      refine Text.lower_of_isPlain ?_
      show ∀ c ∈ folded value, IsPlain c
      rw [← heq]
      exact hplain
    rw [← hvalue]
    exact heq

/-- In a table of plain entries, a value has the place of its folded form. -/
theorem rank?_eq {table : List Text} (htable : IsPlainTable table) (value : Text) :
    rank? table value = table.findIdx? (· == folded value) := by
  unfold rank?
  induction table with
  | nil => rfl
  | cons entry rest ih =>
      rw [List.findIdx?_cons, List.findIdx?_cons,
        sameIgnoringAsciiCase_entry htable List.mem_cons_self,
        ih fun e he => htable e (List.mem_cons_of_mem _ he)]

/-- The entry at the place of a value is its folded form. -/
theorem getElem?_of_rank? {table : List Text} (htable : IsPlainTable table) {value : Text}
    {place : Nat} (h : rank? table value = some place) : table[place]? = some (folded value) := by
  rw [rank?_eq htable] at h
  obtain ⟨hlt, heq, _⟩ := List.findIdx?_eq_some_iff_getElem.mp h
  rw [List.getElem?_eq_getElem hlt, beq_iff_eq.mp heq]

theorem priority_isPlainTable : IsPlainTable Field.priority.tableValues := by
  have htrim : ∀ e ∈ Field.priority.tableValues, Text.trim e = e := by decide +kernel
  have hascii : ∀ e ∈ Field.priority.tableValues, Text.asciiLower e = e := by decide +kernel
  have hplain : ∀ e ∈ Field.priority.tableValues, e.all (fun c => decide (IsPlain c)) := by
    decide +kernel
  intro e he
  refine ⟨htrim e he, hascii e he, ?_⟩
  intro c hc
  exact of_decide_eq_true (List.all_eq_true.mp (hplain e he) c hc)

end TicketSearch
