/-
Lower case of the beginning of a text.

Lower case is taken from left to right, so that it should be enough to have the beginning of a
text to know the beginning of its lower case.  It is, but for one rule that looks ahead: a capital
sigma at the end of a word becomes another letter than one within.  A beginning that breaks off
behind a sigma, in the middle of a word, has it at the end of a word (`BreaksAtSigma`), and then,
and only then, its lower case is no beginning of the whole lower case (`lower_isPrefix_iff`).
-/
import Mathlib.Data.List.Induction
import TicketSearch.Proofs.Case

namespace TicketSearch

namespace Text

/-- Whether the last character that case does not ignore is cased, where `cased` tells
it of what comes before. -/
def endsCased (cased : Bool) (t : Text) : Bool :=
  t.foldl (fun cased c => if isCaseIgnorable c then cased else isCased c) cased

/-- Read from its end, a text leads to a cased character when it ends in one. -/
theorem endsCased_eq_reverse (t : Text) : endsCased false t = leadsToCased t.reverse := by
  induction t using List.reverseRecOn with
  | nil => rfl
  | append_singleton t c ih =>
      rw [List.reverse_append, List.reverse_singleton, List.singleton_append, leadsToCased_cons,
        ← ih]
      exact List.foldl_append

theorem leadsToCased_of_ignorable {x : Text} (hx : ∀ c ∈ x, isCaseIgnorable c = true) (y : Text) :
    leadsToCased (x ++ y) = leadsToCased y := by
  induction x with
  | nil => rfl
  | cons c x ih =>
      obtain ⟨hc, hx⟩ := List.forall_mem_cons.mp hx
      rw [List.cons_append, leadsToCased_cons, if_pos hc, ih hx]

theorem leadsToCased_eq_false {x : Text} (hx : ∀ c ∈ x, isCaseIgnorable c = true) :
    leadsToCased x = false := by
  have hx := leadsToCased_of_ignorable hx []
  rwa [List.append_nil] at hx

/-- What comes behind a character that case does not ignore is not looked at. -/
theorem leadsToCased_of_not_ignorable {x : Text} (hx : ¬∀ c ∈ x, isCaseIgnorable c = true)
    (y : Text) : leadsToCased (x ++ y) = leadsToCased x := by
  induction x with
  | nil => exact absurd (List.forall_mem_nil _) hx
  | cons c x ih =>
      rw [List.cons_append, leadsToCased_cons, leadsToCased_cons]
      by_cases hc : isCaseIgnorable c = true
      · rw [if_pos hc, if_pos hc]
        exact ih fun hall => hx (List.forall_mem_cons.mpr ⟨hc, hall⟩)
      · rw [if_neg hc, if_neg hc]

/-- A beginning with a capital sigma at the end of a word that goes on in the rest, up
to what case ignores. -/
def BreaksAfter (cased : Bool) (beginning rest : Text) : Prop :=
  ∃ a b, beginning = a ++ 'Σ' :: b ∧ endsCased cased a = true ∧
    (∀ c ∈ b, isCaseIgnorable c = true) ∧ leadsToCased rest = true

variable {cased : Bool} {c : Char} {cs r : Text}

/-- The sigma is the first character, or it comes later. -/
theorem breaksAfter_cons :
    BreaksAfter cased (c :: cs) r ↔
      (c = 'Σ' ∧ cased = true ∧ (∀ d ∈ cs, isCaseIgnorable d = true) ∧ leadsToCased r = true) ∨
        BreaksAfter (if isCaseIgnorable c then cased else isCased c) cs r := by
  constructor
  · rintro ⟨a, b, heq, ha, hb, hr⟩
    cases a with
    | nil =>
        obtain ⟨rfl, rfl⟩ := List.cons.inj heq
        exact Or.inl ⟨rfl, ha, hb, hr⟩
    | cons d a =>
        obtain ⟨rfl, rfl⟩ := List.cons.inj heq
        exact Or.inr ⟨a, b, rfl, ha, hb, hr⟩
  · rintro (⟨rfl, hcased, hcs, hr⟩ | ⟨a, b, rfl, ha, hb, hr⟩)
    · exact ⟨[], cs, rfl, hcased, hcs, hr⟩
    · exact ⟨c :: a, b, rfl, ha, hb, hr⟩

/-- A sigma after which the beginning does not break off is at the end of a word
in both or in neither. -/
theorem final_append
    (h : ¬(cased = true ∧ (∀ d ∈ cs, isCaseIgnorable d = true) ∧ leadsToCased r = true)) :
    (cased && !leadsToCased (cs ++ r)) = (cased && !leadsToCased cs) := by
  cases hcased : cased with
  | false => rfl
  | true =>
      by_cases hcs : ∀ d ∈ cs, isCaseIgnorable d = true
      · have hr : leadsToCased r = false := eq_false_of_ne_true fun hr => h ⟨hcased, hcs, hr⟩
        rw [leadsToCased_of_ignorable hcs, leadsToCased_eq_false hcs, hr]
      · rw [leadsToCased_of_not_ignorable hcs]

theorem lowerAfter_isPrefix_iff (cased : Bool) (p r : Text) :
    lowerAfter cased p <+: lowerAfter cased (p ++ r) ↔ ¬BreaksAfter cased p r := by
  induction p generalizing cased with
  | nil =>
      refine iff_of_true List.nil_prefix ?_
      rintro ⟨a, b, heq, _⟩
      exact List.append_ne_nil_of_right_ne_nil a (List.cons_ne_nil _ _) heq.symm
  | cons c cs ih =>
      rw [breaksAfter_cons, List.cons_append, lowerAfter, lowerAfter]
      by_cases hbreaks : c = 'Σ' ∧ cased = true ∧ (∀ d ∈ cs, isCaseIgnorable d = true) ∧
        leadsToCased r = true
      · -- the sigma ends a word in the beginning alone
        refine iff_of_false (fun hprefix => ?_) (not_not_intro (Or.inl hbreaks))
        obtain ⟨rfl, rfl, hcs, hr⟩ := hbreaks
        have hends : (true && !leadsToCased cs) = true := by
          rw [leadsToCased_eq_false hcs]
          rfl
        have hgoes : (true && !leadsToCased (cs ++ r)) = false := by
          rw [leadsToCased_of_ignorable hcs, hr]
          rfl
        rw [hends, hgoes, if_pos rfl, if_pos rfl, if_pos rfl, if_neg Bool.false_ne_true] at hprefix
        have hsigma : 'ς' = 'σ' := (List.cons_prefix_cons.mp hprefix).1
        exact absurd hsigma (by decide)
      · have hhead :
            (if c = 'Σ' then (if cased && !leadsToCased (cs ++ r) then ['ς'] else ['σ'])
              else lowerChar c) =
            if c = 'Σ' then (if cased && !leadsToCased cs then ['ς'] else ['σ'])
            else lowerChar c := by
          by_cases hsigma : c = 'Σ'
          · rw [if_pos hsigma, if_pos hsigma, final_append fun h => hbreaks ⟨hsigma, h⟩]
          · rw [if_neg hsigma, if_neg hsigma]
        rw [hhead, List.prefix_append_right_inj, ih, or_iff_right hbreaks]

/--
A beginning of a text breaks off within a word, behind a capital sigma: a cased character comes
before the sigma and one comes in the rest, up to characters that case ignores.
-/
def BreaksAtSigma (beginning rest : Text) : Prop :=
  ∃ a b, beginning = a ++ 'Σ' :: b ∧ leadsToCased a.reverse = true ∧
    (∀ c ∈ b, isCaseIgnorable c = true) ∧ leadsToCased rest = true

/-- **Lower case of a beginning is a beginning of the lower case**, unless it
breaks off at a sigma. -/
theorem lower_isPrefix_iff (p r : Text) : lower p <+: lower (p ++ r) ↔ ¬BreaksAtSigma p r := by
  have hbreaks : BreaksAfter false p r ↔ BreaksAtSigma p r := by
    unfold BreaksAfter BreaksAtSigma
    simp only [endsCased_eq_reverse]
  rw [← hbreaks]
  exact lowerAfter_isPrefix_iff false p r

end Text

end TicketSearch
