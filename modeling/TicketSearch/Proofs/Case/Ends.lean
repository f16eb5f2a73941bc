/-
Lower case at the two ends of a text.

Lower case goes from left to right and never makes a text empty, so the first character of
a lower case comes from the first character of the text.  A class of characters that single
lower cases neither leave nor enter is therefore kept at the head (`head?_lower`).  For a
class without case even the run of its characters is kept, at the start as at the end, so
that a text can be trimmed before or after lower case is taken (`Text.trim_lower`), and a
lower case without blanks at its ends can only come from a text without them.
-/
import TicketSearch.Proofs.Case.Caseless

namespace TicketSearch

open Text (lower lowerAfter)

variable {p : Char → Bool}

theorem lowerChar_sigma : lowerChar 'Σ' = ['σ'] := by
  decide +kernel

/-- At the start of a text a character has the lower case that it has on its own. -/
theorem lower_cons (c : Char) (cs : Text) :
    lower (c :: cs) =
      lowerChar c ++ lowerAfter (if isCaseIgnorable c then false else isCased c) cs := by
  rw [lower, lowerAfter]
  congr 1
  by_cases hsigma : c = 'Σ'
  · rw [if_pos hsigma, hsigma, lowerChar_sigma, Bool.false_and, if_neg Bool.false_ne_true]
  · rw [if_neg hsigma]

/-- A class that the lower case of a single character keeps is kept at the head of a text. -/
theorem head?_lower (h : ∀ c, (lowerChar c).head?.map p = some (p c)) (t : Text) :
    (lower t).head?.map p = t.head?.map p := by
  cases t with
  | nil => rfl
  | cons c cs =>
      rw [lower_cons, List.head?_append_of_ne_nil _ (lowerChar_ne_nil c)]
      exact h c

namespace Caseless

theorem head?_lowerChar (hp : Caseless p) (c : Char) : (lowerChar c).head?.map p = some (p c) := by
  cases hc : p c with
  | true =>
      rw [(hp.kept c hc).1]
      exact congrArg some hc
  | false =>
      obtain ⟨d, ds, hlower⟩ := List.exists_cons_of_ne_nil (lowerChar_ne_nil c)
      rw [hlower]
      exact congrArg some (hp.notMade c hc d (by rw [hlower]; exact List.mem_cons_self))

/-- The run of a class without case at the start of a text is the run at the
start of its lower case. -/
theorem lower_dropWhile (hp : Caseless p) (t : Text) :
    (lower t).dropWhile p = lower (t.dropWhile p) ∧ (lower t).takeWhile p = t.takeWhile p := by
  induction t with
  | nil => exact ⟨rfl, rfl⟩
  | cons c cs ih =>
      cases hc : p c with
      | true =>
          obtain ⟨hignorable, hcased⟩ := hp.seen c hc
          have hlower : lower (c :: cs) = c :: lower cs := by
            rw [lower_cons, (hp.kept c hc).1, hignorable, if_neg Bool.false_ne_true, hcased]
            rfl
          rw [hlower, List.dropWhile_cons_of_pos hc, List.dropWhile_cons_of_pos hc,
            List.takeWhile_cons_of_pos hc, List.takeWhile_cons_of_pos hc, ih.1, ih.2]
          exact ⟨rfl, rfl⟩
      | false =>
          have hneg : ¬p c = true := by
            rw [hc]
            exact Bool.false_ne_true
          obtain ⟨d, ds, hlower⟩ :=
            List.exists_cons_of_ne_nil (Text.lower_ne_nil (List.cons_ne_nil c cs))
          have hd : ¬p d = true := by
            have hhead := head?_lower hp.head?_lowerChar (c :: cs)
            rw [hlower, List.head?_cons, List.head?_cons, Option.map_some, Option.map_some, hc,
              Option.some.injEq] at hhead
            rw [hhead]
            exact Bool.false_ne_true
          rw [List.dropWhile_cons_of_neg hneg, List.takeWhile_cons_of_neg hneg, hlower,
            List.dropWhile_cons_of_neg hd, List.takeWhile_cons_of_neg hd]
          exact ⟨rfl, rfl⟩

end Caseless

namespace Text

/-- A text can be trimmed before or after lower case is taken. -/
theorem trim_lower (t : Text) : trim (lower t) = lower (trim t) := by
  have hstart : trimStart (lower t) = lower (trimStart t) := (Caseless.isBlank.lower_dropWhile t).1
  have hend : trimEnd (lower (trimStart t)) = lower (trimEnd (trimStart t)) :=
    (Caseless.isBlank.lower_rdropWhile (trimStart t)).1
  show trimEnd (trimStart (lower t)) = _
  rw [hstart, hend]
  rfl

/-- A text is what stays of it when trimmed, with blanks around; so is its lower case,
with the same blanks. -/
theorem exists_blanks (t : Text) :
    ∃ front back : Text, t = front ++ trim t ++ back ∧
      lower t = front ++ lower (trim t) ++ back := by
  have hend := Caseless.isBlank.lower_rdropWhile (trimStart t)
  have hstart := Caseless.isBlank.lower_dropWhile t
  refine ⟨t.takeWhile isBlank, (trimStart t).rtakeWhile isBlank, ?_, ?_⟩
  · have hback : trim t ++ (trimStart t).rtakeWhile isBlank = trimStart t :=
      List.rdropWhile_append_rtakeWhile
    rw [List.append_assoc, hback]
    exact List.takeWhile_append_dropWhile.symm
  · have hback : lower (trim t) ++ (trimStart t).rtakeWhile isBlank = lower (trimStart t) := by
      rw [← hend.2]
      show lower (trimEnd (trimStart t)) ++ _ = _
      rw [show lower (trimEnd (trimStart t)) =
        (lower (trimStart t)).rdropWhile isBlank from hend.1.symm]
      exact List.rdropWhile_append_rtakeWhile
    rw [List.append_assoc, hback, ← hstart.2]
    show lower t = _ ++ lower (t.dropWhile isBlank)
    rw [← hstart.1]
    exact List.takeWhile_append_dropWhile.symm

/-- A lower case without blanks at its ends comes from a text without them. -/
theorem trim_eq_of_lower {t : Text} (h : trim (lower t) = lower t) : trim t = t := by
  obtain ⟨front, back, ht, hlower⟩ := exists_blanks t
  rw [trim_lower] at h
  have hlength := congrArg List.length hlower
  rw [← h, List.length_append, List.length_append] at hlength
  have hfront : front = [] := List.eq_nil_of_length_eq_zero (by omega)
  have hback : back = [] := List.eq_nil_of_length_eq_zero (by omega)
  rw [hfront, hback, List.nil_append, List.append_nil] at ht
  exact ht.symm

end Text

end TicketSearch
