/-
Equality of names in natural order.

Natural order is no order on all names (`Proofs.Order`), but the equality that goes with it is
one on all of them.  A name denotes the text and the number of its series, or its own folded text
when it has no number, and two names are equal exactly when they denote the same
(`naturalOrder_eq_iff_denoted`).  The two comparisons of natural order do not get in each other's
way here: a name is taken apart by its folded text alone, so names of one folded text are of one
series or of none.

Of names of one series nothing counts but the numbers.  That is said from the outside too: a text
that does not end in a digit, any blanks and any digits make up a name, and it is taken apart into
just these (`NumberedName.of_append`), when the number fits into 64 bits.
-/
import TicketSearch.Proofs.Calendar.Written
import TicketSearch.Proofs.Case.Equality
import TicketSearch.Proofs.Trichotomy

namespace TicketSearch

variable {a b : Text}

/-! ### What a name denotes -/

/-- The text and the number of a series, or the folded text of a name without a number. -/
def denoted (a : Text) : (Text × Nat) ⊕ Text :=
  match (NumberedName.of a).number with
  | some n => .inl ((NumberedName.of a).stem, n)
  | none => .inr (folded a)

theorem denoted_of_folded (h : folded a = folded b) : denoted a = denoted b := by
  unfold denoted
  rw [NumberedName.of_congr h, h]

/-- Names of one series denote the same when they have the same number. -/
theorem SameSeries.denoted_eq_iff (h : SameSeries a b) :
    denoted a = denoted b ↔ seriesNumber a = seriesNumber b := by
  obtain ⟨m, hm⟩ := Option.isSome_iff_exists.mp h.left
  obtain ⟨n, hn⟩ := Option.isSome_iff_exists.mp h.right
  simp only [denoted, seriesNumber, hm, hn, h.stem, Option.getD_some, Sum.inl.injEq, Prod.mk.injEq,
    true_and]

/-- Other names denote the same when they have the same text. -/
theorem denoted_eq_iff_folded (h : ¬SameSeries a b) :
    denoted a = denoted b ↔ folded a = folded b := by
  refine ⟨fun hdenoted => ?_, denoted_of_folded⟩
  unfold denoted at hdenoted
  split at hdenoted
  · next m hm =>
      split at hdenoted
      · next n hn =>
          have hstem := (Prod.mk.inj (Sum.inl.inj hdenoted)).1
          exact absurd ⟨Option.isSome_of_eq_some hm, Option.isSome_of_eq_some hn, hstem⟩ h
      · cases hdenoted
  · split at hdenoted
    · cases hdenoted
    · exact Sum.inr.inj hdenoted

/-- **Names are equal in natural order exactly when they denote the same.** -/
theorem naturalOrder_eq_iff_denoted : naturalOrder a b = .eq ↔ denoted a = denoted b := by
  by_cases h : SameSeries a b
  · rw [naturalOrder_of_sameSeries h, Nat.compare_eq_eq, h.denoted_eq_iff]
  · rw [naturalOrder_of_not_sameSeries h, Std.compare_eq_iff_eq, denoted_eq_iff_folded h]

theorem naturalOrder_equivalence : Equivalence fun a b => naturalOrder a b = .eq := by
  constructor
  · intro a
    rw [naturalOrder_eq_iff_denoted]
  · intro a b h
    rw [naturalOrder_eq_iff_denoted] at h ⊢
    exact h.symm
  · intro a b c h h'
    rw [naturalOrder_eq_iff_denoted] at h h' ⊢
    exact h.trans h'

/-! ### Names put together -/

namespace Text

/-- Digits behind a text keep the blanks at its end. -/
theorem trim_append_digits {digits : Text} (h : IsDigits digits) (t : Text) :
    trim (t ++ digits) = trimStart t ++ digits := by
  have hstart : trimStart (t ++ digits) = trimStart t ++ digits := by
    unfold trimStart
    rw [List.dropWhile_append]
    split
    · next hnil =>
        have hdigits := trimStart_append h.digits h.ne_nil []
        rw [List.append_nil] at hdigits
        rw [List.isEmpty_iff.mp hnil]
        exact hdigits
    · rfl
  have hend : trimEnd (trimStart t ++ digits) = trimStart t ++ digits := by
    refine List.rdropWhile_eq_self_iff.mpr fun hne => ?_
    rw [List.getLast_append_of_ne_nil hne h.ne_nil,
      isBlank_of_isDigit (h.digits _ (List.getLast_mem h.ne_nil))]
    exact Bool.false_ne_true
  unfold trim
  rw [hstart, hend]

/-- Blanks behind a text are trimmed. -/
theorem trim_append_blanks {gap : Text} (h : ∀ c ∈ gap, isBlank c = true) (t : Text) :
    trim (t ++ gap) = trim t := by
  unfold trim trimStart
  rw [List.dropWhile_append]
  split
  · next hnil =>
      rw [List.isEmpty_iff.mp hnil, List.dropWhile_eq_nil_iff.mpr h]
  · exact Caseless.rdropWhile_append h _

end Text

/-- A name is taken apart into the text and the digits that it is made of. -/
theorem NumberedName.of_append {stem digits : Text} (hstem : stem.getLast?.any Char.isDigit = false)
    (hdigits : IsDigits digits) (hfits : digitsValue digits < UInt64.size) :
    of (stem ++ digits) = ⟨folded stem, some (digitsValue digits)⟩ := by
  have hlast : (Text.trimStart stem).rtakeWhile Char.isDigit = [] := by
    refine List.rtakeWhile_eq_nil_iff.mpr fun hne => ?_
    have hsuffix : Text.trimStart stem <:+ stem := List.dropWhile_suffix _
    rw [List.getLast?_eq_some_getLast (hsuffix.ne_nil hne), Option.any_some] at hstem
    rw [hsuffix.getLast hne, hstem]
    exact Bool.false_ne_true
  have hend : digitsAtEnd (Text.trimStart stem ++ digits) = digits := by
    have htake := Caseless.rtakeWhile_append hdigits.digits (Text.trimStart stem)
    rw [hlast] at htake
    exact htake
  unfold of
  simp only [Text.trim_append_digits hdigits, hend, if_neg hdigits.ne_nil, if_pos hfits,
    List.length_append, Nat.add_sub_cancel, List.take_left]
  rfl

/-- Whether a name is a text that does not end in a digit, blanks, zeros and the digits
of a number of 64 bits. -/
structure IsNumbered (name stem digits : Text) : Prop where
  stem_end : stem.getLast?.any Char.isDigit = false
  isDigits : IsDigits digits
  fits : digitsValue digits < UInt64.size
  written : ∃ gap zeros, (∀ c ∈ gap, isBlank c = true) ∧
    name = stem ++ gap ++ (List.replicate zeros '0' ++ digits)

namespace IsNumbered

variable {name other stem stem' digits digits' : Text}

/-- The blanks and the zeros do not count. -/
theorem of_eq (h : IsNumbered name stem digits) :
    NumberedName.of name = ⟨folded stem, some (digitsValue digits)⟩ := by
  obtain ⟨gap, zeros, hgap, rfl⟩ := h.written
  have hfront : (stem ++ gap).getLast?.any Char.isDigit = false := by
    rw [List.getLast?_append]
    cases hlast : gap.getLast? with
    | none => exact h.stem_end
    | some c => exact isDigit_of_isBlank (hgap c (List.mem_of_getLast? hlast))
  have hvalue := digitsValue_zeros_append zeros digits
  have hall : IsDigits (List.replicate zeros '0' ++ digits) :=
    ⟨List.append_ne_nil_of_right_ne_nil _ h.isDigits.ne_nil,
      (zeros_allDigits zeros).append h.isDigits.digits⟩
  have hfolded : folded (stem ++ gap) = folded stem := by
    unfold folded
    rw [Text.trim_append_blanks hgap]
  rw [NumberedName.of_append hfront hall (by rw [hvalue]; exact h.fits), hfolded, hvalue]

/-- **Names of one text are ordered by their numbers.** -/
theorem naturalOrder_eq (h : IsNumbered name stem digits) (h' : IsNumbered other stem' digits')
    (hstem : Text.sameValue stem stem' = true) :
    naturalOrder name other = compare (digitsValue digits) (digitsValue digits') := by
  have hseries : SameSeries name other := by
    constructor
    · rw [h.of_eq]
      rfl
    · rw [h'.of_eq]
      rfl
    · rw [h.of_eq, h'.of_eq]
      exact Text.sameValue_iff.mp hstem
  rw [naturalOrder_of_sameSeries hseries, seriesNumber, seriesNumber, h.of_eq, h'.of_eq]
  rfl

end IsNumbered

/--
**Equality in natural order is an equality of all names.**  It is an equivalence, and names that
are the same value are equal in it.  It is what `=` asks of a sprint, as the other signs ask for
the order.  Names made up of one text, up to blanks and case, and of numbers of 64 bits are
ordered by the numbers, whatever blanks and zeros stand in front of these.
-/
theorem naturalOrder_equality :
    (Equivalence fun a b => naturalOrder a b = .eq) ∧
    (∀ a b, Text.sameValue a b = true → naturalOrder a b = .eq) ∧
    (∀ (row : Row) (name : Text), row .sprint = .text name → (Text.trim name).isEmpty = false →
      ∀ (op : Comparison) (value : Literal) (now : Instant),
        (Query.compare .sprint op value).eval row now = op.accepts (naturalOrder name value.text)) ∧
    ∀ name other stem stem' digits digits' : Text, IsNumbered name stem digits →
      IsNumbered other stem' digits' → Text.sameValue stem stem' = true →
        naturalOrder name other = compare (digitsValue digits) (digitsValue digits') := by
  refine ⟨naturalOrder_equivalence, fun a b hsame => ?_, fun _ _ => Query.eval_compare_sprint,
    fun _ _ _ _ _ _ => IsNumbered.naturalOrder_eq⟩
  exact naturalOrder_of_folded (Text.sameValue_iff.mp hsame)

/-- A final sigma stays one at the end, in front of blanks and of digits; and a ticket is
found by either name. -/
theorem naturalOrder_equality_of_sigma :
    naturalOrder "ΟΔΟΣ " "οδος" = .eq ∧ naturalOrder "ΟΔΟΣ 010" "οδος10" = .eq ∧
      naturalOrder "οδος10" " Οδος\t10" = .eq ∧ naturalOrder "ΟΔΟΣ 010" " Οδος\t10" = .eq ∧
      ∀ now, (Query.compare .sprint .eq (.quoted "οδος10")).eval
        (Ticket.ofSprint "ΟΔΟΣ 010").row now = true := by
  obtain ⟨hequivalence, hsame, heval, hnumbers⟩ := naturalOrder_equality
  have hten : IsDigits "10" := ⟨by decide, (allDigits_iff _).mp rfl⟩
  have hcapital : IsNumbered "ΟΔΟΣ 010" "ΟΔΟΣ" "10" :=
    ⟨rfl, hten, by decide, [' '], 1, List.forall_mem_singleton.mpr rfl, rfl⟩
  have hsmall : IsNumbered "οδος10" "οδος" "10" :=
    ⟨rfl, hten, by decide, [], 0, List.forall_mem_nil _, rfl⟩
  have htab : IsNumbered " Οδος\t10" " Οδος" "10" :=
    ⟨rfl, hten, by decide, ['\t'], 0, List.forall_mem_singleton.mpr rfl, rfl⟩
  have hfirst := hnumbers _ _ _ _ _ _ hcapital hsmall (by decide +kernel)
  have hsecond := hnumbers _ _ _ _ _ _ hsmall htab (by decide +kernel)
  refine ⟨hsame _ _ (by decide +kernel), hfirst, hsecond, hequivalence.trans hfirst hsecond,
    fun now => ?_⟩
  rw [heval (Ticket.ofSprint "ΟΔΟΣ 010").row "ΟΔΟΣ 010" rfl (by decide +kernel) .eq
    (.quoted "οδος10") now]
  exact congrArg Comparison.eq.accepts hfirst

end TicketSearch
