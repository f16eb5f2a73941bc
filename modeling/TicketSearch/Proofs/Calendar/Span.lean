/-
Spans and the texts that they are read from.

A span is a minus sign, the digits of an amount and the letter of a unit, which may stand in either
case, and the amount is to be below the bound.  What has the shape of a span in a query is just such
a text.  Reading accepts one thing more: the amount is read as a number that may have a plus sign in
front (`readPlusNat?_eq_some_iff`), so that `-+7d` is read as seven days.

The letter is cut off as the last byte of the text.  The letters of the units are single bytes, so
that the cut never falls inside a character.
-/
import TicketSearch.Proofs.Case.Reading
import TicketSearch.Proofs.Writing.Literal

namespace TicketSearch

/-! ### Letters of units -/

/-- A letter stands for a unit when it is the letter of the unit in either case. -/
theorem DateUnit.ofLetter?_eq_some_iff {c : Char} {unit : DateUnit} :
    ofLetter? c = some unit ↔ c = unit.letter ∨ c = unit.letter.toUpper := by
  constructor
  · intro h
    have hmem := Lexeme.ofLetter?_isSome_iff.mp (Option.isSome_of_eq_some h)
    simp only [List.mem_cons, List.not_mem_nil, or_false] at hmem
    rcases hmem with rfl | rfl | rfl | rfl | rfl | rfl | rfl | rfl <;> cases h <;> decide
  · rintro (rfl | rfl) <;> cases unit <;> rfl

/-- The letters of the units are single bytes. -/
theorem DateUnit.utf8Size_of_ofLetter? {c : Char} {unit : DateUnit} (h : ofLetter? c = some unit) :
    c.utf8Size = 1 := by
  rcases ofLetter?_eq_some_iff.mp h with rfl | rfl <;> cases unit <;> rfl

namespace RelativeDate

/-- Whether a text is a minus sign, another sign or none, an amount in digits, and
the letter of a unit. -/
def IsWritten (sign : Text) (amount : Nat) (unit : DateUnit) (t : Text) : Prop :=
  ∃ digits letter, t = '-' :: (sign ++ digits ++ [letter]) ∧ IsDigits digits ∧
    digitsValue digits = amount ∧
    (letter = unit.letter ∨ letter = unit.letter.toUpper)

variable {t body : Text} {amount : Nat} {unit : DateUnit}

theorem of?_eq_some_iff {h : amount < amountBound} {n : Nat} {u : DateUnit} :
    of? n u = some ⟨amount, unit, h⟩ ↔ n = amount ∧ u = unit := by
  unfold of?
  constructor
  · intro heq
    split at heq
    · cases heq
      exact ⟨rfl, rfl⟩
    · cases heq
  · rintro ⟨rfl, rfl⟩
    rw [dif_pos h]

/-- **A span is read from its written form and from that with a plus sign, and
from nothing else.** -/
theorem read?_eq_some_iff {h : amount < amountBound} :
    read? t = some ⟨amount, unit, h⟩ ↔
      ∃ sign ∈ ([[], ['+']] : List Text), IsWritten sign amount unit t := by
  constructor
  · intro hread
    cases t with
    | nil => cases hread
    | cons c body =>
        rw [read?_cons] at hread
        split at hread
        · next hc =>
            obtain ⟨letter, hlast, hread⟩ := Option.bind_eq_some_iff.mp hread
            obtain ⟨u, hletter, hread⟩ := Option.bind_eq_some_iff.mp hread
            obtain ⟨n, hamount, hof⟩ := Option.bind_eq_some_iff.mp hread
            obtain ⟨rfl, rfl⟩ := of?_eq_some_iff.mp hof
            obtain ⟨front, rfl⟩ := List.getLast?_eq_some_iff.mp hlast
            rw [List.dropLast_concat] at hamount
            obtain ⟨sign, hsign, digits, rfl, hdigits, hvalue⟩ :=
              readPlusNat?_eq_some_iff.mp hamount
            exact ⟨sign, hsign, digits, letter, by rw [hc], hdigits, hvalue,
              DateUnit.ofLetter?_eq_some_iff.mp hletter⟩
        · cases hread
  · rintro ⟨sign, hsign, digits, letter, rfl, hdigits, hvalue, hletter⟩
    have hamount := readPlusNat?_eq_some_iff.mpr ⟨sign, hsign, digits, rfl, hdigits, hvalue⟩
    rw [read?_cons, if_pos rfl, List.getLast?_concat, Option.bind_some,
      DateUnit.ofLetter?_eq_some_iff.mpr hletter, Option.bind_some, List.dropLast_concat, hamount,
      Option.bind_some]
    exact of?_eq_some_iff.mpr ⟨rfl, rfl⟩

/-- What has the shape of a span in a query is written without a plus sign. -/
theorem isRelativeShaped_iff_isWritten :
    Lexeme.isRelativeShaped t = true ↔ ∃ amount unit, IsWritten [] amount unit t := by
  rw [Lexeme.isRelativeShaped_iff]
  constructor
  · rintro ⟨digits, letter, rfl, hdigits, hletter⟩
    obtain ⟨unit, hunit⟩ := Option.isSome_iff_exists.mp hletter
    exact ⟨digitsValue digits, unit, digits, letter, rfl, hdigits, rfl,
      DateUnit.ofLetter?_eq_some_iff.mp hunit⟩
  · rintro ⟨_, unit, digits, letter, rfl, hdigits, _, hletter⟩
    exact ⟨digits, letter, rfl, hdigits,
      Option.isSome_of_eq_some (DateUnit.ofLetter?_eq_some_iff.mpr hletter)⟩

/-- A text with the plus sign is no written form. -/
theorem not_isWritten_of_plus {amount' : Nat} {unit' : DateUnit}
    (h : IsWritten ['+'] amount unit t) : ¬IsWritten [] amount' unit' t := by
  rintro ⟨digits', _, ht', hdigits', _⟩
  obtain ⟨digits, letter, rfl, _⟩ := h
  obtain ⟨c, cs, rfl, hc⟩ := hdigits'.exists_cons
  obtain ⟨rfl, _⟩ := List.cons.inj (List.cons.inj ht').2
  cases hc

/-- The letter of a unit at the end of a text is cut off between two characters. -/
theorem before?_letter {letter : Char} (hlast : body.getLast? = some letter)
    (hletter : DateUnit.ofLetter? letter = some unit) :
    body.before? (Text.byteLength body - 1) = some body.dropLast := by
  obtain ⟨front, rfl⟩ := List.getLast?_eq_some_iff.mp hlast
  have hsize := DateUnit.utf8Size_of_ofLetter? hletter
  have hcut : Text.byteLength (front ++ [letter]) - 1 = Text.byteLength front := by
    rw [Text.byteLength_append, Text.byteLength_cons, Text.byteLength_nil, hsize]
    omega
  unfold Text.before?
  rw [hcut, Text.splitAtByte?_append, List.dropLast_concat]
  rfl

/--
**What is read as a span.**  A text is read as an amount of a unit exactly when the amount is in
range and the text is a minus sign, the amount in digits, and the letter of the unit in either
case, or this with a plus sign in front of the digits.  So nothing but the written forms is read
from a text exactly when it is none with the plus sign; the written forms are those that stand as
a span in a query.  Behind the minus sign, where the last character is the letter of a unit,
cutting off the last byte leaves the characters before it.  Every span is read back from its
written form.
-/
theorem read?_accepts (t : Text) :
    (∀ amount unit, (∃ h, read? t = some ⟨amount, unit, h⟩) ↔
      amount < UInt32.size ∧ (IsWritten [] amount unit t ∨ IsWritten ['+'] amount unit t)) ∧
    ((∀ amount unit, (∃ h, read? t = some ⟨amount, unit, h⟩) ↔
      amount < UInt32.size ∧ IsWritten [] amount unit t) ↔
        ¬∃ amount unit, amount < UInt32.size ∧ IsWritten ['+'] amount unit t) ∧
    (Lexeme.isRelativeShaped t = true ↔ ∃ amount unit, IsWritten [] amount unit t) ∧
    (∀ (body : Text) (letter : Char) (unit : DateUnit), t = '-' :: body →
      body.getLast? = some letter →
      DateUnit.ofLetter? letter = some unit →
        body.before? (Text.byteLength body - 1) = some body.dropLast) ∧
    ∀ r : RelativeDate, t = r.write → read? t = some r := by
  have hread : ∀ amount unit, (∃ h, read? t = some ⟨amount, unit, h⟩) ↔
      amount < UInt32.size ∧ (IsWritten [] amount unit t ∨ IsWritten ['+'] amount unit t) := by
    intro amount unit
    have hsigns : (∃ sign ∈ ([[], ['+']] : List Text), IsWritten sign amount unit t) ↔
        IsWritten [] amount unit t ∨ IsWritten ['+'] amount unit t := by
      simp only [List.mem_cons, List.not_mem_nil, or_false, exists_eq_or_imp, exists_eq_left]
    constructor
    · rintro ⟨h, hread⟩
      exact ⟨h, hsigns.mp (read?_eq_some_iff.mp hread)⟩
    · rintro ⟨h, hwritten⟩
      exact ⟨h, read?_eq_some_iff.mpr (hsigns.mpr hwritten)⟩
  refine ⟨hread, ⟨?_, fun hplus amount unit => ?_⟩, isRelativeShaped_iff_isWritten,
    fun _ _ _ _ => before?_letter, ?_⟩
  · rintro hplain ⟨amount, unit, hrange, hplus⟩
    have hwritten := (hplain amount unit).mp ((hread amount unit).mpr ⟨hrange, Or.inr hplus⟩)
    exact not_isWritten_of_plus hplus hwritten.2
  · rw [hread]
    refine and_congr_right fun hrange => or_iff_left fun hwritten => ?_
    exact hplus ⟨amount, unit, hrange, hwritten⟩
  · rintro r rfl
    exact read?_write r

/-- Zeros and a capital letter do not matter, and the letter is cut off behind
one of two bytes too. -/
theorem read?_accepts_of_zeros :
    (∃ h, read? "-007W" = some ⟨7, .week, h⟩) ∧
      Text.before? "7éW" (Text.byteLength "7éW" - 1) = some ("7é" : Text) ∧
      read? "-4294967295y" = some ⟨4294967295, .year, by decide⟩ := by
  have hdigits : IsDigits "007" := ⟨by decide, (allDigits_iff _).mp rfl⟩
  obtain ⟨hread, _⟩ := read?_accepts "-007W"
  obtain ⟨_, _, _, hcut, _⟩ := read?_accepts "-7éW"
  obtain ⟨_, _, _, _, hback⟩ := read?_accepts "-4294967295y"
  refine ⟨(hread 7 .week).mpr ⟨by decide, Or.inl ⟨"007", 'W', rfl, hdigits, rfl, Or.inr rfl⟩⟩, ?_,
    ?_⟩
  · exact hcut "7éW" 'W' .week rfl rfl rfl
  · exact hback ⟨4294967295, .year, by decide⟩ (by decide)

/-- Seven days are also read from a text that is no written form of any span. -/
theorem read?_accepts_plus :
    read? "-+7d" = some ⟨7, .day, by decide⟩ ∧ ¬∃ amount unit, IsWritten [] amount unit "-+7d" := by
  refine ⟨by decide, ?_⟩
  rw [← isRelativeShaped_iff_isWritten]
  decide

end RelativeDate

end TicketSearch
