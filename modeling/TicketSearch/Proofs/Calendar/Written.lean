/-
Days and spans read back from their written forms.

A number is written in digits that denote it, and `takeDigits?` takes exactly the digits
that were written.  So a day with a year of four digits has the shape of a date and is
read back; and whatever text of that shape is read, the day has such a year.  A span is
read back whatever its amount.
-/
import Mathlib.Data.List.TakeWhile
import TicketSearch.Calendar.Written
import TicketSearch.Token.Lexeme
import TicketSearch.Proofs.Calendar.Civil
import TicketSearch.Proofs.Character

namespace TicketSearch

/-! ### Digits -/

/-- Whether a text is made of decimal digits. -/
def AllDigits (t : Text) : Prop :=
  ∀ c ∈ t, c.isDigit = true

/-- Digits, at least one. -/
structure IsDigits (t : Text) : Prop where
  ne_nil : t ≠ []
  digits : AllDigits t

theorem IsDigits.exists_cons {t : Text} (h : IsDigits t) :
    ∃ c cs, t = c :: cs ∧ c.isDigit = true := by
  obtain ⟨c, cs, rfl⟩ := List.exists_cons_of_ne_nil h.ne_nil
  exact ⟨c, cs, rfl, h.digits c List.mem_cons_self⟩

theorem AllDigits.append {s t : Text} (hs : AllDigits s) (ht : AllDigits t) :
    AllDigits (s ++ t) := by
  intro c hc
  rcases List.mem_append.mp hc with h | h
  · exact hs c h
  · exact ht c h

theorem allDigits_iff (t : Text) : t.all Char.isDigit = true ↔ AllDigits t :=
  List.all_eq_true

theorem ofNat_allDigits (n : Nat) : AllDigits (Text.ofNat n) := by
  intro c hc
  exact Nat.isDigit_of_mem_toDigits (by decide) (by decide) hc

theorem ofNat_ne_nil (n : Nat) : Text.ofNat n ≠ [] :=
  Nat.toDigits_ne_nil

theorem digitsValue_ofNat (n : Nat) : digitsValue (Text.ofNat n) = n :=
  Nat.ofDigitChars_ten_toDigits

theorem zeros_allDigits (zeros : Nat) : AllDigits (List.replicate zeros '0') := by
  intro c hc
  rw [List.eq_of_mem_replicate hc]
  rfl

/-- Zeros in front of digits do not count. -/
theorem digitsValue_zeros_append (zeros : Nat) (t : Text) :
    digitsValue (List.replicate zeros '0' ++ t) = digitsValue t := by
  unfold digitsValue
  rw [Nat.ofDigitChars_append, Nat.ofDigitChars_replicate_zero, Nat.mul_zero]

theorem padNumber_allDigits (width n : Nat) : AllDigits (padNumber width n) :=
  (zeros_allDigits _).append (ofNat_allDigits n)

theorem digitsValue_padNumber (width n : Nat) : digitsValue (padNumber width n) = n := by
  unfold padNumber
  rw [digitsValue_zeros_append, digitsValue_ofNat]

theorem length_padNumber {width n : Nat} (hwidth : 0 < width) (h : n < 10 ^ width) :
    (padNumber width n).length = width := by
  have hle : (Text.ofNat n).length ≤ width :=
    (Nat.length_toDigits_le_iff (by decide) hwidth).mpr h
  unfold padNumber
  rw [List.length_append, List.length_replicate]
  omega

theorem ofDigitChars_lt {t : Text} (h : AllDigits t) (start : Nat) :
    Nat.ofDigitChars 10 t start < 10 ^ t.length * (start + 1) := by
  induction t generalizing start with
  | nil => simp
  | cons c cs ih =>
      have hc := h c List.mem_cons_self
      have hdigit : c.toNat - '0'.toNat < 10 := by
        obtain ⟨_, hlast⟩ := (isDigit_iff c).mp hc
        simp
        omega
      have hrest := ih (fun d hd => h d (List.mem_cons_of_mem _ hd))
        (10 * start + (c.toNat - '0'.toNat))
      rw [Nat.ofDigitChars_cons, List.length_cons, Nat.pow_succ, Nat.mul_assoc]
      refine Nat.lt_of_lt_of_le hrest (Nat.mul_le_mul_left _ ?_)
      omega

theorem digitsValue_lt {t : Text} (h : AllDigits t) : digitsValue t < 10 ^ t.length := by
  have hlt := ofDigitChars_lt h 0
  rwa [Nat.zero_add, Nat.mul_one] at hlt

/-- Texts of as many digits that denote the same number are the same. -/
theorem ofDigitChars_injective {s t : Text} (hs : AllDigits s) (ht : AllDigits t)
    (hlength : s.length = t.length) {m n : Nat}
    (h : Nat.ofDigitChars 10 s m = Nat.ofDigitChars 10 t n) : m = n ∧ s = t := by
  induction s generalizing t m n with
  | nil =>
      rw [List.eq_nil_of_length_eq_zero hlength.symm] at h ⊢
      exact ⟨h, rfl⟩
  | cons c cs ih =>
      cases t with
      | nil => cases hlength
      | cons d ds =>
          have hc := (isDigit_iff c).mp (hs c List.mem_cons_self)
          have hd := (isDigit_iff d).mp (ht d List.mem_cons_self)
          rw [Nat.ofDigitChars_cons, Nat.ofDigitChars_cons] at h
          obtain ⟨hhead, htail⟩ := ih (fun e he => hs e (List.mem_cons_of_mem _ he))
            (fun e he => ht e (List.mem_cons_of_mem _ he)) (Nat.succ.inj hlength) h
          have hzero : '0'.toNat = 48 := rfl
          have hcd : c = d := by
            rw [← Char.toNat_inj]
            omega
          exact ⟨by omega, by rw [hcd, htail]⟩

/-- Digits are what their number is written as in their own width. -/
theorem padNumber_digitsValue {s : Text} (hs : AllDigits s) {width : Nat} (hwidth : 0 < width)
    (hlength : s.length = width) : padNumber width (digitsValue s) = s := by
  have hlt := digitsValue_lt hs
  rw [hlength] at hlt
  have hpadded := length_padNumber hwidth hlt
  exact (ofDigitChars_injective (padNumber_allDigits _ _) hs (hpadded.trans hlength.symm)
    (digitsValue_padNumber width (digitsValue s))).2

theorem takeWhile_isDigit {t : Text} (h : AllDigits t) : t.takeWhile Char.isDigit = t :=
  List.takeWhile_eq_self_iff.mpr h

/-- Digits of full width are taken whole. -/
theorem takeDigits?_append {least most : Nat} {digits : Text} (h : AllDigits digits)
    (hlength : digits.length = most) (hle : least ≤ most) (rest : Text) :
    takeDigits? least most (digits ++ rest) = some (digitsValue digits, rest) := by
  unfold takeDigits?
  have htake : (digits ++ rest).take most = digits := by
    rw [← hlength, List.take_left]
  simp only [htake, takeWhile_isDigit h]
  rw [if_neg (by omega), List.drop_left]

theorem readNat?_eq {t : Text} (hne : t ≠ []) (h : AllDigits t) :
    readNat? t = some (digitsValue t) := by
  unfold readNat?
  rw [if_pos ⟨hne, (allDigits_iff t).mpr h⟩]

/-- A number is read from digits and from nothing else. -/
theorem readNat?_eq_some_iff {t : Text} {n : Nat} :
    readNat? t = some n ↔ IsDigits t ∧ digitsValue t = n := by
  constructor
  · intro h
    unfold readNat? at h
    split at h
    · next hdigits => exact ⟨⟨hdigits.1, (allDigits_iff t).mp hdigits.2⟩, Option.some.inj h⟩
    · cases h
  · rintro ⟨hdigits, rfl⟩
    exact readNat?_eq hdigits.ne_nil hdigits.digits

/-- An amount is read from digits, and from digits after a plus sign. -/
theorem readPlusNat?_eq_some_iff {t : Text} {n : Nat} :
    readPlusNat? t = some n ↔
      ∃ sign ∈ ([[], ['+']] : List Text), ∃ digits, t = sign ++ digits ∧ IsDigits digits ∧
        digitsValue digits = n := by
  unfold readPlusNat?
  constructor
  · intro h
    split at h
    · next digits => exact ⟨['+'], by decide, digits, rfl, readNat?_eq_some_iff.mp h⟩
    · exact ⟨[], by decide, t, rfl, readNat?_eq_some_iff.mp h⟩
  · rintro ⟨sign, hsign, digits, rfl, h⟩
    have hread := readNat?_eq_some_iff.mpr h
    simp only [List.mem_cons, List.not_mem_nil, or_false] at hsign
    rcases hsign with rfl | rfl
    · rw [List.nil_append]
      split
      · exact absurd (h.1.digits '+' List.mem_cons_self) (by decide)
      · exact hread
    · exact hread

/-- A text that starts with digits has no blanks at its start. -/
theorem trimStart_append {digits : Text} (h : AllDigits digits) (hne : digits ≠ []) (rest : Text) :
    Text.trimStart (digits ++ rest) = digits ++ rest := by
  cases digits with
  | nil => exact absurd rfl hne
  | cons c cs =>
      unfold Text.trimStart
      rw [List.cons_append, List.dropWhile_cons, isBlank_of_isDigit (h c List.mem_cons_self)]
      rfl

/-! ### Days -/

/-- The text of a day from the digits of its year, month and day of the month. -/
def dateText (year month day : Text) : Text :=
  year ++ '-' :: (month ++ '-' :: day)

/-- Digits of the widths that the shape of a date asks for. -/
structure DateDigits (year month day : Text) : Prop where
  year_digits : AllDigits year
  month_digits : AllDigits month
  day_digits : AllDigits day
  year_length : year.length = 4
  month_length : month.length = 2
  day_length : day.length = 2

theorem DateDigits.exists_cons {year month day : Text} (h : DateDigits year month day) :
    ∃ c cs, year = c :: cs ∧ c.isDigit = true := by
  cases hyear : year with
  | nil =>
      have hlength := h.year_length
      rw [hyear] at hlength
      cases hlength
  | cons c cs => exact ⟨c, cs, rfl, h.year_digits c (hyear ▸ List.mem_cons_self)⟩

theorem takeYear?_append {year : Text} (h : AllDigits year) (hlength : year.length = 4)
    (rest : Text) : takeYear? (year ++ rest) = some ((digitsValue year : Int), rest) := by
  have hne : year ≠ [] := by
    intro hnil
    rw [hnil] at hlength
    cases hlength
  unfold takeYear?
  rw [trimStart_append h hne]
  cases year with
  | nil => exact absurd rfl hne
  | cons c cs =>
      have hc := h c List.mem_cons_self
      have htake := takeDigits?_append h hlength (by decide : 1 ≤ 4) rest
      split
      · rename_i heq
        cases heq
        exact absurd hc (by decide)
      · rename_i heq
        cases heq
        exact absurd hc (by decide)
      · rw [htake]
        rfl

/-- A text in the shape of a date is read by the value of its digits. -/
theorem Date.read?_dateText {year month day : Text} (h : DateDigits year month day) :
    Date.read? (dateText year month day) =
      Date.ofCivil? ⟨digitsValue year, digitsValue month, digitsValue day⟩ := by
  have hmonth : month ≠ [] :=
    fun hnil => by have hlen := h.month_length; rw [hnil] at hlen; cases hlen
  have hday : day ≠ [] := fun hnil => by have hlen := h.day_length; rw [hnil] at hlen; cases hlen
  have htakeMonth :=
    takeDigits?_append h.month_digits h.month_length (by decide : 1 ≤ 2) ('-' :: day)
  have htakeDay := takeDigits?_append h.day_digits h.day_length (by decide : 1 ≤ 2) []
  have htrimDay := trimStart_append h.day_digits hday []
  rw [List.append_nil] at htakeDay htrimDay
  unfold Date.read? dateText
  simp [takeYear?_append h.year_digits h.year_length, skipChar?,
    trimStart_append h.month_digits hmonth, htakeMonth, htrimDay, htakeDay]

theorem isDateShaped_dateText {year month day : Text} (h : DateDigits year month day) :
    Lexeme.isDateShaped (dateText year month day) = true := by
  obtain ⟨hy, hm, hd, hy4, hm2, hd2⟩ := h
  obtain ⟨y1, y2, y3, y4, rfl⟩ : ∃ a b c d, year = [a, b, c, d] := by
    match year, hy4 with
    | [a, b, c, d], _ => exact ⟨a, b, c, d, rfl⟩
  obtain ⟨m1, m2, rfl⟩ : ∃ a b, month = [a, b] := by
    match month, hm2 with
    | [a, b], _ => exact ⟨a, b, rfl⟩
  obtain ⟨d1, d2, rfl⟩ : ∃ a b, day = [a, b] := by
    match day, hd2 with
    | [a, b], _ => exact ⟨a, b, rfl⟩
  show [y1, y2, y3, y4, m1, m2, d1, d2].all Char.isDigit = true
  exact (allDigits_iff _).mpr (hy.append (hm.append hd))

theorem exists_dateText {t : Text} (h : Lexeme.isDateShaped t = true) :
    ∃ year month day, DateDigits year month day ∧ t = dateText year month day := by
  unfold Lexeme.isDateShaped at h
  split at h
  · rename_i y1 y2 y3 y4 m1 m2 d1 d2
    have hall := (allDigits_iff _).mp h
    refine ⟨[y1, y2, y3, y4], [m1, m2], [d1, d2], ⟨?_, ?_, ?_, rfl, rfl, rfl⟩, rfl⟩
    · intro c hc
      exact hall c (List.mem_append_left [m1, m2, d1, d2] hc)
    · intro c hc
      exact hall c (List.mem_append_right [y1, y2, y3, y4] (List.mem_append_left [d1, d2] hc))
    · intro c hc
      exact hall c (List.mem_append_right [y1, y2, y3, y4, m1, m2] hc)
  · cases h

namespace Date

/-- A text in the shape of a date is not read when its day is none of the calendar. -/
theorem read?_dateText_eq_none {year month day : Text} (h : DateDigits year month day) :
    read? (dateText year month day) = none ↔
      Civil.isValid ⟨digitsValue year, digitsValue month, digitsValue day⟩ = false := by
  have hyear := digitsValue_lt h.year_digits
  rw [h.year_length] at hyear
  rw [read?_dateText h]
  exact ofCivil?_eq_none_iff (Int.natCast_nonneg _) (by show (digitsValue year : Int) ≤ 9999; omega)

/-- Whether the year of a day is written in four digits. -/
def HasShortYear (d : Date) : Prop :=
  0 ≤ d.civil.year ∧ d.civil.year ≤ 9999

theorem write_eq {d : Date} (h : d.HasShortYear) :
    d.write = dateText (padNumber 4 d.civil.year.toNat) (padNumber 2 d.civil.month)
      (padNumber 2 d.civil.day) := by
  have hyear : writeYear d.civil.year = padNumber 4 d.civil.year.toNat := if_pos h
  unfold write dateText
  simp only [hyear, List.append_assoc, List.cons_append]

theorem dateDigits_write {d : Date} (h : d.HasShortYear) :
    DateDigits (padNumber 4 d.civil.year.toNat) (padNumber 2 d.civil.month)
      (padNumber 2 d.civil.day) := by
  obtain ⟨_, hmonth, _, hday⟩ := (Civil.isValid_iff _).mp d.civil_isValid
  have hlength := monthLength_le d.civil.year d.civil.month
  obtain ⟨hlow, hhigh⟩ := h
  exact ⟨padNumber_allDigits _ _, padNumber_allDigits _ _, padNumber_allDigits _ _,
    length_padNumber (by decide) (by omega), length_padNumber (by decide) (by omega),
    length_padNumber (by decide) (by omega)⟩

/-- **A day with a year of four digits is read back from its written form.** -/
theorem read?_write {d : Date} (h : d.HasShortYear) : read? d.write = some d := by
  rw [write_eq h, read?_dateText (dateDigits_write h), digitsValue_padNumber,
    digitsValue_padNumber, digitsValue_padNumber, Int.toNat_of_nonneg h.1]
  exact d.ofCivil?_civil

theorem isDateShaped_write {d : Date} (h : d.HasShortYear) :
    Lexeme.isDateShaped d.write = true := by
  rw [write_eq h]
  exact isDateShaped_dateText (dateDigits_write h)

/-- A day that is read from a text in the shape of a date has a year of four digits. -/
theorem hasShortYear_of_read? {t : Text} (hshape : Lexeme.isDateShaped t = true) {d : Date}
    (h : read? t = some d) : d.HasShortYear := by
  obtain ⟨year, month, day, hdigits, rfl⟩ := exists_dateText hshape
  rw [read?_dateText hdigits] at h
  have hcivil := civil_of_ofCivil? h
  have hlt := digitsValue_lt hdigits.year_digits
  rw [hdigits.year_length] at hlt
  unfold HasShortYear
  rw [hcivil]
  show 0 ≤ (digitsValue year : Int) ∧ (digitsValue year : Int) ≤ 9999
  omega

/-- A text in the shape of a date that is read as a day is the written form of the day. -/
theorem write_of_read? {t : Text} (hshape : Lexeme.isDateShaped t = true) {d : Date}
    (h : read? t = some d) : d.write = t := by
  rw [write_eq (hasShortYear_of_read? hshape h)]
  obtain ⟨year, month, day, hdigits, rfl⟩ := exists_dateText hshape
  rw [read?_dateText hdigits] at h
  rw [civil_of_ofCivil? h]
  have hyear := padNumber_digitsValue hdigits.year_digits (by decide) hdigits.year_length
  have hmonth := padNumber_digitsValue hdigits.month_digits (by decide) hdigits.month_length
  have hday := padNumber_digitsValue hdigits.day_digits (by decide) hdigits.day_length
  simp only [Int.toNat_natCast, hyear, hmonth, hday]

end Date

/-! ### Spans -/

namespace RelativeDate

theorem ofLetter?_letter (u : DateUnit) : DateUnit.ofLetter? u.letter = some u := by
  cases u <;> rfl

theorem isRelativeShaped_write (r : RelativeDate) : Lexeme.isRelativeShaped r.write = true := by
  unfold write Lexeme.isRelativeShaped
  simp only [List.cons_append, List.dropLast_concat, List.getLast?_concat]
  rw [(allDigits_iff _).mpr (ofNat_allDigits r.amount)]
  simp [ofNat_ne_nil, ofLetter?_letter]

/-- A span is read by the value of its digits and the letter of its unit. -/
theorem read?_digits {amount : Text} (h : IsDigits amount) (unit : Char) :
    read? ('-' :: (amount ++ [unit])) =
      (DateUnit.ofLetter? unit).bind fun u => of? (digitsValue amount) u := by
  have hplus : readPlusNat? amount = some (digitsValue amount) :=
    readPlusNat?_eq_some_iff.mpr ⟨[], by decide, amount, rfl, h, rfl⟩
  unfold read?
  simp [hplus]

/-- **A span is read back from its written form.** -/
theorem read?_write (r : RelativeDate) : read? r.write = some r := by
  have hread := read?_digits ⟨ofNat_ne_nil r.amount, ofNat_allDigits r.amount⟩ r.unit.letter
  rw [digitsValue_ofNat, ofLetter?_letter] at hread
  refine hread.trans ?_
  simp [of?, r.amount_lt]

end RelativeDate

end TicketSearch
