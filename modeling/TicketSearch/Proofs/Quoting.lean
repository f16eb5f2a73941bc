/-
Quotes around a value.

A word, a number or a day can be put in quotes, and a query asks the same of every ticket and has
the same statement in SQL.  A quoted text is read afresh, as a number, a day or an instant,
whichever its field needs, and what it was as a bare literal it is again: a number reads back as
that number and a day as that day.  What it was not it does not become.  That takes an argument
for two pairs of readings only.  A day and an instant have a dash behind the year
(`dash_mem_tail_of_read?`), which no number has, and a number stops at the first dash of a day
(`readFloat?_of_isDateShaped`).

A span is no such value: in quotes it is a text like any other.
-/
import TicketSearch.Proofs.Case.Reading
import TicketSearch.Proofs.Catalog
import TicketSearch.Proofs.Lexing.Respacing
import TicketSearch.Proofs.Meaning
import TicketSearch.Proofs.Writing

namespace TicketSearch

/-! ### Days and instants are no numbers -/

theorem takeDigits?_suffix {least most n : Nat} {t rest : Text} (hleast : 0 < least)
    (h : takeDigits? least most t = some (n, rest)) : rest <:+ t.tail := by
  unfold takeDigits? at h
  simp only [Option.ite_none_left_eq_some, Option.some.injEq, Prod.mk.injEq] at h
  obtain ⟨hlength, -, rfl⟩ := h
  obtain ⟨k, hk⟩ : ∃ k, ((t.take most).takeWhile Char.isDigit).length = k + 1 :=
    ⟨_, (Nat.succ_pred (by omega)).symm⟩
  rw [hk, ← List.drop_tail]
  exact List.drop_suffix k t.tail

theorem tail_suffix_tail {s t : Text} (h : s <:+ t) : s.tail <:+ t.tail := by
  obtain ⟨before, rfl⟩ := h
  cases before with
  | nil => exact List.suffix_refl _
  | cons c before => exact (List.tail_suffix s).trans (List.suffix_append before s)

theorem takeYear?_suffix {t rest : Text} {year : Int} (h : takeYear? t = some (year, rest)) :
    rest <:+ t.tail := by
  refine List.IsSuffix.trans ?_ (tail_suffix_tail (List.dropWhile_suffix isBlank))
  show rest <:+ (Text.trimStart t).tail
  rw [takeYear?_cases] at h
  cases hstart : Text.trimStart t with
  | nil => simp [hstart] at h
  | cons c body =>
      simp only [hstart] at h
      split_ifs at h <;>
        obtain ⟨⟨n, rest'⟩, htake, heq⟩ := Option.map_eq_some_iff.mp h <;> cases heq
      -- with a sign the digits start behind it
      · exact (takeDigits?_suffix Nat.one_pos htake).trans (List.tail_suffix body)
      · exact (takeDigits?_suffix Nat.one_pos htake).trans (List.tail_suffix body)
      · exact takeDigits?_suffix Nat.one_pos htake

theorem mem_of_skipChar? {c : Char} {t rest : Text} (h : skipChar? c t = some rest) : c ∈ t := by
  cases t with
  | nil => cases h
  | cons d t =>
      simp only [skipChar?, Option.ite_none_right_eq_some] at h
      rw [h.1]
      exact List.mem_cons_self

/-- What is read as a day has a dash behind its first character. -/
theorem Date.dash_mem_tail_of_read? {t : Text} {d : Date} (h : read? t = some d) :
    '-' ∈ t.tail := by
  obtain ⟨⟨year, rest⟩, hyear, hrest⟩ := Option.bind_eq_some_iff.mp h
  obtain ⟨rest', hdash, _⟩ := Option.bind_eq_some_iff.mp hrest
  exact (takeYear?_suffix hyear).mem (mem_of_skipChar? hdash)

/-- And so has what is read as an instant. -/
theorem Instant.dash_mem_tail_of_read? {t : Text} {i : Instant} (h : read? .strict t = some i) :
    '-' ∈ t.tail := by
  obtain ⟨⟨year, rest⟩, hyear, hrest⟩ := Option.bind_eq_some_iff.mp h
  obtain ⟨rest', hdash, _⟩ := Option.bind_eq_some_iff.mp hrest
  obtain ⟨⟨n, rest''⟩, htake, heq⟩ := Option.map_eq_some_iff.mp hyear
  cases heq
  exact (takeDigits?_suffix (by decide) htake).mem (mem_of_skipChar? hdash)

namespace Lexeme

theorem not_dash_mem_tail {t : Text} (h : isNumberShaped t = true) : '-' ∉ t.tail := by
  have hunsigned : ∀ {u : Text}, isUnsignedNumber u = true → '-' ∉ u := by
    intro u hu hdash
    rcases (unsigned_chars hu).2 '-' hdash with hdigit | hpoint
    · exact absurd hdigit (by decide)
    · exact absurd hpoint (by decide)
  rcases exists_unsigned h with hu | ⟨u, rfl, hu⟩
  · exact fun hdash => hunsigned hu (List.mem_of_mem_tail hdash)
  · exact hunsigned hu

theorem IsWord.trim_eq {t : Text} (h : IsWord t) : Text.trim t = t :=
  Text.trim_of_not_isBlank fun c hc => not_isBlank_of_isWordChar (h.goes c hc)

end Lexeme

theorem splitSign_of_isDigit {c : Char} (hc : c.isDigit = true) (t : Text) :
    splitSign (c :: t) = (false, c :: t) := by
  have hne : ∀ d : Char, d.isDigit = false → c ≠ d := by
    rintro d hd rfl
    exact absurd hc (by simp [hd])
  rw [splitSign_cons, if_neg (hne '-' (by decide)), if_neg (hne '+' (by decide))]

/-- The digits of the year are no number, since a dash stands behind them. -/
theorem Numeral.read?_dateText {year month day : Text} (h : DateDigits year month day) :
    read? (dateText year month day) = none := by
  have hdash : ¬('-').isDigit = true := by decide
  have hwhole : (dateText year month day).takeWhile Char.isDigit = year := by
    rw [dateText, List.takeWhile_append_of_pos h.year_digits, List.takeWhile_cons_of_neg hdash,
      List.append_nil]
  have hrest : (dateText year month day).dropWhile Char.isDigit = '-' :: (month ++ '-' :: day) := by
    rw [dateText, List.dropWhile_append_of_pos h.year_digits, List.dropWhile_cons_of_neg hdash]
  obtain ⟨c, cs, rfl, hc⟩ := h.exists_cons
  have hsign : splitSign (dateText (c :: cs) month day) = (false, dateText (c :: cs) month day) :=
    splitSign_of_isDigit hc _
  unfold read?
  simp [hsign, hwhole, hrest, splitFraction, readExponent?]

/-- A text in the shape of a date is no number. -/
theorem readFloat?_of_isDateShaped {t : Text} (h : Lexeme.isDateShaped t = true) :
    readFloat? t = none := by
  obtain ⟨year, month, day, hdigits, rfl⟩ := exists_dateText h
  have hread := Numeral.read?_dateText hdigits
  obtain ⟨c, cs, rfl, hc⟩ := hdigits.exists_cons
  have hsign : splitSign (dateText (c :: cs) month day) = (false, dateText (c :: cs) month day) :=
    splitSign_of_isDigit hc _
  -- the names of infinity and NaN start with letters
  have hname : ∀ d ds, d.isDigit = false →
      Text.asciiLower (dateText (c :: cs) month day) ≠ d :: ds := by
    intro d ds hd heq
    have hcd : c.toLower = d := (List.cons.inj heq).1
    rw [← hcd, isDigit_toLower, hc] at hd
    cases hd
  unfold readFloat?
  simp only [hsign, hread, Option.map_none]
  rw [if_neg (by simpa using ⟨hname 'i' _ (by decide), hname 'i' _ (by decide)⟩),
    if_neg (by simpa using hname 'n' _ (by decide))]

/-! ### Literals in quotes -/

namespace Literal

/-- A literal put in quotes.  A span stays as it is: in quotes it would be a text. -/
def quote : Literal → Literal
  | relative r => relative r
  | v => quoted v.text

/-- **What can be written bare denotes the same in quotes.** -/
theorem alike_quote {v : Literal} (h : v.WellFormed) : v.Alike v.quote := by
  cases v with
  | quoted t | word t => exact ⟨rfl, rfl, rfl, fun _ => rfl⟩
  | relative r => exact .refl _
  | number x t =>
      obtain ⟨hshape, hvalue⟩ := h
      have htrim : Text.trim t = t := (Lexeme.isWord_of_isNumberShaped hshape).trim_eq
      have hdash := Lexeme.not_dash_mem_tail hshape
      have hday : Date.read? t = none :=
        Option.eq_none_iff_forall_ne_some.mpr fun _ h => hdash (Date.dash_mem_tail_of_read? h)
      have hinstant : Instant.read? .strict t = none :=
        Option.eq_none_iff_forall_ne_some.mpr fun _ h => hdash (Instant.dash_mem_tail_of_read? h)
      constructor
      · rfl
      · simp [quote, text, number?, htrim, hvalue]
      · simp [quote, text, day?, htrim, hday]
      · simp [quote, text, instant?, htrim, hday, hinstant]
  | date d =>
      have hshape := Date.isDateShaped_write h
      have htrim : Text.trim d.write = d.write := (Lexeme.isWord_of_isDateShaped hshape).trim_eq
      constructor
      · rfl
      · simp [quote, text, number?, htrim, readFloat?_of_isDateShaped hshape]
      · simp [quote, text, day?, htrim, Date.read?_write h]
      · simp [quote, text, instant?, htrim, Date.read?_write h]

end Literal

namespace Query

/-- A query that can be written is alike to itself with some of its literals in quotes. -/
theorem Alike.of_quote {p q : Query} (hp : p.Proper)
    (h : p.Alike (fun v w => w = v ∨ w = v.quote) q) : p.Alike Literal.Alike q := by
  have hliteral : ∀ {v w : Literal}, v.WellFormed → w = v ∨ w = v.quote → v.Alike w := by
    rintro v w hv (rfl | rfl)
    · exact .refl _
    · exact Literal.alike_quote hv
  induction h with
  | all => exact hp.elim
  | compare f op hvalue => exact .compare f op (hliteral hp hvalue)
  | member f negated hvalues =>
      refine .member f negated ?_
      have hall := (List.forall₂_and_left _ _).mpr ⟨hp.2, hvalues⟩
      exact hall.imp fun v w h => hliteral h.1 h.2
  | empty f negated => exact .empty f negated
  | and _ _ ihl ihr => exact .and (ihl hp.1) (ihr hp.2)
  | or _ _ ihl ihr => exact .or (ihl hp.1) (ihr hp.2)
  | not _ ih => exact .not (ih hp)

/--
**Quotes around a value change nothing.**  Take what a source parses to and put any of its words,
numbers and days in quotes: the query is true of the same rows at every moment, has a statement in
SQL when it had one before, and this is the same statement.
-/
theorem same_meaning_of_quote (s : Text) (p : Query) (hp : parse s = .ok p) (q : Query)
    (hq : p.Alike (fun v w => w = v ∨ w = v.quote) q) :
    (∀ row now, q.eval row now = p.eval row now) ∧
      ∀ table now statement,
        Sql.statement table now q = .ok statement ↔ Sql.statement table now p = .ok statement := by
  have halike : p.Alike Literal.Alike q := by
    rcases wellFormed_of_parse hp with rfl | hproper
    · cases hq
      exact .all
    · exact .of_quote hproper hq
  refine ⟨fun row now => (halike.eval_eq row now).symm, fun table now statement => ?_⟩
  have hstatement := Sql.toOption_statement_congr halike table now
  rw [← toOption_eq_some_iff, ← toOption_eq_some_iff, hstatement]

/-- A number, a label and a day in quotes, and what they stand for in one query. -/
theorem same_meaning_of_quote_of_three :
    let q : Query := .and (.compare .storyPoints .gtEq (.quoted "3"))
      (.not (.or (.member .labels false [.word "a", .quoted "2.0"])
        (.compare .dueDate .eq (.quoted "2024-02-29"))))
    ∃ p, parse "points >= 3 and not (labels in (a, 2.0) or due = 2024-02-29)" = .ok p ∧
      (∀ row now, q.eval row now = p.eval row now) ∧
      ∃ statement, Sql.statement "tickets" .earliest q = .ok statement ∧
        Sql.statement "tickets" .earliest p = .ok statement := by
  intro q
  have hparse : parse "points >= 3 and not (labels in (a, 2.0) or due = 2024-02-29)" = .ok _ := rfl
  obtain ⟨heval, hstatement⟩ := same_meaning_of_quote _ _ hparse q
    (.and (.compare _ _ (Or.inr rfl)) (.not (.or
      (.member _ _ (.cons (Or.inl rfl) (.cons (Or.inr rfl) .nil))) (.compare _ _ (Or.inr rfl)))))
  exact ⟨_, hparse, heval, _, (hstatement "tickets" .earliest _).mpr rfl, rfl⟩

end Query

end TicketSearch
