/-
Values that cannot be read.

A token that stands as a value has the form of its kind, and a text of that form mostly can be
read.  Every number can; the sign that stands for a comparison is one of the six.  What is left
to go wrong is a date whose day is none of the calendar and a span of more units than can be
counted (`justified_of_parse`).  An error names its cause by its words only, but these faults are
told from all others by two letters of them.

A quoted text ends at the first quote, so that the literal has none.
-/
import TicketSearch.Proofs.Lexing.Kinds
import TicketSearch.Proofs.Parsing.Heads

namespace TicketSearch

open Lexeme (Form)

/-! ### What the forms are read as -/

/-- Whether a text is a date of a day that is none of the calendar. -/
def IsNoDay (t : Text) : Prop :=
  ∃ year month day, t = dateText year month day ∧ DateDigits year month day ∧
    Civil.isValid ⟨digitsValue year, digitsValue month, digitsValue day⟩ = false

/-- Whether a text is a span of more units than can be counted. -/
def IsBeyondCount (t : Text) : Prop :=
  ∃ amount unit, t = '-' :: (amount ++ [unit]) ∧ IsDigits amount ∧ UInt32.size ≤ digitsValue amount

namespace Lexeme

variable {t : Text}

theorem Form.comparison (h : Form .operator t) : (Comparison.ofSymbol? t).isSome := by
  cases h with
  | sign mem =>
      simp only [signs, List.mem_cons, List.not_mem_nil, or_false, Prod.mk.injEq, reduceCtorEq,
        and_false, and_true, false_or] at mem
      rcases mem with rfl | rfl | rfl | rfl | rfl | rfl <;> rfl
  | keyword mem _ => simp [capitals] at mem

theorem Form.readFloat? (h : Form .number t) : (readFloat? t).isSome := by
  cases h with
  | sign mem => simp [signs] at mem
  | keyword mem _ => simp [capitals] at mem
  | number minus whole_digits point =>
      have hunsigned := isUnsignedNumber_iff.mpr ⟨_, _, rfl, whole_digits, point⟩
      exact readFloat?_isSome (isNumberShaped_iff.mpr ⟨_, _, rfl, minus, hunsigned⟩)

theorem Form.isNoDay (h : Form .date t) (hread : Date.read? t = none) : IsNoDay t := by
  cases h with
  | sign mem => simp [signs] at mem
  | keyword mem _ => simp [capitals] at mem
  | date digits => exact ⟨_, _, _, rfl, digits, (Date.read?_dateText_eq_none digits).mp hread⟩

theorem Form.isBeyondCount (h : Form .relativeDate t) (hread : RelativeDate.read? t = none) :
    IsBeyondCount t := by
  cases h with
  | sign mem => simp [signs] at mem
  | keyword mem _ => simp [capitals] at mem
  | @relativeDate amount unit digits unit_mem =>
      obtain ⟨u, hu⟩ := Option.isSome_iff_exists.mp (ofLetter?_isSome_iff.mpr unit_mem)
      rw [RelativeDate.read?_digits digits, hu] at hread
      refine ⟨amount, unit, rfl, digits, ?_⟩
      by_contra hle
      have hlt : digitsValue amount < amountBound := Nat.lt_of_not_le hle
      have hof : RelativeDate.of? (digitsValue amount) u = none := hread
      rw [RelativeDate.of?, dif_pos hlt] at hof
      cases hof

end Lexeme

/-! ### What a fault about a value tells -/

namespace Fault

/-- What a fault about the reading of a token says of its text. -/
def Justified : Fault → Prop
  | unknownOperator _ | invalidNumber _ => False
  | invalidDate text => IsNoDay text
  | invalidRelativeDate text => IsBeyondCount text
  | _ => True

theorem IsExpectation.justified {fault : Fault} (h : fault.IsExpectation) : fault.Justified := by
  cases fault <;> trivial

/-- The words at the start of a message tell its second and ninth letter. -/
theorem letters_of_prefix {words : Text} {fault : Fault} (h : words <+: fault.message)
    (second ninth : Char) (hsecond : words[1]? = some second) (hninth : words[8]? = some ninth) :
    fault.secondLetter = second ∧ fault.ninthLetter = ninth := by
  have hletter : ∀ (i : Nat) (c : Char), words[i]? = some c → fault.message[i]? = some c := by
    intro i c hc
    obtain ⟨rest, hrest⟩ := h
    rw [← hrest, List.getElem?_append_left (List.getElem?_eq_some_iff.mp hc).1]
    exact hc
  have hsecond' := hletter 1 second hsecond
  have hninth' := hletter 8 ninth hninth
  rw [message_secondLetter] at hsecond'
  rw [message_ninthLetter] at hninth'
  exact ⟨Option.some.inj hsecond', Option.some.inj hninth'⟩

variable {fault : Fault}

theorem exists_invalidNumber (h : ("Invalid number" : Text) <+: fault.message) :
    ∃ text, fault = invalidNumber text := by
  obtain ⟨hsecond, hninth⟩ := letters_of_prefix h 'n' 'n' rfl rfl
  cases fault with
  | invalidNumber text => exact ⟨text, rfl⟩
  | emptyCompared _ => simp [secondLetter] at hsecond
  | _ => simp [ninthLetter] at hninth

theorem exists_unknownOperator (h : ("Unknown operator" : Text) <+: fault.message) :
    ∃ text, fault = unknownOperator text := by
  obtain ⟨_, hninth⟩ := letters_of_prefix h 'n' 'o' rfl rfl
  cases fault with
  | unknownOperator text => exact ⟨text, rfl⟩
  | _ => simp [ninthLetter] at hninth

theorem exists_invalidDate (h : ("Invalid date" : Text) <+: fault.message) :
    ∃ text, fault = invalidDate text := by
  obtain ⟨_, hninth⟩ := letters_of_prefix h 'n' 'd' rfl rfl
  cases fault with
  | invalidDate text => exact ⟨text, rfl⟩
  | _ => simp [ninthLetter] at hninth

theorem exists_invalidRelativeDate (h : ("Invalid relative date" : Text) <+: fault.message) :
    ∃ text, fault = invalidRelativeDate text := by
  obtain ⟨hsecond, hninth⟩ := letters_of_prefix h 'n' 'r' rfl rfl
  cases fault with
  | invalidRelativeDate text => exact ⟨text, rfl⟩
  | emptyGroup => simp [secondLetter] at hsecond
  | _ => simp [ninthLetter] at hninth

end Fault

namespace ParserState

variable {source : Text} {s : ParserState} {t : Token} {e : ParseError}

/-- A token of a source is rejected for its reading only where its text gives cause. -/
theorem Faults.justified (h : Faults s t e) (ht : t ∈ Token.stream source) : e.fault.Justified := by
  have hform : ∀ {k : TokenKind}, t.kind = k → k ≠ .value → k ≠ .field → k ≠ .unknown →
      k ≠ .endOfInput →
      Form k t.text :=
    fun hk hvalue hfield hunknown hend =>
      (Token.kind_eq_iff_form ht hvalue hfield hunknown hend).mp hk
  cases h with
  | unexpected => exact (expected_isExpectation s t.found).justified
  | unknownOperator kind unknown =>
      have hsome := (hform kind (by decide) (by decide) (by decide) (by decide)).comparison
      rw [unknown] at hsome
      cases hsome
  | unreadable _ literal =>
      rcases literal_error_cases literal with
        ⟨kind, read, rfl⟩ | ⟨kind, read, rfl⟩ | ⟨kind, read, rfl⟩
      · have hsome := (hform kind (by decide) (by decide) (by decide) (by decide)).readFloat?
        rw [read] at hsome
        cases hsome
      · exact (hform kind (by decide) (by decide) (by decide) (by decide)).isNoDay read
      · exact (hform kind (by decide) (by decide) (by decide) (by decide)).isBeyondCount read
  | _ => trivial

end ParserState

namespace Query

/-- **No query is rejected for a value that can be read.** -/
theorem justified_of_parse {source : Text} {e : ParseError} (h : parse source = .error e) :
    e.fault.Justified := by
  obtain ⟨before, t, after, s, read, hstream, _, hreject⟩ := ParserState.exists_reject_of_run rfl h
  have hmem : t ∈ Token.stream source := by
    have hsource : Token.stream source = before ++ t :: after := hstream
    rw [hsource]
    exact List.mem_append_right _ List.mem_cons_self
  exact (ParserState.faults_of_step hreject).justified hmem

theorem Proper.wellFormed_of_mem_literals {q : Query} (h : q.Proper) {v : Literal}
    (hv : v ∈ q.literals) : v.WellFormed := by
  induction q with
  | all | empty _ _ => exact absurd hv List.not_mem_nil
  | compare _ _ value =>
      rw [List.mem_singleton.mp hv]
      exact h
  | member _ _ values => exact h.2 v hv
  | and left right ihl ihr | or left right ihl ihr =>
      rcases List.mem_append.mp hv with hl | hr
      · exact ihl h.1 hl
      · exact ihr h.2 hr
  | not inner ih => exact ih h hv

/-- The literals of a query that has a source are well formed. -/
theorem wellFormed_of_mem_literals {source : Text} {q : Query} (h : parse source = .ok q)
    {v : Literal} (hv : v ∈ q.literals) : v.WellFormed := by
  rcases wellFormed_of_parse h with rfl | hproper
  · exact absurd hv List.not_mem_nil
  · exact hproper.wellFormed_of_mem_literals hv

/--
**The text of a token tells its kind**, but for the marking of fields.  A token of a source is of a
kind with a form of its own exactly when its text has that form, and tokens of one text are of one
kind in all sources.  Tokens stand in the source at their offsets, and behind a bare word comes no
character of a word.  So no number and no sign is ever reported as invalid or unknown, a date only
for a day that is none of the calendar, a span only for more units than can be counted; and no
quoted literal has a quote in it.
-/
theorem parse_forms (source : Text) :
    (∀ t ∈ Token.stream source,
      (∀ k, k ∉ [TokenKind.value, .field, .unknown, .endOfInput] → (t.kind = k ↔ Form k t.text)) ∧
      (∀ other, ∀ u ∈ Token.stream other, t.text = u.text → t.kind.unmarked = u.kind.unmarked) ∧
      ∃ front behind, source = front ++ (t.text ++ behind) ∧ t.start = Text.byteLength front ∧
        t.stop = Text.byteLength (front ++ t.text) ∧
        (t.kind.isBare = true → ∀ c, behind.head? = some c → isWordChar c = false)) ∧
    (∀ e, parse source = .error e →
      ¬("Invalid number" : Text) <+: e.fault.message ∧
      ¬("Unknown operator" : Text) <+: e.fault.message ∧
      (("Invalid relative date" : Text) <+: e.fault.message →
        ∃ text, e.fault = .invalidRelativeDate text ∧ IsBeyondCount text) ∧
      (("Invalid date" : Text) <+: e.fault.message →
        ∃ text, e.fault = .invalidDate text ∧ IsNoDay text)) ∧
    ∀ q, parse source = .ok q → ∀ body, .quoted body ∈ q.literals → ∀ c ∈ body, c ≠ '"' := by
  refine ⟨fun t ht => ⟨?_, ?_, ?_⟩, fun e he => ?_, ?_⟩
  · intro k hk
    simp only [List.mem_cons, List.not_mem_nil, or_false, not_or] at hk
    obtain ⟨hvalue, hfield, hunknown, hend⟩ := hk
    exact Token.kind_eq_iff_form ht hvalue hfield hunknown hend
  · exact fun other u hu htext => Token.unmarked_congr ht hu htext
  · rcases Token.exists_stands ht with rfl | ⟨front, c, rest, behind, hstands⟩
    · exact ⟨source, [], (List.append_nil source).symm, rfl, by rw [List.append_nil],
        fun h => by cases h⟩
    · exact ⟨front, behind, hstands.source_eq, hstands.start_eq, hstands.stop_eq, hstands.ends⟩
  · have hjustified := justified_of_parse he
    refine ⟨fun h => ?_, fun h => ?_, fun h => ?_, fun h => ?_⟩
    · obtain ⟨text, hfault⟩ := Fault.exists_invalidNumber h
      rwa [hfault] at hjustified
    · obtain ⟨text, hfault⟩ := Fault.exists_unknownOperator h
      rwa [hfault] at hjustified
    · obtain ⟨text, hfault⟩ := Fault.exists_invalidRelativeDate h
      rw [hfault] at hjustified
      exact ⟨text, hfault, hjustified⟩
    · obtain ⟨text, hfault⟩ := Fault.exists_invalidDate h
      rw [hfault] at hjustified
      exact ⟨text, hfault, hjustified⟩
  · intro q hq body hbody
    exact wellFormed_of_mem_literals hq hbody

/-- A number with a sign, words that start like a span and a date, and a span
and a date that are none. -/
theorem parse_forms_of_shapes :
    Form .number "-1.50" ∧ ¬Form .relativeDate "-7days" ∧ ¬Form .date "2024-12-31x" ∧
      (∃ text, Fault.invalidRelativeDate "-4294967296d" = .invalidRelativeDate text ∧
        IsBeyondCount text) ∧
      (∃ text, Fault.invalidDate "2023-02-29" = .invalidDate text ∧ IsNoDay text) ∧
      ∀ c ∈ ("a b" : Text), c ≠ '"' := by
  obtain ⟨htokens, _, _⟩ := parse_forms "points IN (-1.50, -7days, 2024-12-31x)"
  have hnumber := htokens ⟨.number, "-1.50", 11, 16⟩ (by decide +kernel)
  have hdays := htokens ⟨.value, "-7days", 18, 24⟩ (by decide +kernel)
  have hdate := htokens ⟨.value, "2024-12-31x", 26, 37⟩ (by decide +kernel)
  have hspan : parse "due > -4294967296d" =
      .error ⟨.invalidRelativeDate "-4294967296d", some 6⟩ := by
    decide +kernel
  have hday : parse "due = 2023-02-29" = .error ⟨.invalidDate "2023-02-29", some 6⟩ := by
    decide +kernel
  have hquoted : parse "title = \"a b\"" = .ok (.compare .title .eq (.quoted "a b")) := by
    decide +kernel
  refine ⟨(hnumber.1 _ (by decide)).mp rfl, fun h => ?_, fun h => ?_, ?_, ?_, ?_⟩
  · cases (hdays.1 _ (by decide)).mpr h
  · cases (hdate.1 _ (by decide)).mpr h
  · exact ((parse_forms "due > -4294967296d").2.1 _ hspan).2.2.1 (by decide +kernel)
  · exact ((parse_forms "due = 2023-02-29").2.1 _ hday).2.2.2 (by decide +kernel)
  · exact (parse_forms "title = \"a b\"").2.2 _ hquoted "a b" List.mem_cons_self

end Query

end TicketSearch
