/-
Numbers, days and instants are read without regard to case.

Whatever a reader asks of a character has the same answer for its lower case: digits, blanks
and signs are no letters, and where a letter means something it does so in either case.  So a
reader takes the same off a text in lower case, and what it leaves is the lower case of what
it left (`lowerRest`).  Readers are made of readers, and so are the proofs.

Lower case is that of ASCII here, `Text.asciiLower`.
-/
import Mathlib.Data.List.TakeWhile
import TicketSearch.Literal
import TicketSearch.Proofs.Case

namespace TicketSearch

open Text (asciiLower)

/-! ### Characters -/

@[simp] theorem toLower_toLower (c : Char) : c.toLower.toLower = c.toLower := by
  rw [← Char.toNat_inj, toNat_toLower, toNat_toLower]
  by_cases h : 65 ≤ c.toNat ∧ c.toNat ≤ 90
  · rw [if_pos h, if_neg (by omega)]
  · rw [if_neg h, if_neg h]

/-- What is the same for all letters is the same in lower case. -/
theorem apply_toLower {α : Type} {f : Char → α} {a : α} (h : ∀ c, c.isAlpha = true → f c = a)
    (c : Char) : f c.toLower = f c := by
  rcases toLower_eq_or_isAlpha c with heq | ⟨hc, hlower⟩
  · rw [heq]
  · rw [h _ hlower, h _ hc]

@[simp] theorem isAlpha_toLower (c : Char) : c.toLower.isAlpha = c.isAlpha :=
  apply_toLower (fun _ h => h) c

theorem not_isDigit_of_isAlpha {c : Char} (h : c.isAlpha = true) : c.isDigit = false := by
  have halpha := (isAlpha_iff c).mp h
  rw [← Bool.not_eq_true, isDigit_iff]
  omega

theorem not_isAlpha_of_isDigit {c : Char} (h : c.isDigit = true) : c.isAlpha = false := by
  rw [← Bool.not_eq_true]
  intro halpha
  rw [not_isDigit_of_isAlpha halpha] at h
  cases h

@[simp] theorem isDigit_toLower (c : Char) : c.toLower.isDigit = c.isDigit :=
  apply_toLower (fun _ => not_isDigit_of_isAlpha) c

theorem not_isBlank_of_isAlpha {c : Char} (h : c.isAlpha = true) : isBlank c = false := by
  have hupper : ∀ b ∈ blankRanges, b.2 < 65 ∨ 90 < b.1 := by decide
  have hlower : ∀ b ∈ blankRanges, b.2 < 97 ∨ 122 < b.1 := by decide
  rcases (isAlpha_iff c).mp h with ⟨hfirst, hlast⟩ | ⟨hfirst, hlast⟩
  · exact inRanges_eq_false hupper hfirst hlast
  · exact inRanges_eq_false hlower hfirst hlast

@[simp] theorem isBlank_toLower (c : Char) : isBlank c.toLower = isBlank c :=
  apply_toLower (fun _ => not_isBlank_of_isAlpha) c

/-- A character that is no letter is the lower case of itself alone. -/
theorem toLower_eq_iff {d : Char} (hd : d.isAlpha = false) (c : Char) : c.toLower = d ↔ c = d := by
  rcases toLower_eq_or_isAlpha c with heq | ⟨hc, hlower⟩
  · rw [heq]
  · constructor
    · rintro rfl
      rw [hlower] at hd
      cases hd
    · rintro rfl
      rw [hc] at hd
      cases hd

theorem beq_toLower {d : Char} (hd : d.isAlpha = false) (c : Char) :
    (c.toLower == d) = (c == d) := by
  rw [Bool.eq_iff_iff, beq_iff_eq, beq_iff_eq, toLower_eq_iff hd]

/-- A letter in either case is one whose lower case is the small letter. -/
theorem eq_capital_or_iff {d e : Char} (hd : 65 ≤ d.toNat ∧ d.toNat ≤ 90)
    (he : e.toNat = d.toNat + 32) (c : Char) : c = d ∨ c = e ↔ c.toLower = e := by
  rw [← Char.toNat_inj, ← Char.toNat_inj, ← Char.toNat_inj, toNat_toLower]
  split <;> omega

theorem toLower_eq_capital_or_iff {d e : Char} (hd : 65 ≤ d.toNat ∧ d.toNat ≤ 90)
    (he : e.toNat = d.toNat + 32) (c : Char) :
    c.toLower = d ∨ c.toLower = e ↔ c = d ∨ c = e := by
  rw [eq_capital_or_iff hd he, eq_capital_or_iff hd he, toLower_toLower]

namespace Text

/-! ### Texts -/

@[simp] theorem asciiLower_cons (c : Char) (t : Text) :
    asciiLower (c :: t) = c.toLower :: asciiLower t := rfl

@[simp] theorem length_asciiLower (t : Text) : (asciiLower t).length = t.length :=
  List.length_map _

@[simp] theorem asciiLower_eq_nil (t : Text) : asciiLower t = [] ↔ t = [] :=
  List.map_eq_nil_iff

@[simp] theorem asciiLower_asciiLower (t : Text) : asciiLower (asciiLower t) = asciiLower t := by
  unfold asciiLower
  rw [List.map_map]
  exact List.map_congr_left fun c _ => toLower_toLower c

theorem takeWhile_asciiLower {p : Char → Bool} (hp : ∀ c, p c.toLower = p c) (t : Text) :
    (asciiLower t).takeWhile p = asciiLower (t.takeWhile p) := by
  unfold asciiLower
  rw [List.takeWhile_map]
  exact congrArg (fun q => List.map Char.toLower (t.takeWhile q)) (funext hp)

theorem dropWhile_asciiLower {p : Char → Bool} (hp : ∀ c, p c.toLower = p c) (t : Text) :
    (asciiLower t).dropWhile p = asciiLower (t.dropWhile p) := by
  unfold asciiLower
  rw [List.dropWhile_map]
  exact congrArg (fun q => List.map Char.toLower (t.dropWhile q)) (funext hp)

theorem take_asciiLower (n : Nat) (t : Text) : (asciiLower t).take n = asciiLower (t.take n) :=
  List.map_take.symm

theorem drop_asciiLower (n : Nat) (t : Text) : (asciiLower t).drop n = asciiLower (t.drop n) :=
  List.map_drop.symm

@[simp] theorem trimStart_asciiLower (t : Text) :
    trimStart (asciiLower t) = asciiLower (trimStart t) :=
  dropWhile_asciiLower isBlank_toLower t

@[simp] theorem trim_asciiLower (t : Text) : trim (asciiLower t) = asciiLower (trim t) := by
  have hend : ∀ s : Text, trimEnd (asciiLower s) = asciiLower (trimEnd s) := by
    intro s
    have hreverse : (asciiLower s).reverse = asciiLower s.reverse := List.map_reverse.symm
    unfold trimEnd
    rw [hreverse, dropWhile_asciiLower isBlank_toLower]
    exact List.map_reverse.symm
  unfold trim
  rw [trimStart_asciiLower, hend]

/-- A text without letters is its own lower case. -/
theorem asciiLower_eq_self {t : Text} (h : ∀ c ∈ t, c.isAlpha = false) : asciiLower t = t := by
  induction t with
  | nil => rfl
  | cons c t ih =>
      obtain ⟨hc, ht⟩ := List.forall_mem_cons.mp h
      rw [asciiLower_cons, ih ht, (toLower_eq_iff hc c).mpr rfl]

/-- What holds of texts without letters only does not depend on case. -/
theorem apply_asciiLower {p : Text → Bool} (hp : ∀ t, p t = true → ∀ c ∈ t, c.isAlpha = false)
    (t : Text) : p (asciiLower t) = p t := by
  have hback : p (asciiLower t) = true → asciiLower t = t := by
    intro h
    refine asciiLower_eq_self fun c hc => ?_
    rw [← isAlpha_toLower]
    exact hp _ h _ (List.mem_map_of_mem hc)
  rw [Bool.eq_iff_iff]
  constructor
  · intro h
    rwa [hback h] at h
  · intro h
    rwa [asciiLower_eq_self (hp t h)]

theorem asciiLower_of_digits {t : Text} (h : ∀ c ∈ t, c.isDigit = true) : asciiLower t = t :=
  asciiLower_eq_self fun c hc => not_isAlpha_of_isDigit (h c hc)

theorem all_isDigit_asciiLower (t : Text) :
    (asciiLower t).all Char.isDigit = t.all Char.isDigit := by
  unfold asciiLower
  rw [List.all_map]
  exact congrArg t.all (funext isDigit_toLower)

theorem head?_asciiLower (t : Text) : (asciiLower t).head? = t.head?.map Char.toLower :=
  List.head?_map

theorem getLast?_asciiLower (t : Text) : (asciiLower t).getLast? = t.getLast?.map Char.toLower :=
  List.getLast?_map

theorem dropLast_asciiLower (t : Text) : (asciiLower t).dropLast = asciiLower t.dropLast :=
  List.map_dropLast.symm

end Text

/-! ### Numbers -/

@[simp] theorem readNat?_asciiLower (t : Text) : readNat? (asciiLower t) = readNat? t := by
  by_cases hdigits : t.all Char.isDigit = true
  · rw [Text.asciiLower_of_digits (List.all_eq_true.mp hdigits)]
  · unfold readNat?
    simp [Text.all_isDigit_asciiLower, hdigits]

theorem readPlusNat?_cons (c : Char) (t : Text) :
    readPlusNat? (c :: t) = if c = '+' then readNat? t else readNat? (c :: t) := by
  split_ifs with h
  · rw [h]
    rfl
  · rw [readPlusNat?]
    simp [h]

@[simp] theorem readPlusNat?_asciiLower (t : Text) :
    readPlusNat? (asciiLower t) = readPlusNat? t := by
  cases t with
  | nil => rfl
  | cons c t =>
      have hplain := readNat?_asciiLower (c :: t)
      rw [Text.asciiLower_cons] at hplain ⊢
      simp [readPlusNat?_cons, toLower_eq_iff, hplain]

theorem splitSign_cons (c : Char) (t : Text) :
    splitSign (c :: t) =
      if c = '-' then (true, t) else if c = '+' then (false, t) else (false, c :: t) := by
  split_ifs with hminus hplus
  · rw [hminus]
    rfl
  · rw [hplus]
    rfl
  · rw [splitSign] <;> simp [hminus, hplus]

@[simp] theorem splitSign_asciiLower (t : Text) :
    splitSign (asciiLower t) = Prod.map id asciiLower (splitSign t) := by
  cases t with
  | nil => rfl
  | cons c t =>
      simp only [Text.asciiLower_cons, splitSign_cons, toLower_eq_iff, Char.reduceIsAlpha]
      split_ifs <;> rfl

namespace Numeral

@[simp] theorem readExponent?_asciiLower (t : Text) :
    readExponent? (asciiLower t) = readExponent? t := by
  cases t with
  | nil => rfl
  | cons c t => simp [readExponent?]

theorem splitFraction_cons (c : Char) (t : Text) :
    splitFraction (c :: t) =
      if c = '.' then (t.takeWhile Char.isDigit, t.dropWhile Char.isDigit) else ([], c :: t) := by
  split_ifs with h
  · rw [h]
    rfl
  · rw [splitFraction]
    simp [h]

@[simp] theorem takeWhile_isDigit_asciiLower (t : Text) :
    (asciiLower t).takeWhile Char.isDigit = t.takeWhile Char.isDigit := by
  rw [Text.takeWhile_asciiLower isDigit_toLower]
  exact Text.asciiLower_of_digits fun c hc => List.mem_takeWhile_imp hc

@[simp] theorem splitFraction_asciiLower (t : Text) :
    splitFraction (asciiLower t) = Prod.map id asciiLower (splitFraction t) := by
  cases t with
  | nil => rfl
  | cons c t =>
      simp only [Text.asciiLower_cons, splitFraction_cons, toLower_eq_iff, Char.reduceIsAlpha,
        takeWhile_isDigit_asciiLower, Text.dropWhile_asciiLower isDigit_toLower]
      split_ifs <;> rfl

@[simp] theorem read?_asciiLower (t : Text) : read? (asciiLower t) = read? t := by
  simp [read?, Text.dropWhile_asciiLower isDigit_toLower]

end Numeral

@[simp] theorem readFloat?_asciiLower (t : Text) : readFloat? (asciiLower t) = readFloat? t := by
  unfold readFloat?
  rw [splitSign_asciiLower, Numeral.read?_asciiLower]
  obtain ⟨negative, body⟩ := splitSign t
  simp only [Prod.map_apply, Text.asciiLower_asciiLower, id_eq]

/-! ### Days and instants -/

/-- What a reader has taken off a text, with the rest in lower case. -/
def lowerRest {α : Type} (taken : Option (α × Text)) : Option (α × Text) :=
  taken.map (Prod.map id asciiLower)

section

variable {α β : Type}

/-- Readers that go on alike on a rest and on its lower case do so after a reader. -/
theorem bind_lowerRest {taken : Option (α × Text)} {next next' : α × Text → Option β}
    (h : ∀ x rest, next (x, asciiLower rest) = next' (x, rest)) :
    (lowerRest taken).bind next = taken.bind next' := by
  cases taken with
  | none => rfl
  | some taken => exact h taken.1 taken.2

theorem bind_map_asciiLower {rest : Option Text} {next next' : Text → Option β}
    (h : ∀ rest, next (asciiLower rest) = next' rest) :
    (rest.map asciiLower).bind next = rest.bind next' := by
  cases rest with
  | none => rfl
  | some rest => exact h rest

theorem lowerRest_bind (taken : Option α) (next : α → Option (β × Text)) :
    lowerRest (taken.bind next) = taken.bind fun x => lowerRest (next x) := by
  cases taken <;> rfl

theorem map_lowerRest {taken : Option (α × Text)} (f : α → β) :
    (lowerRest taken).map (fun p => (f p.1, p.2)) =
      lowerRest (taken.map fun p => (f p.1, p.2)) := by
  cases taken <;> rfl

end

@[simp] theorem takeDigits?_asciiLower (least most : Nat) (t : Text) :
    takeDigits? least most (asciiLower t) = lowerRest (takeDigits? least most t) := by
  simp only [takeDigits?, Text.take_asciiLower, Text.drop_asciiLower,
    Numeral.takeWhile_isDigit_asciiLower]
  split_ifs <;> rfl

/-- A sign that is no letter is skipped in either case. -/
theorem skipChar?_asciiLower {d : Char} (hd : d.isAlpha = false) (t : Text) :
    skipChar? d (asciiLower t) = (skipChar? d t).map asciiLower := by
  cases t with
  | nil => rfl
  | cons c t =>
      simp only [skipChar?, Text.asciiLower_cons, toLower_eq_iff hd]
      split_ifs <;> rfl

theorem takeYear?_cases (t : Text) :
    takeYear? t = match Text.trimStart t with
      | [] => none
      | c :: rest =>
        if c = '-' then (takeDigits? 1 rest.length rest).map fun p => (-(p.1 : Int), p.2)
        else if c = '+' then (takeDigits? 1 rest.length rest).map fun p => ((p.1 : Int), p.2)
        else (takeDigits? 1 4 (c :: rest)).map fun p => ((p.1 : Int), p.2) := by
  unfold takeYear?
  cases Text.trimStart t with
  | nil => rfl
  | cons c rest =>
      split
      · next heq =>
          cases heq
          rfl
      · next heq =>
          cases heq
          rfl
      · next hminus hplus =>
          have hc : c ≠ '-' := fun h => hminus rest (h ▸ rfl)
          have hc' : c ≠ '+' := fun h => hplus rest (h ▸ rfl)
          simp only [if_neg hc, if_neg hc']

@[simp] theorem takeYear?_asciiLower (t : Text) :
    takeYear? (asciiLower t) = lowerRest (takeYear? t) := by
  rw [takeYear?_cases, takeYear?_cases, Text.trimStart_asciiLower]
  cases Text.trimStart t with
  | nil => rfl
  | cons c rest =>
      have htake := takeDigits?_asciiLower 1 4 (c :: rest)
      rw [Text.asciiLower_cons] at htake ⊢
      simp only [toLower_eq_iff, Char.reduceIsAlpha, Text.length_asciiLower, takeDigits?_asciiLower,
        htake]
      split_ifs
      · exact map_lowerRest fun n : Nat => -(n : Int)
      · exact map_lowerRest fun n : Nat => (n : Int)
      · exact map_lowerRest fun n : Nat => (n : Int)

@[simp] theorem Date.read?_asciiLower (t : Text) : read? (asciiLower t) = read? t := by
  unfold read?
  rw [takeYear?_asciiLower]
  refine bind_lowerRest fun year rest => ?_
  dsimp only
  rw [skipChar?_asciiLower rfl]
  refine bind_map_asciiLower fun rest => ?_
  rw [Text.trimStart_asciiLower, takeDigits?_asciiLower]
  refine bind_lowerRest fun month rest => ?_
  dsimp only
  rw [skipChar?_asciiLower rfl]
  refine bind_map_asciiLower fun rest => ?_
  rw [Text.trimStart_asciiLower, takeDigits?_asciiLower]
  refine bind_lowerRest fun day rest => ?_
  simp only [Text.asciiLower_eq_nil]

namespace StampForm

variable (form : StampForm)

@[simp] theorem skipGap_asciiLower (t : Text) :
    form.skipGap (asciiLower t) = asciiLower (form.skipGap t) := by
  cases form with
  | strict => rfl
  | relaxed => exact Text.trimStart_asciiLower t

@[simp] theorem takePart?_asciiLower (t : Text) :
    form.takePart? (asciiLower t) = lowerRest (form.takePart? t) := by
  cases form with
  | strict => exact takeDigits?_asciiLower 2 2 t
  | relaxed => simp only [takePart?, Text.trimStart_asciiLower, takeDigits?_asciiLower]

@[simp] theorem takeYear?_asciiLower (t : Text) :
    form.takeYear? (asciiLower t) = lowerRest (form.takeYear? t) := by
  cases form with
  | strict =>
      simp only [takeYear?, takeDigits?_asciiLower]
      exact map_lowerRest fun n : Nat => (n : Int)
  | relaxed => exact TicketSearch.takeYear?_asciiLower t

theorem takeFraction?_cons (c : Char) (t : Text) :
    takeFraction? (c :: t) =
      if c = '.' then (takeDigits? 1 9 t).map fun p =>
        (p.1 * Nat.pow 10 (9 - (t.length - p.2.length)), p.2.dropWhile Char.isDigit)
      else some (0, c :: t) := by
  split_ifs with h
  · rw [h]
    rfl
  · rw [takeFraction?]
    simp [h]

@[simp] theorem takeFraction?_asciiLower (t : Text) :
    takeFraction? (asciiLower t) = lowerRest (takeFraction? t) := by
  cases t with
  | nil => rfl
  | cons c t =>
      simp only [Text.asciiLower_cons, takeFraction?_cons, toLower_eq_iff, Char.reduceIsAlpha,
        Text.length_asciiLower, takeDigits?_asciiLower]
      split_ifs
      · cases takeDigits? 1 9 t with
        | none => rfl
        | some taken => simp [Text.dropWhile_asciiLower isDigit_toLower, lowerRest]
      · rfl

@[simp] theorem skipOffsetColon?_asciiLower (t : Text) :
    form.skipOffsetColon? (asciiLower t) = (form.skipOffsetColon? t).map asciiLower := by
  have hgap : ∀ c : Char, (c.toLower == ':' || isBlank c.toLower) = (c == ':' || isBlank c) := by
    intro c
    rw [isBlank_toLower, beq_toLower rfl]
  cases form with
  | strict => exact skipChar?_asciiLower rfl t
  | relaxed =>
      exact congrArg some (Text.dropWhile_asciiLower (p := fun c => c == ':' || isBlank c) hgap t)

@[simp] theorem takeOffsetMinutes?_asciiLower (t : Text) :
    form.takeOffsetMinutes? (asciiLower t) = lowerRest (form.takeOffsetMinutes? t) := by
  unfold takeOffsetMinutes?
  rw [takeDigits?_asciiLower]
  refine (bind_lowerRest fun hours rest => ?_).trans (lowerRest_bind _ _).symm
  dsimp only
  rw [skipOffsetColon?_asciiLower]
  refine (bind_map_asciiLower fun rest => ?_).trans (lowerRest_bind _ _).symm
  rw [takeDigits?_asciiLower]
  refine (bind_lowerRest fun minutes rest => ?_).trans (lowerRest_bind _ _).symm
  dsimp only
  split_ifs <;> rfl

@[simp] theorem takeOffset?_asciiLower (t : Text) :
    form.takeOffset? (asciiLower t) = lowerRest (form.takeOffset? t) := by
  unfold takeOffset?
  rw [Text.take_asciiLower, Text.drop_asciiLower, Text.asciiLower_asciiLower]
  by_cases hutc : form = relaxed ∧ asciiLower (t.take 3) = "utc".toList
  · rw [if_pos hutc, if_pos hutc]
    rfl
  · rw [if_neg hutc, if_neg hutc]
    cases t with
    | nil => rfl
    | cons c t =>
        have hzulu := toLower_eq_capital_or_iff (d := 'Z') (e := 'z') (by decide) (by decide) c
        simp only [Text.asciiLower_cons, hzulu, toLower_eq_iff, Char.reduceIsAlpha,
          takeOffsetMinutes?_asciiLower]
        split_ifs
        · rfl
        · exact map_lowerRest fun n : Nat => (n : Int)
        · exact map_lowerRest fun n : Nat => -(n : Int)
        · rfl

@[simp] theorem skipSeparator?_asciiLower (t : Text) :
    skipSeparator? (asciiLower t) = (skipSeparator? t).map asciiLower := by
  cases t with
  | nil => rfl
  | cons c t =>
      have htime := toLower_eq_capital_or_iff (d := 'T') (e := 't') (by decide) (by decide) c
      simp only [skipSeparator?, Text.asciiLower_cons, ← or_assoc, htime, toLower_eq_iff,
        Char.reduceIsAlpha]
      split_ifs <;> rfl

end StampForm

@[simp] theorem Instant.read?_asciiLower (form : StampForm) (t : Text) :
    read? form (asciiLower t) = read? form t := by
  unfold read?
  rw [StampForm.takeYear?_asciiLower]
  refine bind_lowerRest fun year rest => ?_
  dsimp only
  rw [StampForm.skipGap_asciiLower, skipChar?_asciiLower rfl]
  refine bind_map_asciiLower fun rest => ?_
  rw [StampForm.takePart?_asciiLower]
  refine bind_lowerRest fun month rest => ?_
  dsimp only
  rw [StampForm.skipGap_asciiLower, skipChar?_asciiLower rfl]
  refine bind_map_asciiLower fun rest => ?_
  rw [StampForm.takePart?_asciiLower]
  refine bind_lowerRest fun day rest => ?_
  dsimp only
  rw [StampForm.skipSeparator?_asciiLower]
  refine bind_map_asciiLower fun rest => ?_
  rw [StampForm.takePart?_asciiLower]
  refine bind_lowerRest fun hour rest => ?_
  dsimp only
  rw [StampForm.skipGap_asciiLower, skipChar?_asciiLower rfl]
  refine bind_map_asciiLower fun rest => ?_
  rw [StampForm.takePart?_asciiLower]
  refine bind_lowerRest fun minute rest => ?_
  dsimp only
  rw [StampForm.skipGap_asciiLower, skipChar?_asciiLower rfl]
  refine bind_map_asciiLower fun rest => ?_
  rw [StampForm.takePart?_asciiLower]
  refine bind_lowerRest fun second rest => ?_
  dsimp only
  rw [StampForm.takeFraction?_asciiLower]
  refine bind_lowerRest fun nano rest => ?_
  dsimp only
  rw [StampForm.skipGap_asciiLower, StampForm.takeOffset?_asciiLower]
  refine bind_lowerRest fun offset rest => ?_
  simp only [StampForm.skipGap_asciiLower, Text.asciiLower_eq_nil]

/-! ### Spans -/

@[simp] theorem DateUnit.ofLetter?_toLower (c : Char) : ofLetter? c.toLower = ofLetter? c := by
  unfold ofLetter?
  rw [toLower_toLower]

theorem RelativeDate.read?_cons (c : Char) (t : Text) :
    read? (c :: t) =
      if c = '-' then
        t.getLast?.bind fun last => (DateUnit.ofLetter? last).bind fun unit =>
          (readPlusNat? t.dropLast).bind fun amount => of? amount unit
      else none := by
  split_ifs with h
  · rw [h]
    rfl
  · rw [read?]
    simp [h]

@[simp] theorem RelativeDate.read?_asciiLower (t : Text) : read? (asciiLower t) = read? t := by
  cases t with
  | nil => rfl
  | cons c t =>
      simp only [Text.asciiLower_cons, read?_cons, toLower_eq_iff, Char.reduceIsAlpha,
        Text.getLast?_asciiLower, Text.dropLast_asciiLower, readPlusNat?_asciiLower,
        Option.bind_map, Function.comp_def, DateUnit.ofLetter?_toLower]

end TicketSearch
