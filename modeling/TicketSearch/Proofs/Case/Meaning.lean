/-
The case of letters does not matter.

Two sources that differ in the case of ASCII letters have the same source in lower case, and
so tokens of the same kinds at the same places whose texts agree but for case.  Such tokens
denote literals that are alike, since all readers pass over case, and so do field names and
signs.  To the parser the sources are therefore alike: one parses when the other does, to
queries that are alike, and else both are rejected at one place.
-/
import TicketSearch.Proofs.Case.Source
import TicketSearch.Proofs.Meaning

namespace TicketSearch

open Text (asciiLower)

/-- What does not see case is the same on texts that differ in case. -/
theorem congr_of_asciiLower {α : Type} {f : Text → α} (hf : ∀ t, f (asciiLower t) = f t)
    {s t : Text} (h : asciiLower s = asciiLower t) : f s = f t := by
  rw [← hf s, h, hf]

@[simp] theorem folded_asciiLower (t : Text) : folded (asciiLower t) = folded t := by
  unfold folded
  rw [Text.trim_asciiLower]
  exact Text.lower_congr (Text.asciiLower_asciiLower _)

@[simp] theorem ofSymbol?_asciiLower (t : Text) :
    Comparison.ofSymbol? (asciiLower t) = Comparison.ofSymbol? t := by
  have hsigns : ∀ op : Comparison, ∀ c ∈ op.symbol, c.isAlpha = false := by
    intro op c hc
    have hall : (op.symbol.all fun c => !c.isAlpha) = true := by
      cases op <;> decide
    simpa using List.all_eq_true.mp hall c hc
  have hsame : ∀ op : Comparison, (op.symbol == asciiLower t) = (op.symbol == t) := by
    intro op
    refine Text.apply_asciiLower (p := (op.symbol == ·)) (fun u hu => ?_) t
    rw [← beq_iff_eq.mp hu]
    exact hsigns op
  simp only [Comparison.ofSymbol?, hsame]

/-! ### Literals -/

namespace Literal

/-- A literal with its text changed; days and spans are no texts. -/
def mapText (f : Text → Text) : Literal → Literal
  | quoted t => quoted (f t)
  | word t => word (f t)
  | number x t => number x (f t)
  | date d => date d
  | relative r => relative r

variable {s t : Text}

theorem alike_quoted (h : asciiLower s = asciiLower t) : (quoted s).Alike (quoted t) where
  text := congr_of_asciiLower folded_asciiLower h
  number := congr_of_asciiLower (f := fun t => readFloat? (Text.trim t)) (by simp) h
  day := congr_of_asciiLower (f := fun t => Date.read? (Text.trim t)) (by simp) h
  instant now := congr_of_asciiLower (f := fun t => (quoted t).instant? now) (by simp [instant?]) h

/-- A word is read as the quoted text. -/
theorem alike_word (h : asciiLower s = asciiLower t) : (word s).Alike (word t) :=
  ⟨(alike_quoted h).text, (alike_quoted h).number, (alike_quoted h).day, (alike_quoted h).instant⟩

theorem alike_number (x : Float) (h : asciiLower s = asciiLower t) :
    (number x s).Alike (number x t) :=
  ⟨(alike_quoted h).text, rfl, rfl, fun _ => rfl⟩

/-- Literals that differ in case only are alike. -/
theorem alike_of_mapText {v w : Literal} (h : v.mapText asciiLower = w.mapText asciiLower) :
    v.Alike w := by
  cases v <;> cases w <;> simp only [mapText, reduceCtorEq, quoted.injEq, word.injEq, number.injEq,
    date.injEq, relative.injEq] at h
  case quoted.quoted => exact alike_quoted h
  case word.word => exact alike_word h
  case number.number =>
      obtain ⟨rfl, htext⟩ := h
      exact alike_number _ htext
  case date.date =>
      rw [h]
      exact .refl _
  case relative.relative =>
      rw [h]
      exact .refl _

end Literal

/-- The text of a token between its quotes, if it has them. -/
def unquote : Text → Text
  | [] => []
  | c :: rest => if c = '"' ∧ rest.getLast? = some '"' then rest.dropLast else c :: rest

theorem unquote_asciiLower (t : Text) : unquote (asciiLower t) = asciiLower (unquote t) := by
  cases t with
  | nil => rfl
  | cons c rest =>
      have hlast : (asciiLower rest).getLast? = some '"' ↔ rest.getLast? = some '"' := by
        rw [Text.getLast?_asciiLower]
        cases rest.getLast? with
        | none => rfl
        | some d => simp [toLower_eq_iff]
      simp only [Text.asciiLower_cons, unquote, hlast, toLower_eq_iff, Char.reduceIsAlpha,
        Text.dropLast_asciiLower]
      split_ifs <;> rfl

theorem literal_of_string {t : Token} (h : t.kind = .string) :
    t.literal = .ok (.quoted (unquote t.text)) := by
  unfold Token.literal
  rw [h]
  cases htext : t.text with
  | nil => rfl
  | cons c rest =>
      by_cases hc : c = '"'
      · simp [unquote, hc]
      · simp [unquote, hc]

/-! ### Sources -/

/-- Tokens that stand in one place and agree but for case. -/
def Likeness.ofCase : Likeness where
  key := asciiLower
  place := Eq
  literal := Literal.Alike

/-- As `ofCase`, of literals that are the same but for case. -/
def Likeness.ofSpelling : Likeness where
  key := asciiLower
  place := Eq
  literal v w := v.mapText asciiLower = w.mapText asciiLower

namespace Likeness

theorem ofSpelling_denotations {t u : Token} (hkind : t.kind = u.kind)
    (htext : asciiLower t.text = asciiLower u.text) :
    ofSpelling.Denotations t.literal u.literal := by
  cases hk : t.kind with
  | string =>
      rw [literal_of_string hk, literal_of_string (hkind.symm.trans hk)]
      refine .ok (congrArg Literal.quoted ?_)
      rw [← unquote_asciiLower, htext, unquote_asciiLower]
  | number =>
      have hread : readFloat? t.text = readFloat? u.text :=
        congr_of_asciiLower readFloat?_asciiLower htext
      simp only [Token.literal, ← hkind, hk, hread]
      cases readFloat? u.text with
      | none => exact .error (congrArg Fault.invalidNumber htext)
      | some x => exact .ok (congrArg (Literal.number x) htext)
  | date =>
      have hread : Date.read? t.text = Date.read? u.text :=
        congr_of_asciiLower Date.read?_asciiLower htext
      simp only [Token.literal, ← hkind, hk, hread]
      cases Date.read? u.text with
      | none => exact .error (congrArg Fault.invalidDate htext)
      | some d => exact .ok rfl
  | relativeDate =>
      have hread : RelativeDate.read? t.text = RelativeDate.read? u.text :=
        congr_of_asciiLower RelativeDate.read?_asciiLower htext
      simp only [Token.literal, ← hkind, hk, hread]
      cases RelativeDate.read? u.text with
      | none => exact .error (congrArg Fault.invalidRelativeDate htext)
      | some r => exact .ok rfl
  | _ =>
      simp only [Token.literal, ← hkind, hk]
      exact .ok (congrArg Literal.word htext)

theorem ofSpelling_isSound : ofSpelling.IsSound where
  field _ _ h := congr_of_asciiLower Field.resolve?_asciiLower h
  sign _ _ h := congr_of_asciiLower ofSymbol?_asciiLower h
  quote s t h := by
    have hquote : ∀ t : Text, (asciiLower t).head? = some '"' ↔ t.head? = some '"' := by
      intro t
      cases t with
      | nil => rfl
      | cons c t => simp [toLower_eq_iff]
    have hlower : asciiLower s = asciiLower t := h
    rw [← hquote s, hlower, hquote]
  denotation _ _ hkind htext := ofSpelling_denotations hkind htext

/-- What holds of literals that are the same but for case holds of those that
nothing tells apart. -/
theorem ofCase_isSound : ofCase.IsSound where
  field := ofSpelling_isSound.field
  sign := ofSpelling_isSound.sign
  quote := ofSpelling_isSound.quote
  denotation t u hkind htext := by
    have hdenotation := ofSpelling_isSound.denotation t u hkind htext
    generalize t.literal = a at hdenotation ⊢
    generalize u.literal = b at hdenotation ⊢
    cases hdenotation with
    | ok hliteral => exact .ok (Literal.alike_of_mapText hliteral)
    | error hfault => exact .error hfault

end Likeness

/-- Sources that differ in case have tokens that do, at the same places. -/
theorem Token.map_lowerText_stream {s t : Text} (h : asciiLower s = asciiLower t) :
    (stream s).map lowerText = (stream t).map lowerText := by
  rw [← stream_asciiLower, h, stream_asciiLower]

theorem Likeness.ofSpelling_tokens {ts us : List Token}
    (h : ts.map Token.lowerText = us.map Token.lowerText) :
    List.Forall₂ ofSpelling.Tokens ts us := by
  have hall : List.Forall₂ Eq (ts.map Token.lowerText) (us.map Token.lowerText) := by
    rw [List.forall₂_eq_eq_eq]
    exact h
  rw [List.forall₂_map_left_iff, List.forall₂_map_right_iff] at hall
  refine hall.imp fun t u htu => ?_
  obtain ⟨hkind, htext, hstart, _⟩ := Token.mk.inj htu
  exact ⟨hkind, htext, hstart⟩

theorem Likeness.ofCase_tokens {ts us : List Token}
    (h : ts.map Token.lowerText = us.map Token.lowerText) : List.Forall₂ ofCase.Tokens ts us :=
  (ofSpelling_tokens h).imp fun _ _ htu => ⟨htu.kind, htu.text, htu.start⟩

namespace Query

/-- Sources that differ in case have answers that do. -/
theorem parse_respelled {s t : Text} (h : asciiLower s = asciiLower t) :
    Likeness.ofSpelling.Answers (parse s) (parse t) :=
  Likeness.alike_parseTokens Likeness.ofSpelling_isSound
    (Likeness.ofSpelling_tokens (Token.map_lowerText_stream h))

/--
**The case of ASCII letters does not matter**, wherever they stand in a source.  The tokens
have the same kinds, starts and ends.  Either both sources parse, and then the queries have
the same value on every row and the same statement in SQL, if they have one; or both are
rejected, at the same place and for faults that agree but for case.
-/
theorem parse_changed_case (s t : Text) (h : asciiLower s = asciiLower t) :
    (Token.stream s).map (fun token => (token.kind, token.start, token.stop)) =
        (Token.stream t).map (fun token => (token.kind, token.start, token.stop)) ∧
      ((∃ p q, parse s = .ok p ∧ parse t = .ok q ∧
          (∀ row now, p.eval row now = q.eval row now) ∧
            ∀ table now, (Sql.statement table now p).toOption =
              (Sql.statement table now q).toOption) ∨
        ∃ e e', parse s = .error e ∧ parse t = .error e' ∧ e.position = e'.position ∧
          e.fault.mapText asciiLower = e'.fault.mapText asciiLower) := by
  have hstream := Token.map_lowerText_stream h
  have hanswers :=
    Likeness.alike_parseTokens Likeness.ofCase_isSound (Likeness.ofCase_tokens hstream)
  constructor
  · have hplaces :=
      congrArg (List.map fun token : Token => (token.kind, token.start, token.stop)) hstream
    rwa [List.map_map, List.map_map] at hplaces
  · unfold parse
    generalize (parseTokens (Token.stream s)).1 = a at hanswers ⊢
    generalize (parseTokens (Token.stream t)).1 = b at hanswers ⊢
    cases hanswers with
    | @ok p q hquery =>
        exact Or.inl ⟨p, q, rfl, rfl, hquery.eval_eq, fun table now =>
          Sql.toOption_statement_congr hquery table now⟩
    | @error e e' herror =>
        have hsame : ∀ a b : Option Nat, Option.Rel Likeness.ofCase.place a b → a = b := by
          rintro _ _ (heq | _)
          · exact congrArg some heq
          · rfl
        exact Or.inr ⟨e, e', rfl, rfl, hsame _ _ herror.position, herror.fault⟩

/-- Capitals in a keyword, a field, a quoted text before a sigma, and a unit. -/
theorem parse_changed_case_of_sigma :
    let s : Text := "Title = \"ΟΔΟΣa\" AND updated >= -7D"
    let t : Text := "title = \"ΟΔΟΣA\" and Updated >= -7d"
    asciiLower s = asciiLower t ∧ ∃ p q, parse s = .ok p ∧ parse t = .ok q ∧
      ∀ row now, p.eval row now = q.eval row now := by
  intro s t
  have hlower : asciiLower s = asciiLower t := by decide +kernel
  have hparse : (parse s).toOption.isSome = true := by decide +kernel
  refine ⟨hlower, ?_⟩
  rcases (parse_changed_case s t hlower).2 with ⟨p, q, hp, hq, heval, _⟩ | ⟨e, _, he, _⟩
  · exact ⟨p, q, hp, hq, heval⟩
  · rw [he] at hparse
    cases hparse

end Query

end TicketSearch
