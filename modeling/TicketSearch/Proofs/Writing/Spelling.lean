/-
The lexemes of a canonical text.

`Query.spellings` lists the kinds and texts of the tokens that the canonical text of a
query is made of.  The text lexes so before anything that separates (`Query.spells`), and
marking the fields turns every name at the head of a predicate into a field and no other
word (`Query.markSpellings_eq`).  Both are inductions on the query, in which what comes
behind it is arbitrary.
-/
import TicketSearch.Proofs.Writing.Literal

namespace TicketSearch

open Lexeme (Scans Separates IsWord)
open Token (Spells markSpellings)

namespace Query

/-- Whether every literal is well formed, no list is empty, and no part matches everything. -/
def Proper : Query → Prop
  | .all => False
  | .compare _ _ value => value.WellFormed
  | .member _ _ values => values ≠ [] ∧ ∀ value ∈ values, value.WellFormed
  | .empty _ _ => True
  | .and left right | .or left right => left.Proper ∧ right.Proper
  | .not inner => inner.Proper

/-- Whether a query is one that can be written: proper, or the one that every ticket satisfies. -/
def WellFormed (q : Query) : Prop :=
  q = .all ∨ q.Proper

/-! ### Spellings -/

/-- The parenthesis that opens a group or a list. -/
def opening : TokenKind × Text := (.openParen, "(")

/-- The parenthesis that closes it. -/
def closing : TokenKind × Text := (.closeParen, ")")

/-- The lexemes of the values of a list. -/
def valueSpellings : List Literal → List (TokenKind × Text)
  | [] => []
  | [value] => [value.spelling]
  | value :: values => value.spelling :: (.comma, ",") :: valueSpellings values

/-- `NOT`, where it stands in front of a keyword. -/
def notSpelling (negated : Bool) : List (TokenKind × Text) :=
  if negated then [(.notWord, "NOT")] else []

/-- Two operands in parentheses, with a connective between them. -/
def groupSpellings (connective : TokenKind × Text) (left right : List (TokenKind × Text)) :
    List (TokenKind × Text) :=
  opening :: (left ++ connective :: (right ++ [closing]))

/-- The lexemes of the canonical text; `name` is the kind of the names of fields. -/
def spellings (name : TokenKind) : Query → List (TokenKind × Text)
  | .all => []
  | .compare field op value => [(name, field.name), (.operator, op.symbol), value.spelling]
  | .member field negated values =>
    (name, field.name) :: (notSpelling negated ++ ((.inWord, "IN") : TokenKind × Text) :: opening ::
      (valueSpellings values ++ [closing]))
  | .empty field negated =>
    (name, field.name) :: (.isWord, "IS") ::
      (notSpelling negated ++ [((.emptyWord, "EMPTY") : TokenKind × Text)])
  | .and left right => groupSpellings (.andWord, "AND") (left.spellings name) (right.spellings name)
  | .or left right => groupSpellings (.orWord, "OR") (left.spellings name) (right.spellings name)
  | .not inner => (.notWord, "NOT") :: inner.spellings name

end Query

/-! ### Words and signs of the canonical text -/

theorem separates_space (r : Text) : Separates (' ' :: r) :=
  Lexeme.separates_of_isBlank (by decide)

theorem isWord_of_all {t : Text} (ht : t.all isWordChar = true)
    (hstarts : ∃ c cs, t = c :: cs ∧ Lexeme.startsWord c cs = true) : IsWord t :=
  ⟨hstarts, fun d hd => List.all_eq_true.mp ht d hd⟩

theorem scans_name (f : Field) {r : Text} (hr : Separates r) : Scans .value f.name r := by
  have hall : f.name.all isWordChar = true := by cases f <;> rfl
  have hkind : Lexeme.wordKind f.name = .value := by cases f <;> rfl
  have hstarts : ∃ c cs, f.name = c :: cs ∧ Lexeme.startsWord c cs = true := by
    cases f <;> exact ⟨_, _, rfl, rfl⟩
  have hscans := (isWord_of_all hall hstarts).scans hr
  rwa [hkind] at hscans

theorem scans_symbol (op : Comparison) (r : Text) : Scans .operator op.symbol (' ' :: r) := by
  cases op with
  | eq => exact .mark '=' rfl
  | notEq => exact .signEquals '!' (by decide)
  | gt => exact .sign '>' (by decide) (by simp)
  | lt => exact .sign '<' (by decide) (by simp)
  | gtEq => exact .signEquals '>' (by decide)
  | ltEq => exact .signEquals '<' (by decide)

/-- The keywords of the canonical text. -/
def keywordSpellings : List (TokenKind × Text) :=
  [(.notWord, "NOT"), (.inWord, "IN"), (.isWord, "IS"), (.emptyWord, "EMPTY"), (.andWord, "AND"),
    (.orWord, "OR")]

theorem scans_keyword {k : TokenKind} {word : Text}
    (h : (k, word) ∈ keywordSpellings) {r : Text} (hr : Separates r) : Scans k word r := by
  have hword : Lexeme.wordKind word = k ∧ word.all isWordChar = true ∧
      ∃ c cs, word = c :: cs ∧ Lexeme.startsWord c cs = true := by
    simp only [keywordSpellings, List.mem_cons, List.not_mem_nil, or_false, Prod.mk.injEq] at h
    rcases h with ⟨rfl, rfl⟩ | ⟨rfl, rfl⟩ | ⟨rfl, rfl⟩ | ⟨rfl, rfl⟩ | ⟨rfl, rfl⟩ | ⟨rfl, rfl⟩ <;>
      exact ⟨rfl, rfl, _, _, rfl, rfl⟩
  obtain ⟨hkind, hall, hstarts⟩ := hword
  have hscans := (isWord_of_all hall hstarts).scans hr
  rwa [hkind] at hscans

/-! ### The canonical text lexes as its spellings -/

namespace Query

variable {r : Text} {rest : List (TokenKind × Text)}

theorem spells_opening (h : Spells r rest) : Spells ('(' :: r) (opening :: rest) :=
  h.lexeme (.mark '(' rfl)

theorem spells_closing (h : Spells r rest) : Spells (')' :: r) (closing :: rest) :=
  h.lexeme (.mark ')' rfl)

theorem separates_closing : Separates (')' :: r) :=
  Lexeme.separates_cons (by decide) (by decide)

theorem spells_space (h : Spells r rest) : Spells (' ' :: r) rest :=
  h.blank (by decide)

theorem spells_literal {v : Literal} (hv : v.WellFormed) (hr : Separates r) (h : Spells r rest) :
    Spells (v.write ++ r) (v.spelling :: rest) :=
  h.lexeme (v.scans hv hr)

theorem spells_values {values : List Literal} (hv : ∀ v ∈ values, v.WellFormed) (hr : Separates r)
    (h : Spells r rest) : Spells (writeValues values ++ r) (valueSpellings values ++ rest) := by
  induction values with
  | nil => exact h
  | cons v values ih =>
      cases values with
      | nil => exact spells_literal (hv v List.mem_cons_self) hr h
      | cons w values =>
          have hrest := ih fun u hu => hv u (List.mem_cons_of_mem _ hu)
          have hcomma : Spells (',' :: ' ' :: (writeValues (w :: values) ++ r))
              ((.comma, ",") :: (valueSpellings (w :: values) ++ rest)) :=
            (spells_space hrest).lexeme (.mark ',' rfl)
          have hsep : Separates (',' :: ' ' :: (writeValues (w :: values) ++ r)) :=
            Lexeme.separates_cons (by decide) (by decide)
          have hall := spells_literal (hv v List.mem_cons_self) hsep hcomma
          show Spells ((v.write ++ ", ".toList ++ writeValues (w :: values)) ++ r) _
          rw [List.append_assoc, List.append_assoc]
          exact hall

/-- A keyword of the canonical text, and a space behind it. -/
theorem spells_keyword (k : TokenKind) (word : Text)
    (hword : (k, word) ∈ keywordSpellings) (h : Spells r rest) :
    Spells (word ++ ' ' :: r) ((k, word) :: rest) :=
  (spells_space h).lexeme (scans_keyword hword (separates_space r))

theorem spells_group (connective : TokenKind × Text)
    (hword : connective ∈ keywordSpellings) {left right : Query} {ls rs : List (TokenKind × Text)}
    (hl : ∀ {r : Text} {rest : List (TokenKind × Text)}, Separates r → Spells r rest →
      Spells (left.write ++ r) (ls ++ rest))
    (hr : ∀ {r : Text} {rest : List (TokenKind × Text)}, Separates r → Spells r rest →
      Spells (right.write ++ r) (rs ++ rest)) (h : Spells r rest) :
    Spells ('(' :: (left.write ++ ' ' :: (connective.2 ++ ' ' :: (right.write ++ ')' :: r))))
      (groupSpellings connective ls rs ++ rest) := by
  have hright := hr separates_closing (spells_closing h)
  have hleft := hl (separates_space _) (spells_space (spells_keyword _ _ hword hright))
  have hall := spells_opening hleft
  unfold groupSpellings
  rw [List.cons_append, List.append_assoc, List.cons_append, List.append_assoc]
  exact hall

theorem spells_name (field : Field) (h : Spells r rest) :
    Spells (field.name ++ ' ' :: r) ((.value, field.name) :: rest) :=
  (spells_space h).lexeme (scans_name field (separates_space _))

theorem spells_not (negated : Bool) (h : Spells r rest) :
    Spells ((if negated then "NOT ".toList else []) ++ r) (notSpelling negated ++ rest) := by
  cases negated with
  | false => exact h
  | true => exact spells_keyword .notWord "NOT" (by decide) h

theorem spells_member (field : Field) (negated : Bool) {values : List Literal}
    (hv : ∀ v ∈ values, v.WellFormed) (h : Spells r rest) :
    Spells ((Query.member field negated values).write ++ r)
      ((Query.member field negated values).spellings .value ++ rest) := by
  have hvalues := spells_values hv separates_closing (spells_closing h)
  have hin := spells_keyword .inWord "IN" (by decide) (spells_opening hvalues)
  have hall := spells_name field (spells_not negated hin)
  have htext : (Query.member field negated values).write ++ r =
      field.name ++ ' ' :: ((if negated then "NOT ".toList else []) ++ ("IN".toList ++ ' ' ::
        ('(' :: (writeValues values ++ ')' :: r)))) := by
    cases negated <;> simp [write]
  have hlexemes : (Query.member field negated values).spellings .value ++ rest =
      (.value, field.name) :: (notSpelling negated ++ (.inWord, "IN".toList) :: opening ::
        (valueSpellings values ++ closing :: rest)) := by
    simp [spellings]
  rw [htext, hlexemes]
  exact hall

theorem spells_empty (field : Field) (negated : Bool) (hr : Separates r) (h : Spells r rest) :
    Spells ((Query.empty field negated).write ++ r)
      ((Query.empty field negated).spellings .value ++ rest) := by
  have hempty : Spells ("EMPTY".toList ++ r) ((.emptyWord, "EMPTY".toList) :: rest) :=
    h.lexeme (scans_keyword (by decide) hr)
  have his := spells_keyword .isWord "IS" (by decide) (spells_not negated hempty)
  have hall := spells_name field his
  have htext : (Query.empty field negated).write ++ r =
      field.name ++ ' ' :: ("IS".toList ++ ' ' :: ((if negated then "NOT ".toList else []) ++
        ("EMPTY".toList ++ r))) := by
    cases negated <;> simp [write]
  have hlexemes : (Query.empty field negated).spellings .value ++ rest =
      (.value, field.name) :: (.isWord, "IS".toList) ::
        (notSpelling negated ++ (.emptyWord, "EMPTY".toList) :: rest) := by
    simp [spellings]
  rw [htext, hlexemes]
  exact hall

/-- The canonical text lexes as its spellings, whatever separates and comes behind it. -/
theorem spells {q : Query} (hq : q.Proper) (hr : Separates r) (h : Spells r rest) :
    Spells (q.write ++ r) (q.spellings .value ++ rest) := by
  induction q generalizing r rest with
  | all => exact hq.elim
  | compare field op value =>
      have hvalue := spells_literal hq hr h
      have hop := (spells_space hvalue).lexeme (scans_symbol op _)
      have hall := spells_name field hop
      have htext : (Query.compare field op value).write ++ r =
          field.name ++ ' ' :: (op.symbol ++ ' ' :: (value.write ++ r)) := by
        simp [write]
      rw [htext]
      exact hall
  | member field negated values => exact spells_member field negated hq.2 h
  | empty field negated => exact spells_empty field negated hr h
  | and left right ihl ihr =>
      have hall := spells_group (.andWord, "AND") (by decide)
        (fun hr h => ihl hq.1 hr h) (fun hr h => ihr hq.2 hr h) h
      have htext : (Query.and left right).write ++ r = '(' :: (left.write ++ ' ' ::
          ("AND".toList ++ ' ' :: (right.write ++ ')' :: r))) := by
        simp [write]
      rw [htext]
      exact hall
  | or left right ihl ihr =>
      have hall := spells_group (.orWord, "OR") (by decide)
        (fun hr h => ihl hq.1 hr h) (fun hr h => ihr hq.2 hr h) h
      have htext : (Query.or left right).write ++ r = '(' :: (left.write ++ ' ' ::
          ("OR".toList ++ ' ' :: (right.write ++ ')' :: r))) := by
        simp [write]
      rw [htext]
      exact hall
  | not inner ih =>
      exact spells_keyword .notWord "NOT" (by decide) (ih hq hr h)

/-! ### Its names are the fields -/

theorem resolve?_name (field : Field) : Field.resolve? field.name = some field := by
  cases field <;> rfl

theorem mark_name (afterIn : Bool) (field : Field) :
    markSpellings true afterIn ((.value, field.name) :: rest) =
      (.field, field.name) :: markSpellings false false rest := by
  refine Token.markSpellings_cons true afterIn ?_ rest
  unfold Token.markedKind
  rw [resolve?_name]
  rfl

theorem mark_literal (v : Literal) (afterIn : Bool) :
    markSpellings false afterIn (v.spelling :: rest) =
      v.spelling :: markSpellings false false rest := by
  unfold Literal.spelling
  rw [Token.markSpellings_cons false afterIn (Token.markedKind_unexpected _ _)]
  cases v <;> rfl

theorem mark_values {values : List Literal} (hne : values ≠ []) (afterIn : Bool) :
    markSpellings false afterIn (valueSpellings values ++ rest) =
      valueSpellings values ++ markSpellings false false rest := by
  induction values generalizing afterIn with
  | nil => exact absurd rfl hne
  | cons v values ih =>
      cases values with
      | nil => exact mark_literal v afterIn
      | cons w values =>
          show markSpellings false afterIn
            (v.spelling :: (.comma, _) :: (valueSpellings (w :: values) ++ rest)) = _
          rw [mark_literal, Token.markSpellings_cons false false (Token.markedKind_unexpected _ _)]
          show v.spelling :: (.comma, _) :: markSpellings false false _ = _
          rw [ih (List.cons_ne_nil w values)]
          rfl

theorem mark_not (negated : Bool) (k : TokenKind) (word : Text) (rest : List (TokenKind × Text)) :
    ∃ expected, markSpellings false false (notSpelling negated ++ (k, word) :: rest) =
      notSpelling negated ++ markSpellings expected false ((k, word) :: rest) := by
  cases negated with
  | false => exact ⟨false, rfl⟩
  | true => exact ⟨true, rfl⟩

theorem mark_group {connective : TokenKind × Text} {ls ls' rs rs' : List (TokenKind × Text)}
    (hword : connective.1 = .andWord ∨ connective.1 = .orWord)
    (hl : ∀ rest, markSpellings true false (ls ++ rest) = ls' ++ markSpellings false false rest)
    (hr : ∀ rest, markSpellings true false (rs ++ rest) = rs' ++ markSpellings false false rest) :
    markSpellings true false (groupSpellings connective ls rs ++ rest) =
      groupSpellings connective ls' rs' ++ markSpellings false false rest := by
  have hconnective : ∀ rest, markSpellings false false (connective :: rest) =
      connective :: markSpellings true false rest := by
    intro rest
    obtain ⟨k, t⟩ := connective
    rcases hword with hk | hk <;> (cases hk; rfl)
  have hlist : groupSpellings connective ls rs ++ rest =
      opening :: (ls ++ connective :: (rs ++ closing :: rest)) := by
    simp [groupSpellings]
  rw [hlist]
  show opening :: markSpellings true false (ls ++ connective :: (rs ++ closing :: rest)) = _
  rw [hl, hconnective, hr]
  show opening :: (ls' ++ connective :: (rs' ++ closing :: markSpellings false false rest)) = _
  simp [groupSpellings]

/-- Where a query is expected, the names at the heads of its predicates are
marked and nothing else. -/
theorem markSpellings_eq {q : Query} (hq : q.Proper) (rest : List (TokenKind × Text)) :
    markSpellings true false (q.spellings .value ++ rest) =
      q.spellings .field ++ markSpellings false false rest := by
  induction q generalizing rest with
  | all => exact hq.elim
  | compare field op value =>
      show markSpellings true false
        ((.value, field.name) :: (.operator, op.symbol) :: value.spelling :: rest) = _
      rw [mark_name, Token.markSpellings_cons false false (Token.markedKind_unexpected _ _)]
      show _ :: _ :: markSpellings false false (value.spelling :: rest) = _
      rw [mark_literal]
      rfl
  | member field negated values =>
      obtain ⟨expected, hnot⟩ := mark_not negated .inWord "IN"
        (opening :: (valueSpellings values ++ closing :: rest))
      have hlist : ∀ name, (Query.member field negated values).spellings name ++ rest =
          (name, field.name) :: (notSpelling negated ++ (.inWord, "IN".toList) :: opening ::
            (valueSpellings values ++ closing :: rest)) := by
        intro name
        simp [spellings]
      rw [hlist, mark_name, hnot,
        Token.markSpellings_cons expected false (Token.markedKind_of_ne (by decide) _ _)]
      show _ :: (notSpelling negated ++ _ :: opening ::
        markSpellings false false (valueSpellings values ++ closing :: rest)) = _
      rw [mark_values hq.1]
      show (TokenKind.field, field.name) ::
          (notSpelling negated ++ (.inWord, "IN".toList) :: opening ::
        (valueSpellings values ++ closing :: markSpellings false false rest)) = _
      simp [spellings]
  | empty field negated =>
      obtain ⟨expected, hnot⟩ := mark_not negated .emptyWord "EMPTY" rest
      have hlist : ∀ name rest, (Query.empty field negated).spellings name ++ rest =
          (name, field.name) :: (.isWord, "IS".toList) ::
            (notSpelling negated ++ (.emptyWord, "EMPTY".toList) :: rest) := by
        intro name rest
        simp [spellings]
      rw [hlist, mark_name, Token.markSpellings_cons false false (Token.markedKind_unexpected _ _)]
      show _ :: _ :: markSpellings false false _ = _
      rw [hnot, Token.markSpellings_cons expected false (Token.markedKind_of_ne (by decide) _ _),
        hlist]
      rfl
  | and left right ihl ihr =>
      exact mark_group (Or.inl rfl) (fun rest => ihl hq.1 rest) (fun rest => ihr hq.2 rest)
  | or left right ihl ihr =>
      exact mark_group (Or.inr rfl) (fun rest => ihl hq.1 rest) (fun rest => ihr hq.2 rest)
  | not inner ih =>
      show (TokenKind.notWord, _) :: markSpellings true false (inner.spellings .value ++ rest) = _
      rw [ih hq]
      rfl

end Query

end TicketSearch
