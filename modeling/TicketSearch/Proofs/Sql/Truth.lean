/-
What a condition means in the database.

A condition is true, false or unknown on a row; unknown is `none`.  A missing cell is a
null: every comparison with it is unknown, and the connectives carry the unknown on
unless one operand decides.  `EXISTS` never is unknown, since a null array has no items.

What the meaning needs of the database itself is a `Database`: its functions on text and
the order in which it compares texts, which tells different texts apart.
-/
import Mathlib.Data.List.Forall2
import TicketSearch.Sql.Condition
import TicketSearch.Proofs.Number
import TicketSearch.Ticket

namespace TicketSearch

namespace Sql

/-- The text functions of a database, and its collation. -/
structure Database where
  /-- `LOWER`. -/
  lower : Text → Text
  /-- `TRIM`. -/
  trim : Text → Text
  /-- How two texts are ordered. -/
  collation : Text → Text → Ordering
  collation_eq : ∀ s t, collation s t = .eq ↔ s = t

/-- A truth value of SQL; `none` is `UNKNOWN`. -/
abbrev Truth := Option Bool

namespace Truth

/-- `AND`: one false operand decides. -/
def and : Truth → Truth → Truth
  | some false, _ => some false
  | _, some false => some false
  | some true, some true => some true
  | _, _ => none

/-- `OR`: one true operand decides. -/
def or : Truth → Truth → Truth
  | some true, _ => some true
  | _, some true => some true
  | some false, some false => some false
  | _, _ => none

/-- `NOT`: what is unknown stays so. -/
def not (a : Truth) : Truth :=
  a.map Bool.not

@[simp] theorem and_some (a b : Bool) : and (some a) (some b) = some (a && b) := by
  cases a <;> cases b <;> rfl

@[simp] theorem or_some (a b : Bool) : or (some a) (some b) = some (a || b) := by
  cases a <;> cases b <;> rfl

@[simp] theorem not_some (a : Bool) : not (some a) = some (!a) := rfl

@[simp] theorem false_and (a : Truth) : and (some false) a = some false := rfl

@[simp] theorem true_or (a : Truth) : or (some true) a = some true := rfl

theorem or_false (a : Truth) : or a (some false) = a := by
  rcases a with _ | _ | _ <;> rfl

theorem or_assoc (a b c : Truth) : or (or a b) c = or a (or b c) := by
  rcases a with _ | _ | _ <;> rcases b with _ | _ | _ <;> rcases c with _ | _ | _ <;> rfl

theorem and_or (p a b : Truth) : and p (or a b) = or (and p a) (and p b) := by
  rcases p with _ | _ | _ <;> rcases a with _ | _ | _ <;> rcases b with _ | _ | _ <;> rfl

/-- `OR` of any number of operands; false without one. -/
def any (ts : List Truth) : Truth :=
  ts.foldr Truth.or (some false)

theorem any_cons (t : Truth) (ts : List Truth) : any (t :: ts) = or t (any ts) := rfl

/-- What is known of every operand is known of all together. -/
theorem any_eq {α : Type} {hits : α → Bool} {xs : List α} {ts : List Truth}
    (h : List.Forall₂ (fun a t => t = some (hits a)) xs ts) : any ts = some (xs.any hits) := by
  induction h with
  | nil => rfl
  | cons hfirst _ ih => rw [any_cons, hfirst, ih, or_some, List.any_cons]

/-- A guard of all operands together is a guard of every one. -/
theorem and_any (p : Truth) (ts : List Truth) : and p (any ts) = any (ts.map (and p)) := by
  induction ts with
  | nil => rcases p with _ | _ | _ <;> rfl
  | cons t ts ih => rw [any_cons, and_or, ih, List.map_cons, any_cons]

end Truth

/-- The order of two binary64 numbers; NaN equals itself and stands above all others. -/
def doubleOrder (x y : Float) : Ordering :=
  match floatOrder? x y with
  | some o => o
  | none => compare x.isNaN.toNat y.isNaN.toNat

theorem doubleOrder_eq {x y : Float} {o : Ordering} (h : floatOrder? x y = some o) :
    doubleOrder x y = o := by
  unfold doubleOrder
  rw [h]

/-- What a cell of a row is as a constant; null for a missing cell and for an array. -/
def valueOfCell : Cell → Option Value
  | .missing | .list _ => none
  | .text t => some (.text t)
  | .number x => some (.number x)
  | .date i => some (.timestamp i)

namespace Database

variable (db : Database)

/-- What stands on the left of a comparison; `none` is null. -/
def operand (row : Row) : Operand → Option Value
  | .column f => valueOfCell (row f)
  | .lowered f =>
    match row f with
    | .text t => some (.text (db.lower t))
    | _ => none

/-- The order of two constants of one type. -/
def order? : Value → Value → Option Ordering
  | .text s, .text t => some (db.collation s t)
  | .number x, .number y => some (doubleOrder x y)
  | .timestamp i, .timestamp j => some (compare i j)
  | _, _ => none

/-- A comparison of an operand with a constant. -/
def compare (operand : Option Value) (op : Comparison) (value : Value) : Truth :=
  (operand.bind fun v => db.order? v value).map op.accepts

/-- `IN`: the operand equals one of the constants. -/
def isOneOf (operand : Option Value) : List Value → Truth
  | [] => some false
  | v :: vs => Truth.or (db.compare operand .eq v) (isOneOf operand vs)

/-- The truth value of a condition on a row. -/
def truth (row : Row) : Condition → Truth
  | .constant b => some b
  | .isNull f => some (row f == .missing)
  | .isBlank f =>
    match row f with
    | .text t => db.compare (some (.text (db.trim t))) .eq (.text [])
    | _ => none
  | .hasNoItems f =>
    match row f with
    | .list items => some items.isEmpty
    | _ => none
  | .hasItem f values =>
    match row f with
    -- a search among no values cannot be written
    | .list items =>
      if values = [] then none
      else some (items.any fun item =>
        db.isOneOf (some (.text (db.lower item))) (values.map .text) == some true)
    | _ => some false
  | .compare operand op value => db.compare (db.operand row operand) op value
  | .oneOf operand values => db.isOneOf (db.operand row operand) values
  | .and left right => Truth.and (truth row left) (truth row right)
  | .or left right => Truth.or (truth row left) (truth row right)
  | .not inner => Truth.not (truth row inner)

/-! ### Comparing texts and searching among them -/

@[simp] theorem compare_text_eq (s t : Text) :
    db.compare (some (.text s)) .eq (.text t) = some (s == t) := by
  show some (db.collation s t == .eq) = some (s == t)
  rw [Option.some.injEq, Bool.eq_iff_iff, beq_iff_eq, beq_iff_eq]
  exact db.collation_eq s t

theorem compare_text_notEq (s t : Text) :
    db.compare (some (.text s)) .notEq (.text t) = some (s != t) := by
  show some (!(db.collation s t == .eq)) = some (!(s == t))
  have heq := db.compare_text_eq s t
  rw [show db.compare (some (.text s)) .eq (.text t) = some (db.collation s t == .eq) from rfl,
    Option.some.injEq] at heq
  rw [heq]

theorem isOneOf_eq_any (operand : Option Value) (constants : List Value) :
    db.isOneOf operand constants = Truth.any (constants.map (db.compare operand .eq)) := by
  induction constants with
  | nil => rfl
  | cons v constants ih => rw [isOneOf, ih, List.map_cons, Truth.any_cons]

/-- A search whose every comparison has an answer has one. -/
theorem isOneOf_eq {α : Type} {operand : Option Value} {hits : α → Bool} {sought : List α}
    {constants : List Value}
    (h : List.Forall₂ (fun a v => db.compare operand .eq v = some (hits a)) sought constants) :
    db.isOneOf operand constants = some (sought.any hits) := by
  rw [isOneOf_eq_any]
  exact Truth.any_eq (List.forall₂_map_right_iff.mpr h)

theorem isOneOf_text (s : Text) (texts : List Text) :
    db.isOneOf (some (.text s)) (texts.map .text) = some (texts.any (s == ·)) := by
  refine db.isOneOf_eq (List.forall₂_map_right_iff.mpr (List.forall₂_same.mpr ?_))
  intro t _
  exact db.compare_text_eq s t

end Database

/-! ### Databases that treat case as the evaluation does -/

/-- A database whose `LOWER` is Unicode lower case and whose `TRIM` leaves trimmed texts alone. -/
structure Database.IsFaithful (db : Database) : Prop where
  lower_eq : ∀ t, db.lower t = Text.lower t
  trim_eq : ∀ t, Text.trim t = t → db.trim t = t

/-- A text without the spaces at its ends; other blanks stay. -/
def trimSpaces (t : Text) : Text :=
  ((t.dropWhile (· == ' ')).reverse.dropWhile (· == ' ')).reverse

theorem dropWhile_spaces {t : Text} (h : t.dropWhile isBlank = t) : t.dropWhile (· == ' ') = t := by
  cases t with
  | nil => rfl
  | cons c cs =>
      rw [List.dropWhile_cons] at h ⊢
      have hc : isBlank c = false := by
        by_cases hblank : isBlank c = true
        · rw [if_pos hblank] at h
          have hlen := congrArg List.length h
          have hle := (List.dropWhile_suffix isBlank (l := cs)).length_le
          rw [List.length_cons] at hlen
          omega
        · exact eq_false_of_ne_true hblank
      have hspace : ¬(c == ' ') = true := by
        rw [beq_iff_eq]
        rintro rfl
        exact absurd hc (by decide)
      rw [if_neg hspace]

theorem trimSpaces_of_trimmed {t : Text} (h : Text.trim t = t) : trimSpaces t = t := by
  unfold Text.trim Text.trimEnd Text.trimStart at h
  have hstart : t.dropWhile isBlank = t := by
    have hlen := congrArg List.length h
    have hle := (List.dropWhile_suffix isBlank (l := t)).length_le
    have hle' := (List.dropWhile_suffix isBlank (l := (t.dropWhile isBlank).reverse)).length_le
    rw [List.length_reverse] at hlen hle'
    exact (List.dropWhile_suffix isBlank).eq_of_length (by omega)
  rw [hstart] at h
  have hend : t.reverse.dropWhile isBlank = t.reverse := by
    rw [← List.reverse_eq_iff]
    exact h
  unfold trimSpaces
  rw [dropWhile_spaces hstart, dropWhile_spaces hend, List.reverse_reverse]

/-- A database that trims spaces only and orders texts by their code points. -/
def Database.plain : Database :=
  ⟨Text.lower, trimSpaces, fun s t => Ord.compare s t, fun _ _ => Std.compare_eq_iff_eq⟩

theorem Database.plain_isFaithful : Database.plain.IsFaithful :=
  ⟨fun _ => rfl, fun _ h => trimSpaces_of_trimmed h⟩

end Sql

end TicketSearch
