/-
What is in effect after a run of changes.

A session holds a filter, the tickets at hand and a moment.  What each of them is after any
number of changes can be told from the changes alone: the tickets and the moment are the last
ones given, and the filter is that of the last text that parsed since a filter was last dropped
(`lastSet`).  One more change either drops the filter, sets one or leaves it, and an induction
over the changes, from the last one, does the rest.

The invariant is that the text of the filter parses to its query.  A text that does not parse
cannot break it, since it changes nothing at all.
-/
import Mathlib.Data.List.Induction
import TicketSearch.Session

namespace TicketSearch

/-! ### The last filter that was set -/

section

variable {α : Type} (drops : α → Bool) (sets? : α → Option Filter)

/-- The filter that was set last since one was last dropped, or the one that keeps every ticket. -/
def lastSet (items : List α) : Filter :=
  ((items.reverse.takeWhile fun x => !drops x).findSome? sets?).getD .all

theorem lastSet_concat (items : List α) (x : α) :
    lastSet drops sets? (items ++ [x]) =
      if drops x then .all else (sets? x).getD (lastSet drops sets? items) := by
  unfold lastSet
  rw [List.reverse_concat, List.takeWhile_cons]
  by_cases hx : drops x = true
  · rw [if_pos hx, hx, if_neg (by decide)]
    rfl
  · rw [if_neg hx, eq_false_of_ne_true hx, if_pos (by decide), List.findSome?_cons]
    cases sets? x <;> rfl

end

/-! ### A text that is entered -/

namespace Filter

variable {f : Filter} {source : Text} {q : Query} {error : ParseError}

theorem parse_of_ok (h : Query.parse source = .ok q) : parse source = .ok ⟨source, q⟩ := by
  unfold parse
  rw [h]
  rfl

theorem parse_of_error (h : Query.parse source = .error error) : parse source = .error error := by
  unfold parse
  rw [h]
  rfl

/-- A text that parses is answered with its filter, which takes effect. -/
theorem apply_of_ok (h : Query.parse source = .ok q) :
    f.apply source = (.ok ⟨source, q⟩, ⟨source, q⟩) := by
  unfold apply
  rw [parse_of_ok h]

/-- A text that does not parse is answered with what is wrong with it, and nothing else happens. -/
theorem apply_of_error (h : Query.parse source = .error error) :
    f.apply source = (.error error, f) := by
  unfold apply
  rw [parse_of_error h]

end Filter

/-! ### What one change does -/

namespace Change

/-- Whether a change drops the filter. -/
def drops : Change → Bool
  | clear => true
  | _ => false

/-- The filter that a change sets: that of a text that parses. -/
def sets? : Change → Option Filter
  | enter source => (Filter.parse source).toOption
  | _ => none

/-- The moment that a change sets. -/
def moment? : Change → Option Instant
  | moveTo now => some now
  | _ => none

/-- The tickets that a change puts at hand. -/
def tickets? : Change → Option (List Ticket)
  | replace tickets => some tickets
  | _ => none

end Change

namespace Session

variable (s : Session) (c : Change)

theorem after_filter :
    (s.after c).filter = if c.drops then .all else c.sets?.getD s.filter := by
  cases c with
  | enter source =>
      show (s.filter.apply source).2 = (Filter.parse source).toOption.getD s.filter
      unfold Filter.apply
      cases Filter.parse source <;> rfl
  | clear => rfl
  | moveTo now => rfl
  | replace tickets => rfl

theorem after_now : (s.after c).now = c.moment?.getD s.now := by
  cases c <;> rfl

theorem after_tickets : (s.after c).tickets = c.tickets?.getD s.tickets := by
  cases c <;> rfl

/-- A text that does not parse leaves the session as it is. -/
theorem after_enter_of_error {source : Text} {error : ParseError}
    (h : Query.parse source = .error error) : s.after (.enter source) = s := by
  show { s with filter := (s.filter.apply source).2 } = s
  rw [Filter.apply_of_error h]

/-- The text of the filter parses to its query. -/
def IsParsed (s : Session) : Prop :=
  Query.parse s.filter.source = .ok s.filter.query

theorem isParsed_start {tickets : List Ticket} {now : Instant} : (start tickets now).IsParsed :=
  rfl

variable {s c}

theorem IsParsed.after (h : s.IsParsed) : (s.after c).IsParsed := by
  cases c with
  | enter source =>
      cases hparse : Query.parse source with
      | ok q =>
          show Query.parse (s.filter.apply source).2.source = .ok (s.filter.apply source).2.query
          rw [Filter.apply_of_ok hparse]
          exact hparse
      | error error =>
          rw [after_enter_of_error s hparse]
          exact h
  | clear => rfl
  | moveTo now => exact h
  | replace tickets => exact h

/-! ### What a run of changes does -/

theorem afterAll_concat (s : Session) (changes : List Change) (c : Change) :
    s.afterAll (changes ++ [c]) = (s.afterAll changes).after c :=
  List.foldl_append

theorem IsParsed.afterAll (h : s.IsParsed) (changes : List Change) :
    (s.afterAll changes).IsParsed := by
  induction changes using List.reverseRecOn with
  | nil => exact h
  | append_singleton changes c ih =>
      rw [afterAll_concat]
      exact ih.after

variable (tickets : List Ticket) (now : Instant) (changes : List Change)

theorem afterAll_filter :
    ((start tickets now).afterAll changes).filter = lastSet Change.drops Change.sets? changes := by
  induction changes using List.reverseRecOn with
  | nil => rfl
  | append_singleton changes c ih => rw [afterAll_concat, after_filter, ih, lastSet_concat]

theorem afterAll_now (s : Session) :
    (s.afterAll changes).now = (changes.reverse.findSome? Change.moment?).getD s.now := by
  induction changes using List.reverseRecOn with
  | nil => rfl
  | append_singleton changes c ih =>
      rw [afterAll_concat, after_now, ih, List.reverse_concat, List.findSome?_cons]
      cases c.moment? <;> rfl

theorem afterAll_tickets (s : Session) :
    (s.afterAll changes).tickets = (changes.reverse.findSome? Change.tickets?).getD s.tickets := by
  induction changes using List.reverseRecOn with
  | nil => rfl
  | append_singleton changes c ih =>
      rw [afterAll_concat, after_tickets, ih, List.reverse_concat, List.findSome?_cons]
      cases c.tickets? <;> rfl

/--
**After any run of changes the filter in effect is the one of the last text that parsed since a
filter was last dropped**, and its text parses to its query.  A text that does not parse is
answered with what is wrong with it and leaves the session as it is; one that parses is answered
with its filter.  The tickets that are kept are those at hand, the last ones given, that satisfy
the query at the last moment given, in order.
-/
theorem afterAll_start :
    ((start tickets now).afterAll changes).filter = lastSet Change.drops Change.sets? changes ∧
      ((start tickets now).afterAll changes).IsParsed ∧
      (∀ source error, Query.parse source = .error error →
        ((start tickets now).afterAll changes).filter.apply source =
            (.error error, ((start tickets now).afterAll changes).filter) ∧
          (start tickets now).afterAll (changes ++ [.enter source]) =
            (start tickets now).afterAll changes) ∧
      (∀ source q, Query.parse source = .ok q →
        ((start tickets now).afterAll changes).filter.apply source =
            (.ok ⟨source, q⟩, ⟨source, q⟩) ∧
          (start tickets now).afterAll (changes ++ [.enter source]) =
            { (start tickets now).afterAll changes with filter := ⟨source, q⟩ }) ∧
      ((start tickets now).afterAll changes).kept =
        ((changes.reverse.findSome? Change.tickets?).getD tickets).filter fun t =>
          (lastSet Change.drops Change.sets? changes).query.eval t.row
            ((changes.reverse.findSome? Change.moment?).getD now) := by
  refine ⟨afterAll_filter tickets now changes, IsParsed.afterAll isParsed_start changes, ?_, ?_, ?_⟩
  · intro source error h
    rw [afterAll_concat]
    exact ⟨Filter.apply_of_error h, after_enter_of_error _ h⟩
  · intro source q h
    refine ⟨Filter.apply_of_ok h, ?_⟩
    rw [afterAll_concat]
    show { (start tickets now).afterAll changes with
      filter := (((start tickets now).afterAll changes).filter.apply source).2 } = _
    rw [Filter.apply_of_ok h]
  · show List.filter _ ((start tickets now).afterAll changes).tickets = _
    rw [afterAll_filter, afterAll_tickets, afterAll_now]
    rfl

end Session

/-- A ticket of which only the type is known. -/
def Ticket.ofType (type : Text) : Ticket :=
  { blank with type := some type }

/-- After a filter is dropped and one set, a query without a value is refused and
the filter set stays. -/
theorem Session.afterAll_start_of_typo :
    Query.parse "type =" = .error ⟨.valueExpected (some "=") .nothing, some 6⟩ ∧
      ((Session.start [Ticket.ofType "bug", Ticket.ofType "task"] .earliest).afterAll
        [.enter "type = bug", .clear, .enter "type = task",
          .moveTo .latest]).filter.apply "type =" =
          (.error ⟨.valueExpected (some "=") .nothing, some 6⟩,
            ⟨"type = task", .compare .type .eq (.word "task")⟩) ∧
      ((Session.start [Ticket.ofType "bug", Ticket.ofType "task"] .earliest).afterAll
        [.enter "type = bug", .clear, .enter "type = task", .moveTo .latest,
          .enter "type ="]).kept =
          [Ticket.ofType "task"] := by
  have htypo : Query.parse "type =" = .error ⟨.valueExpected (some "=") .nothing, some 6⟩ := by
    decide +kernel
  obtain ⟨hfilter, _, hrefused, _, hkept⟩ :=
    Session.afterAll_start [Ticket.ofType "bug", Ticket.ofType "task"] .earliest
      [.enter "type = bug", .clear, .enter "type = task", .moveTo .latest]
  obtain ⟨hanswer, hsame⟩ := hrefused _ _ htypo
  have hset : lastSet Change.drops Change.sets?
      [.enter "type = bug", .clear, .enter "type = task", .moveTo .latest] =
        ⟨"type = task", .compare .type .eq (.word "task")⟩ := by decide +kernel
  refine ⟨htypo, ?_, ?_⟩
  · rw [hanswer, hfilter, hset]
  · have hall : Session.afterAll (.start [Ticket.ofType "bug", Ticket.ofType "task"] .earliest)
        [.enter "type = bug", .clear, .enter "type = task", .moveTo .latest, .enter "type ="] =
          (Session.start [Ticket.ofType "bug", Ticket.ofType "task"] .earliest).afterAll
            [.enter "type = bug", .clear, .enter "type = task", .moveTo .latest] := hsame
    rw [hall, hkept, hset]
    decide +kernel

end TicketSearch
