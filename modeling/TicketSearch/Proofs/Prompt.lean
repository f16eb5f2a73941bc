/-
Which lines of a prompt matter to the lines after them.

A line is told by its text: blanks at the ends do not count, and a line whose first word starts
with a colon is a command.  Of all lines only those outlive their answer that drop the filter or
enter a query that parses, and a line that ends the prompt cuts off what follows.  Leaving out
the others therefore changes no answer (`zip_transcript_filter_lasts`), and what the session
holds at a line is settled by the lines before it as by a run of changes.

The answers themselves are then a matter of one line: each is read off the session it is given in.
-/
import TicketSearch.Prompt
import TicketSearch.Proofs.Session

namespace TicketSearch

/-! ### What a line is, by its text -/

namespace Line

/-- The first word of a line. -/
def word (line : Text) : Text :=
  (Text.trim line).takeWhile (· != ' ')

/-- The text that a line enters as a query; none for a blank line and for a command. -/
def query? (line : Text) : Option Text :=
  if Text.trim line = [] ∨ (word line).head? = some ':' then none else some (Text.trim line)

/-- Whether a line ends the prompt. -/
def ends (line : Text) : Bool :=
  word line == ":quit" || word line == ":q"

/-- Whether a line drops the filter. -/
def drops (line : Text) : Bool :=
  word line == ":clear"

/-- The filter that a line sets: that of a query that parses. -/
def sets? (line : Text) : Option Filter :=
  (query? line).bind fun source => (Filter.parse source).toOption

/-- Whether a line outlives its answer: it ends the prompt, drops the filter or sets one. -/
def lasts (line : Text) : Bool :=
  ends line || drops line || (sets? line).isSome

/-- What a line asks for is told by its first word, and a query by its whole text. -/
theorem ofLine_eq (line : Text) :
    Command.ofLine line =
      if Text.trim line = [] then .idle
      else if word line = ":quit" ∨ word line = ":q" then .quit
      else if word line = ":help" then .help
      else if word line = ":clear" then .clear
      else if word line = ":tokens" then .tokens ((Text.trim line).drop ((word line).length + 1))
      else if word line = ":ast" then .canonical ((Text.trim line).drop ((word line).length + 1))
      else if word line = ":sql" then .sql ((Text.trim line).drop ((word line).length + 1))
      else if (word line).head? = some ':' then .unknown (word line)
      else .query (Text.trim line) :=
  rfl

variable {line : Text}

/-- A command enters no query. -/
theorem query?_of_command {name : Text} (hname : name.head? = some ':') (h : word line = name) :
    query? line = none := by
  unfold query?
  rw [h, if_pos (Or.inr hname)]

/-- What a line is read as. -/
inductive Reading (line : Text) : Prop
  /-- The line ends the prompt. -/
  | ends (isEnd : ends line = true) (drops : drops line = false) (sets : query? line = none)
      (command : Command.ofLine line = .quit)
  /-- The line drops the filter. -/
  | drops (isEnd : ends line = false) (drops : drops line = true) (sets : query? line = none)
      (command : Command.ofLine line = .clear)
  /-- The line enters a query. -/
  | query (isEnd : ends line = false) (drops : drops line = false) {source : Text}
      (enters : query? line = some source) (command : Command.ofLine line = .query source)
  /-- The line is blank or only asks for something to be shown. -/
  | passing (isEnd : ends line = false) (drops : drops line = false) (sets : query? line = none)
      (stays : Command.ofLine line ≠ .quit) (changes : (Command.ofLine line).change? = none)

theorem reading (line : Text) : Reading line := by
  by_cases hblank : Text.trim line = []
  · have hword : word line = [] := by
      unfold word
      rw [hblank]
      rfl
    have hidle : Command.ofLine line = .idle := by rw [ofLine_eq, if_pos hblank]
    refine .passing ?_ ?_ ?_ ?_ ?_
    · simp [ends, hword]
    · simp [drops, hword]
    · simp [query?, hblank]
    · rw [hidle]
      exact Command.noConfusion
    · rw [hidle]
      rfl
  by_cases hquit : word line = ":quit" ∨ word line = ":q"
  · have hcommand : Command.ofLine line = .quit := by rw [ofLine_eq, if_neg hblank, if_pos hquit]
    rcases hquit with hword | hword
    · exact .ends (by simp [ends, hword]) (by simp [drops, hword])
        (query?_of_command rfl hword) hcommand
    · exact .ends (by simp [ends, hword]) (by simp [drops, hword])
        (query?_of_command rfl hword) hcommand
  have hends : ends line = false := by
    unfold ends
    rw [not_or] at hquit
    rw [beq_false_of_ne hquit.1, beq_false_of_ne hquit.2, Bool.or_false]
  by_cases hclear : word line = ":clear"
  · refine .drops hends (by simp [drops, hclear]) (query?_of_command rfl hclear) ?_
    rw [ofLine_eq, if_neg hblank, if_neg hquit, if_neg (by rw [hclear]; decide), if_pos hclear]
  have hdrops : drops line = false := beq_false_of_ne hclear
  by_cases hcolon : (word line).head? = some ':'
  · have hnone : query? line = none := by
      unfold query?
      rw [if_pos (Or.inr hcolon)]
    refine .passing hends hdrops hnone ?_ ?_
    · rw [ofLine_eq, if_neg hblank, if_neg hquit]
      split_ifs <;> exact Command.noConfusion
    · rw [ofLine_eq, if_neg hblank, if_neg hquit]
      split_ifs <;> rfl
  · -- no name of a command starts without its colon
    have hother : ∀ name : Text, name.head? = some ':' → word line ≠ name := by
      rintro name hname rfl
      exact hcolon hname
    have henters : query? line = some (Text.trim line) := by
      unfold query?
      rw [if_neg (not_or.mpr ⟨hblank, hcolon⟩)]
    refine .query hends hdrops henters ?_
    rw [ofLine_eq, if_neg hblank, if_neg hquit, if_neg (hother _ rfl), if_neg hclear,
      if_neg (hother _ rfl), if_neg (hother _ rfl), if_neg (hother _ rfl), if_neg hcolon]

theorem ofLine_eq_quit_iff : Command.ofLine line = .quit ↔ ends line = true := by
  cases reading line with
  | ends isEnd _ _ command => simp [isEnd, command]
  | drops isEnd _ _ command => simp [isEnd, command]
  | query isEnd _ _ command => simp [isEnd, command]
  | passing isEnd _ _ stays _ => simp [isEnd, stays]

theorem ofLine_of_drops (h : drops line = true) : Command.ofLine line = .clear := by
  cases reading line with
  | drops _ _ _ command => exact command
  | ends _ drops _ _ | query _ drops _ _ | passing _ drops _ _ _ => simp [drops] at h

theorem ofLine_of_query? {source : Text} (h : query? line = some source) :
    Command.ofLine line = .query source := by
  cases reading line with
  | query _ _ enters command =>
      rw [command, Option.some.inj (enters.symm.trans h)]
  | ends _ _ sets _ | drops _ _ sets _ | passing _ _ sets _ _ => simp [sets] at h

theorem ends_of_drops (h : drops line = true) : ends line = false := by
  rw [← Bool.not_eq_true, ← ofLine_eq_quit_iff, ofLine_of_drops h]
  exact Command.noConfusion

theorem ends_of_query? {source : Text} (h : query? line = some source) : ends line = false := by
  rw [← Bool.not_eq_true, ← ofLine_eq_quit_iff, ofLine_of_query? h]
  exact Command.noConfusion

end Line

/-! ### The session at a line -/

namespace Session

/-- The session after a line is answered. -/
def afterLine (s : Session) (line : Text) : Session :=
  (Command.ofLine line).change?.elim s s.after

/-- The session after some lines are answered. -/
def afterLines (s : Session) (lines : List Text) : Session :=
  lines.foldl afterLine s

variable {s : Session} {line : Text}

/-- Of a line only that counts that it drops the filter or sets one. -/
theorem afterLine_eq (s : Session) (line : Text) :
    s.afterLine line =
      { s with filter := if Line.drops line then .all else (Line.sets? line).getD s.filter } := by
  unfold afterLine Line.sets?
  cases Line.reading line with
  | ends _ drops sets command => rw [command, drops, sets]; rfl
  | drops _ drops sets command => rw [command, drops]; rfl
  | passing _ drops sets _ changes => rw [changes, drops, sets]; rfl
  | @query _ drops source enters command =>
      rw [command, drops, enters]
      show { s with filter := (s.filter.apply source).2 } =
        { s with filter := (Filter.parse source).toOption.getD s.filter }
      unfold Filter.apply
      cases Filter.parse source <;> rfl

/-- A line that does not last leaves the session as it is. -/
theorem afterLine_of_not_lasts (h : Line.lasts line = false) : s.afterLine line = s := by
  unfold Line.lasts at h
  rw [Bool.or_eq_false_iff, Bool.or_eq_false_iff, Option.isSome_eq_false_iff,
    Option.isNone_iff_eq_none] at h
  rw [afterLine_eq, h.1.2, h.2]
  rfl

theorem afterLines_concat (s : Session) (lines : List Text) (line : Text) :
    s.afterLines (lines ++ [line]) = (s.afterLines lines).afterLine line :=
  List.foldl_append

theorem afterLines_start (tickets : List Ticket) (now : Instant) (lines : List Text) :
    (start tickets now).afterLines lines = ⟨lastSet Line.drops Line.sets? lines, tickets, now⟩ := by
  induction lines using List.reverseRecOn with
  | nil => rfl
  | append_singleton lines line ih => rw [afterLines_concat, ih, afterLine_eq, lastSet_concat]

end Session

/-! ### Answers, line by line -/

section

variable {s : Session} {line : Text} {lines : List Text}

/-- Only the line that ends the prompt has no answer. -/
theorem answer?_eq_none_iff {command : Command} : answer? s command = none ↔ command = .quit := by
  cases command <;> simp [answer?]

theorem transcript_of_ends (h : Line.ends line = true) : transcript s (line :: lines) = [] := by
  rw [transcript, Line.ofLine_eq_quit_iff.mpr h]
  rfl

theorem transcript_of_not_ends (h : Line.ends line = false) :
    transcript s (line :: lines) =
      (answer? s (Command.ofLine line)).getD [] :: transcript (s.afterLine line) lines := by
  have hquit : Command.ofLine line ≠ .quit := by
    rw [Ne, Line.ofLine_eq_quit_iff, h]
    exact Bool.false_ne_true
  obtain ⟨answer, hanswer⟩ := Option.ne_none_iff_exists'.mp (mt answer?_eq_none_iff.mp hquit)
  rw [transcript, hanswer]
  rfl

/-- Each line up to the one that ends the prompt is answered, and no other. -/
theorem length_transcript (s : Session) (lines : List Text) :
    (transcript s lines).length = (lines.takeWhile fun line => !Line.ends line).length := by
  induction lines generalizing s with
  | nil => rfl
  | cons line lines ih =>
      cases hends : Line.ends line with
      | true => rw [transcript_of_ends hends, List.takeWhile_cons, hends]; rfl
      | false =>
          rw [transcript_of_not_ends hends, List.takeWhile_cons, hends, List.length_cons, ih]
          rfl

/-- A line is answered in the session that the lines before it lead to. -/
theorem getElem?_transcript {before behind : List Text} (s : Session)
    (hbefore : ∀ l ∈ before, Line.ends l = false) (hline : Line.ends line = false) :
    (transcript s (before ++ line :: behind))[before.length]? =
      some ((answer? (s.afterLines before) (Command.ofLine line)).getD []) := by
  induction before generalizing s with
  | nil => rw [List.nil_append, transcript_of_not_ends hline]; rfl
  | cons first before ih =>
      rw [List.cons_append, transcript_of_not_ends (hbefore first List.mem_cons_self),
        List.length_cons, List.getElem?_cons_succ,
        ih (s.afterLine first) fun l hl => hbefore l (List.mem_cons_of_mem _ hl)]
      rfl

/-- **Lines that do not last can be left out**, and the others are answered as before. -/
theorem zip_transcript_filter_lasts (s : Session) (lines : List Text) :
    ((lines.zip (transcript s lines)).filter fun pair => Line.lasts pair.1) =
      (lines.filter Line.lasts).zip (transcript s (lines.filter Line.lasts)) := by
  induction lines generalizing s with
  | nil => rfl
  | cons line lines ih =>
      cases hends : Line.ends line with
      | true =>
          have hlasts : Line.lasts line = true := by
            unfold Line.lasts
            rw [hends, Bool.true_or, Bool.true_or]
          rw [transcript_of_ends hends, List.filter_cons_of_pos hlasts, transcript_of_ends hends,
            List.zip_nil_right, List.zip_nil_right]
          rfl
      | false =>
          rw [transcript_of_not_ends hends, List.zip_cons_cons]
          cases hlasts : Line.lasts line with
          | true =>
              rw [List.filter_cons_of_pos (by exact hlasts), List.filter_cons_of_pos hlasts,
                transcript_of_not_ends hends, List.zip_cons_cons, ih]
          | false =>
              rw [List.filter_cons_of_neg (by simp [hlasts]),
                List.filter_cons_of_neg (by simp [hlasts]), ih,
                Session.afterLine_of_not_lasts hlasts]

/-! ### What is answered -/

/-- A line that drops the filter is answered with all tickets. -/
theorem answer?_of_drops (h : Line.drops line = true) :
    answer? s (Command.ofLine line) = some (ticketLines s.tickets) := by
  have hall : Filter.all.select s.tickets s.now = s.tickets :=
    List.filter_eq_self.mpr fun _ _ => rfl
  rw [Line.ofLine_of_drops h]
  show some (ticketLines (Filter.all.select s.tickets s.now)) = _
  rw [hall]

/-- A query is answered as its text is. -/
theorem answer?_of_query {source : Text} (h : Line.query? line = some source) :
    answer? s (Command.ofLine line) = some (queryAnswer s source) := by
  rw [Line.ofLine_of_query? h]
  rfl

theorem queryAnswer_of_ok {source : Text} {q : Query} (h : Query.parse source = .ok q) :
    queryAnswer s source =
      q.mismatches.map (fun mismatch => warningLine (Query.describeMismatch mismatch)) ++
        ticketLines (q.select s.tickets s.now) := by
  unfold queryAnswer
  rw [Filter.apply_of_ok h]
  show (q.mismatches.map Query.describeMismatch).map warningLine ++ _ = _
  rw [List.map_map]
  rfl

theorem queryAnswer_of_error {source : Text} {error : ParseError}
    (h : Query.parse source = .error error) :
    queryAnswer s source =
      [renderError source error, keepingLine (s.filter.select s.tickets s.now).length] := by
  unfold queryAnswer
  rw [Filter.apply_of_error h]

end

/--
**What a prompt answers to its lines.**  Every line up to the one that ends the prompt is answered.
Lines that neither end it, drop the filter nor enter a query that parses can be left out, and the
others are answered as before: a line that drops the filter with all tickets, a query that parses
with its warnings and the tickets that satisfy it.  A query that does not parse is answered with
what is wrong with it and the number of tickets that satisfy the last one that parsed since the
filter was last dropped, or of all tickets when there is none.
-/
theorem transcript_start (tickets : List Ticket) (now : Instant) (lines : List Text) :
    (transcript (.start tickets now) lines).length =
        (lines.takeWhile fun line => !Line.ends line).length ∧
      ((lines.zip (transcript (.start tickets now) lines)).filter fun pair => Line.lasts pair.1) =
        (lines.filter Line.lasts).zip (transcript (.start tickets now) (lines.filter Line.lasts)) ∧
      ∀ before line behind, lines = before ++ line :: behind →
        (∀ l ∈ before, Line.ends l = false) →
        (Line.drops line = true →
          (transcript (.start tickets now) lines)[before.length]? = some (ticketLines tickets)) ∧
        (∀ source q, Line.query? line = some source → Query.parse source = .ok q →
          (transcript (.start tickets now) lines)[before.length]? =
            some (q.mismatches.map
              (fun mismatch => warningLine (Query.describeMismatch mismatch)) ++
              ticketLines (tickets.filter fun t => q.eval t.row now))) ∧
        ∀ source error, Line.query? line = some source → Query.parse source = .error error →
          (transcript (.start tickets now) lines)[before.length]? =
            some [renderError source error, keepingLine (tickets.filter fun t =>
              (lastSet Line.drops Line.sets? before).query.eval t.row now).length] := by
  refine ⟨length_transcript _ _, zip_transcript_filter_lasts _ _, ?_⟩
  rintro before line behind rfl hbefore
  refine ⟨fun hdrops => ?_, fun source q hquery hparse => ?_, fun source error hquery hparse => ?_⟩
  · rw [getElem?_transcript _ hbefore (Line.ends_of_drops hdrops), answer?_of_drops hdrops,
      Session.afterLines_start]
    rfl
  · rw [getElem?_transcript _ hbefore (Line.ends_of_query? hquery), answer?_of_query hquery,
      queryAnswer_of_ok hparse, Session.afterLines_start]
    rfl
  · rw [getElem?_transcript _ hbefore (Line.ends_of_query? hquery), answer?_of_query hquery,
      queryAnswer_of_error hparse, Session.afterLines_start]
    rfl

/--
Behind a filter that is dropped and one that is set, two lines ask for something to be shown and
one enters a query without a value, which is refused.  Without these the other answers are the same.
-/
theorem transcript_start_of_typo :
    let tickets := [Ticket.ofType "bug", Ticket.ofType "task", Ticket.ofType "task"]
    let lines : List Text :=
      ["type = bug", ":clear", " type = task ", ":ast type = bug", "type =", ":help", ":q", "x"]
    Query.parse "type =" = .error ⟨.valueExpected (some "=") .nothing, some 6⟩ ∧
      (transcript (.start tickets .earliest) lines)[4]? =
        some [renderError "type =" ⟨.valueExpected (some "=") .nothing, some 6⟩, keepingLine 2] ∧
      (lines.zip (transcript (.start tickets .earliest) lines)).filter
        (fun pair => Line.lasts pair.1) =
        (["type = bug", ":clear", " type = task ", ":q"] : List Text).zip
          (transcript (.start tickets .earliest)
            ["type = bug", ":clear", " type = task ", ":q"]) := by
  intro tickets lines
  have htypo : Query.parse "type =" = .error ⟨.valueExpected (some "=") .nothing, some 6⟩ := by
    decide +kernel
  have hlasting : lines.filter Line.lasts =
      (["type = bug", ":clear", " type = task ", ":q"] : List Text) := by decide +kernel
  have hbefore : ∀ l ∈ lines.take 4, Line.ends l = false := by decide +kernel
  have hquery : Line.query? "type =" = some "type =" := by decide +kernel
  have hset : lastSet Line.drops Line.sets? (lines.take 4) =
      ⟨"type = task", .compare .type .eq (.word "task")⟩ := by decide +kernel
  have hcount : (tickets.filter fun t =>
      (Query.compare .type .eq (.word "task")).eval t.row .earliest).length = 2 := by decide +kernel
  obtain ⟨_, hkept, hanswers⟩ := transcript_start tickets .earliest lines
  refine ⟨htypo, ?_, ?_⟩
  · have hrefused :=
      (hanswers (lines.take 4) "type =" (lines.drop 5) rfl hbefore).2.2 _ _ hquery htypo
    rw [hset] at hrefused
    rw [← hcount]
    exact hrefused
  · rw [hlasting] at hkept
    exact hkept

end TicketSearch
