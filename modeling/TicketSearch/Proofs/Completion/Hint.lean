/-
The hint is what completion would put in.

A hint is cut off from the only suggestion behind as many bytes as are typed, and completion
replaces what is typed by the suggestion as a whole.  The two texts are made independently, and
they agree because the hint is withheld unless the part that is cut off is what is typed, but
for the case of ASCII letters (`exists_of_hintAt?`).  So the line with the hint behind it and the
line that is completed differ in case only, and case makes no difference to the tokens, their
places and what is parsed.
-/
import TicketSearch.Proofs.Case.Meaning
import TicketSearch.Proofs.Completion.Position

namespace TicketSearch

open Text (asciiLower byteLength)

variable {line hint : Text} {cursor : Nat} {catalog : Catalog}

/-- What a hint is: the rest of the only suggestion, behind what is typed of it
at the end of the line. -/
theorem exists_of_hintAt? (h : hintAt? line cursor catalog = some hint) :
    byteLength line ≤ cursor ∧ hint ≠ [] ∧ ∃ context only head,
      Context.at? line cursor = some context ∧ context.suggest catalog = [only] ∧
        only.replacement = head ++ hint ∧ asciiLower head = asciiLower context.typed := by
  unfold hintAt? at h
  split_ifs at h with hcursor
  · cases h
  · obtain ⟨context, hcontext, h⟩ := Option.bind_eq_some_iff.mp h
    split at h
    · next only hsuggest =>
        obtain ⟨⟨head, rest⟩, hcut, h⟩ := Option.bind_eq_some_iff.mp h
        simp only at h
        split_ifs at h with hagrees
        obtain rfl : rest = hint := Option.some.inj h
        rw [Bool.and_eq_true, Bool.and_eq_true, Bool.not_eq_true', Bool.not_eq_true',
          List.isEmpty_eq_false_iff, List.isEmpty_eq_false_iff] at hagrees
        obtain ⟨⟨_, hsame⟩, hrest⟩ := hagrees
        obtain ⟨hreplacement, _⟩ := Text.splitAtByte?_eq_some hcut
        exact ⟨Nat.le_of_not_lt hcursor, hrest, context, only, head, hcontext,
          hsuggest, hreplacement, beq_iff_eq.mp hsame⟩
    · cases h

/-- At the end of a line, what is typed is the end of the line. -/
theorem exists_of_at?_end {context : Context} (h : Context.at? line cursor = some context)
    (hend : byteLength line ≤ cursor) :
    ∃ front, line = front ++ context.typed ∧ byteLength front = context.position ∧
      cursor = byteLength line := by
  obtain ⟨front, tail, rfl, hposition, hcursor⟩ :=
    Text.between?_eq_some_iff.mp (Context.between?_of_at? h)
  have htail : tail = [] := by
    cases tail with
    | nil => rfl
    | cons c tail =>
        have hsize := c.utf8Size_pos
        rw [Text.byteLength_append, hcursor, Text.byteLength_cons] at hend
        omega
  rw [htail, List.append_nil]
  exact ⟨front, rfl, hposition, hcursor.symm⟩

/--
**A hint and the completion of a line are the same up to the case of ASCII letters.**  A hint is
given at the end of the line only, it is not empty, and there is one suggestion for what is typed
there.  The line with the hint behind it differs in case only from the line into which that
suggestion is put; so both have tokens of the same kinds at the same places, and both parse to
queries that differ in the case of values only, or are rejected at one place for one fault.
-/
theorem hintAt?_completes (line : Text) (cursor : Nat) (catalog : Catalog) (hint : Text)
    (h : hintAt? line cursor catalog = some hint) :
    cursor = byteLength line ∧ hint ≠ [] ∧ ∃ context only,
      Context.at? line cursor = some context ∧ context.suggest catalog = [only] ∧
      completionsAt line cursor catalog = (context.position, [only]) ∧
      Text.sameIgnoringAsciiCase (line ++ hint) (context.splice line only.replacement) = true ∧
      (Token.stream (line ++ hint)).map (fun t => (t.kind, t.start, t.stop)) =
        (Token.stream (context.splice line only.replacement)).map
          (fun t => (t.kind, t.start, t.stop)) ∧
      Likeness.ofSpelling.Answers (Query.parse (line ++ hint))
        (Query.parse (context.splice line only.replacement)) := by
  obtain ⟨hend, hne, context, only, head, hcontext, hsuggest, hreplacement, hsame⟩ :=
    exists_of_hintAt? h
  obtain ⟨front, hline, hposition, hcursor⟩ := exists_of_at?_end hcontext hend
  have hcompletions : completionsAt line cursor catalog = (context.position, [only]) := by
    unfold completionsAt
    rw [hcontext]
    exact congrArg (context.position, ·) hsuggest
  have hspliced : context.splice line only.replacement = front ++ only.replacement := by
    have hsplice := Context.splice_append_append hposition [] only.replacement
    rwa [List.append_nil, List.append_nil, ← hline] at hsplice
  have hlower : asciiLower (line ++ hint) = asciiLower (context.splice line only.replacement) := by
    rw [hspliced, hreplacement, hline]
    unfold asciiLower at hsame ⊢
    simp only [List.map_append, List.append_assoc, hsame]
  refine ⟨hcursor, hne, context, only, hcontext, hsuggest, hcompletions, beq_iff_eq.mpr hlower, ?_,
    Query.parse_respelled hlower⟩
  exact (Query.parse_changed_case _ _ hlower).1

/-- A status that is typed in capitals: the hint keeps them, completion does not. -/
theorem hintAt?_completes_of_capitals :
    let catalog : Catalog := { Catalog.blank with statuses := ["done", "In Progress"] }
    hintAt? "Status = DO" 11 catalog = some "ne" ∧
      ∃ context, Context.at? "Status = DO" 11 = some context ∧
        context.splice "Status = DO" "done" = "Status = done" ∧
        Likeness.ofSpelling.Answers (Query.parse "Status = DOne")
          (Query.parse "Status = done") := by
  intro catalog
  have hhint : hintAt? "Status = DO" 11 catalog = some "ne" := by decide +kernel
  have hat : Context.at? "Status = DO" 11 = some ⟨.value, "DO", 9, some .status⟩ := by
    decide +kernel
  have hsuggest : Context.suggest ⟨.value, "DO", 9, some .status⟩ catalog = [.plain "done"] := by
    decide +kernel
  have hsplice : Context.splice ⟨.value, "DO", 9, some .status⟩ "Status = DO" "done" =
      "Status = done" := by
    decide +kernel
  obtain ⟨_, _, context, only, hcontext, hsuggested, _, _, _, hanswers⟩ :=
    hintAt?_completes "Status = DO" 11 catalog "ne" hhint
  obtain rfl : _ = context := Option.some.inj (hat.symm.trans hcontext)
  obtain rfl : _ = only := List.cons.inj (hsuggest.symm.trans hsuggested) |>.1
  refine ⟨hhint, _, hcontext, hsplice, ?_⟩
  rw [show (Suggestion.plain "done").replacement = "done" from rfl, hsplice] at hanswers
  exact hanswers

end TicketSearch
