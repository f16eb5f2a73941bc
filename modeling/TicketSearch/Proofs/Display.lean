/-
What the offsets of tokens promise to those who cut a source by them.

A query is shown in colours by cutting it at the offsets of its tokens.  Since the tokens
stand in the source with nothing but blanks between them (`Token.tiles_stream`), every cut is
there, and without the escapes for the colours what is shown is the query (`shown`).
-/
import TicketSearch.Display
import TicketSearch.Proofs.Lexing.Gaps

namespace TicketSearch

/-! ### Text on a terminal -/

/--
What a terminal shows of a text: all but the escape sequences, which go from an escape and a
bracket to the next character between `@` and `~`.  With `true` the text starts within one.
-/
def shown : Bool → Text → Text
  | _, [] => []
  | true, c :: cs => shown (!('@' ≤ c && c ≤ '~')) cs
  | false, '\x1b' :: '[' :: cs => shown true cs
  | false, c :: cs => c :: shown false cs

theorem shown_cons {c : Char} (h : c ≠ '\x1b') (cs : Text) :
    shown false (c :: cs) = c :: shown false cs := by
  rw [shown]
  intro rest hc _
  exact absurd hc h

theorem shown_append {s : Text} (h : '\x1b' ∉ s) (more : Text) :
    shown false (s ++ more) = s ++ shown false more := by
  induction s with
  | nil => rfl
  | cons c s ih =>
      rw [List.mem_cons, not_or] at h
      rw [List.cons_append, shown_cons (Ne.symm h.1), ih h.2]
      rfl

/-- The escapes for a colour are not shown. -/
theorem shown_paint {s : Text} (h : '\x1b' ∉ s) (tokenClass : TokenClass) (more : Text) :
    shown false (paint tokenClass.colour? s ++ more) = s ++ shown false more := by
  have hreset : shown false (s ++ ("\x1b[0m" ++ more)) = s ++ shown false more := shown_append h _
  cases tokenClass with
  | punctuation | plain => exact shown_append h more
  | field | operator | keyword | literal | error =>
      unfold paint TokenClass.colour?
      rw [List.append_assoc, List.append_assoc]
      exact hreset

/-- The text from a byte offset on, with its tokens in their colours, if every cut is there. -/
def paintTokens? (source : Text) (offset : Nat) : List Token → Option Text
  | [] => source.after? offset
  | t :: ts => do
    let gap ← source.between? offset t.start
    let own ← source.between? t.start t.stop
    let more ← paintTokens? source t.stop ts
    return gap ++ paint t.kind.tokenClass.colour? own ++ more

theorem paintTokens_of_some {source : Text} {ts : List Token} {offset : Nat} {painted : Text}
    (h : paintTokens? source offset ts = some painted) :
    paintTokens source offset ts = painted := by
  induction ts generalizing offset painted with
  | nil =>
      have hafter : source.after? offset = some painted := h
      rw [paintTokens, hafter]
      rfl
  | cons t ts ih =>
      obtain ⟨gap, hgap, h⟩ := Option.bind_eq_some_iff.mp h
      obtain ⟨own, hown, h⟩ := Option.bind_eq_some_iff.mp h
      obtain ⟨more, hmore, h⟩ := Option.bind_eq_some_iff.mp h
      rw [paintTokens, hgap, hown, ih hmore, ← Option.some.inj h]
      rfl

namespace Token

theorem Tiles.exists_painted {o : Nat} {s : Text} {ts : List Token} (h : Tiles o s ts)
    {front : Text} (hfront : Text.byteLength front = o) :
    ∃ painted, paintTokens? (front ++ s) o ts = some painted ∧
      ('\x1b' ∉ s → shown false painted = s) := by
  induction h generalizing front with
  | nil o =>
      refine ⟨[], ?_, fun _ => rfl⟩
      unfold paintTokens? Text.after?
      rw [← hfront, Text.splitAtByte?_append]
      rfl
  | @cons o gap s t ts _ start stop more ih =>
      obtain ⟨hgap, hown, front', hsource, hstop⟩ := cut hfront start stop s
      obtain ⟨painted, hpainted, hshown⟩ := ih hstop
      refine ⟨gap ++ paint t.kind.tokenClass.colour? t.text ++ painted, ?_, fun hescape => ?_⟩
      · rw [paintTokens?, hgap, hown, hsource, hpainted]
        rfl
      · simp only [List.mem_append, not_or] at hescape
        rw [List.append_assoc, shown_append hescape.1, shown_paint hescape.2.1, hshown hescape.2.2]

end Token

/--
**The offsets of tokens can be trusted, and colours only add escapes.**  The tokens of any
source stand in it in order and with nothing but blanks around them, so that all the cuts for
its colours are there; what is shown of a source without escapes is the source.
-/
theorem highlight_spans (source : Text) :
    Token.Spans source (Token.stream source) ∧
      paintTokens? source 0 (Token.stream source) = some (highlight source) ∧
        ('\x1b' ∉ source → shown false (highlight source) = source) := by
  have hfront : Text.byteLength [] = 0 := rfl
  obtain ⟨painted, hpainted, hshown⟩ := (Token.tiles_stream source).exists_painted hfront
  have hsome : paintTokens? source 0 (Token.stream source) = some painted := hpainted
  have hhighlight : highlight source = painted := paintTokens_of_some hsome
  rw [hhighlight]
  exact ⟨Token.spans_stream source, hsome, hshown⟩

/-- A query with letters of two bytes, an unknown character and an open quote. -/
theorem highlight_spans_of_open_quote :
    '\x1b' ∉ ("größe ; \"ü" : Text) ∧ shown false (highlight "größe ; \"ü") = "größe ; \"ü" := by
  have hescape : '\x1b' ∉ ("größe ; \"ü" : Text) := by decide
  exact ⟨hescape, (highlight_spans _).2.2 hescape⟩

end TicketSearch
