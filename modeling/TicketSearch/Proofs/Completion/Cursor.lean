/-
The tokens before the cursor.

Completion walks over the tokens that end before the cursor, up to the one under it if there is
one.  Read token by token: a token under the cursor ends the walk there, one that ends before it
is walked, and from those behind it nothing is (`split_of_under`, `split_of_before`,
`split_of_behind`).  So a cursor right behind blanks has exactly the tokens before the blanks
(`split_of_parted`).
-/
import TicketSearch.Completion
import TicketSearch.Proofs.Lexing.Respacing

namespace TicketSearch

open Token (Parted)

namespace Context

variable {cursor : Nat} {t : Token} {ts : List Token}

/-- The token under the cursor is not among those before it. -/
theorem split_of_under (h : isUnder cursor t = true) : split (t :: ts) cursor = ([], t.start) := by
  unfold split
  rw [List.findIdx?_cons, if_pos h]
  rfl

/-- A token that ends before the cursor is. -/
theorem split_of_before (hunder : isUnder cursor t = false) (hkind : t.kind ≠ .endOfInput)
    (hends : t.stop ≤ cursor) :
    split (t :: ts) cursor = (t :: (split ts cursor).1, (split ts cursor).2) := by
  unfold split
  rw [List.findIdx?_cons, hunder, if_neg Bool.false_ne_true]
  cases ts.findIdx? (isUnder cursor) with
  | some i => rfl
  | none => simp [hkind, hends]

/-- Tokens behind the cursor do not count. -/
theorem split_of_behind
    (h : ∀ t ∈ ts, cursor ≤ t.start ∧ (t.kind ≠ .endOfInput → t.start < t.stop)) :
    split ts cursor = ([], cursor) := by
  have hunder : ts.findIdx? (isUnder cursor) = none := by
    rw [List.findIdx?_eq_none_iff]
    intro t ht
    have hstart := (h t ht).1
    unfold isUnder
    simp [Nat.not_lt.mpr hstart]
  unfold split
  rw [hunder]
  cases ts with
  | nil => rfl
  | cons t ts =>
      obtain ⟨hstart, hstop⟩ := h t List.mem_cons_self
      have hbehind : ¬(t.kind != .endOfInput && decide (t.stop ≤ cursor)) = true := by
        by_cases hkind : t.kind = .endOfInput
        · simp [hkind]
        · have hlt := hstop hkind
          simp [hkind]
          omega
      show (List.takeWhile _ (t :: ts), cursor) = _
      rw [List.takeWhile_cons, if_neg hbehind]

/-- A token that ends before the cursor and does not touch it is not under it. -/
theorem isUnder_of_stop_lt (h : t.stop < cursor) : isUnder cursor t = false := by
  have hlt : ¬cursor < t.stop := by omega
  have hne : cursor ≠ t.stop := by omega
  unfold isUnder
  simp [hlt, hne]

/-- All tokens of a first part that ends before the cursor are before it. -/
theorem split_append {first last : List Token}
    (h : ∀ t ∈ first, t.kind ≠ .endOfInput ∧ t.stop < cursor) :
    split (first ++ last) cursor = (first ++ (split last cursor).1, (split last cursor).2) := by
  induction first with
  | nil => rfl
  | cons t first ih =>
      obtain ⟨hkind, hstop⟩ := h t List.mem_cons_self
      rw [List.cons_append, split_of_before (isUnder_of_stop_lt hstop) hkind (Nat.le_of_lt hstop),
        ih fun u hu => h u (List.mem_cons_of_mem _ hu)]
      rfl

/-- A cursor between two parts of a source stands behind the tokens of the first, and on none. -/
theorem split_of_parted {first last : Text} {pre post : List Token}
    (h : Parted first last pre post) :
    split (Token.stream (first ++ last)) (Text.byteLength first) =
      (pre, Text.byteLength first) := by
  have hpre : ∀ t ∈ pre, t.kind ≠ .endOfInput ∧ t.stop < Text.byteLength first := by
    intro t ht
    obtain ⟨hkind, hstop, _⟩ := h.before t ht
    exact ⟨hkind, hstop⟩
  rw [h.stream_eq, split_append hpre, split_of_behind h.behind, List.append_nil]

end Context

end TicketSearch
