/-
Which tokens lead the automaton behind completion to a place.

Read backwards, most places say little, but two sorts of them tell where the tokens before
came from.  Behind the first word of an operator of several words the place holds an offset,
and it is the offset of a word that stands where an operator was due (`exists_of_begun`).  And
the automaton is in a list exactly when the tokens end in the parentheses of one, `InList`.
Both are a step read backwards, and an induction over the tokens from the last one.
-/
import Mathlib.Data.List.Induction
import TicketSearch.Proofs.Completion.Expectation

namespace TicketSearch

namespace Place

variable {p : Place} {t : Token} {ts us : List Token} {f : Option Field} {n : Nat}

/-- The place that the first tokens of a query lead to. -/
def reached (tokens : List Token) : Place :=
  tokens.foldl step .field

theorem reached_append (ts us : List Token) : reached (ts ++ us) = us.foldl step (reached ts) :=
  List.foldl_append

theorem reached_concat (ts : List Token) (t : Token) : reached (ts ++ [t]) = (reached ts).step t :=
  reached_append ts [t]

/-! ### Where an operator of several words begins -/

/-- The places behind the first word of such an operator. -/
inductive Begun (f : Option Field) (n : Nat) : Place → Prop
  | afterNot : Begun f n (.afterNot f n)
  | afterIs : Begun f n (.afterIs f n)

/-- A step leads there from where an operator is due, by a word at this offset, or stays there. -/
theorem Begun.of_step (h : Begun f n (p.step t)) : p = .operator f ∧ t.start = n ∨ Begun f n p := by
  unfold step at h
  split at h
  · unfold stepList at h
    split_ifs at h <;> cases h
  · unfold stepList at h
    split_ifs at h <;> cases h
  · split_ifs at h
    · cases h
    · unfold stepPredicate at h
      split at h
      all_goals first
        | exact Or.inr h
        | (cases h; exact Or.inl ⟨rfl, rfl⟩)
        | cases h

theorem exists_of_begun (h : Begun f n (reached ts)) :
    ∃ a t b, ts = a ++ t :: b ∧ t.start = n ∧ reached a = .operator f := by
  induction ts using List.reverseRecOn with
  | nil => cases h
  | append_singleton ts t ih =>
      rw [reached_concat] at h
      rcases h.of_step with ⟨hoperator, hstart⟩ | hbegun
      · exact ⟨ts, t, [], rfl, hstart, hoperator⟩
      · obtain ⟨a, u, b, rfl, hstart, hoperator⟩ := ih hbegun
        exact ⟨a, u, b ++ [t], by simp, hstart, hoperator⟩

/-! ### The parentheses of a list -/

/-- Whether `IN` may stand at a place. -/
def awaitsIn : Place → Bool
  | .operator _ | .afterNot _ _ => true
  | _ => false

/-- The places inside the parentheses of a list. -/
def isListing : Place → Bool
  | .listValue _ | .listNext _ => true
  | _ => false

/-- What leads behind an `IN`: the word where it may stand, and then whatever starts no token. -/
theorem step_eq_afterIn (h : p.step t = .afterIn f) :
    p = .afterIn f ∧ t.kind = .unknown ∨ p.awaitsIn = true ∧ t.kind = .inWord := by
  unfold step at h
  split at h
  · unfold stepList at h
    split_ifs at h
  · unfold stepList at h
    split_ifs at h
  · split_ifs at h
    unfold stepPredicate at h
    split at h
    all_goals first
      | exact Or.inl ⟨h, ‹_›⟩
      | exact Or.inr ⟨rfl, ‹_›⟩
      | cases h

theorem isListing_stepList (hp : p.isListing = true) (f : Option Field) (k : TokenKind) :
    (p.stepList f k).isListing = true ↔ k ≠ .closeParen := by
  unfold stepList
  split_ifs with hunknown hcomma hclose hvalue
  · simp [hp, hunknown]
  · simp [isListing, hcomma]
  · simp [isListing, hclose]
  · simp [isListing, hclose]
  · simp [hp, hclose]

theorem isListing_stepPredicate (hp : p.isListing = false) :
    (p.stepPredicate t).isListing = true ↔ (∃ f, p = .afterIn f) ∧ t.kind = .openParen := by
  unfold stepPredicate
  split
  all_goals simp_all [isListing]

/-- What leads into a list is its parenthesis, and what leads out of it is the
one that closes it. -/
theorem isListing_step :
    (p.step t).isListing = true ↔
      p.isListing = true ∧ t.kind ≠ .closeParen ∨ (∃ f, p = .afterIn f) ∧ t.kind = .openParen := by
  unfold step
  split
  · rw [isListing_stepList rfl]
    simp [isListing]
  · rw [isListing_stepList rfl]
    simp [isListing]
  · rename_i hvalue hnext
    have hp : p.isListing = false := by
      cases p with
      | listValue f => exact absurd rfl (hvalue f)
      | listNext f => exact absurd rfl (hnext f)
      | _ => rfl
    split_ifs with hconnective
    · rw [hp]
      rcases hconnective with hand | hor
      · simp [isListing, hand]
      · simp [isListing, hor]
    · rw [isListing_stepPredicate hp, hp]
      simp

/-- Tokens that end in the parentheses of a list: the `IN` of a field, the parenthesis behind it,
and none that closes it.  What starts no token may stand between the two. -/
def InList (tokens : List Token) : Prop :=
  ∃ before inWord passed opening behind,
    tokens = before ++ inWord :: (passed ++ opening :: behind) ∧
    (reached before).awaitsIn = true ∧ inWord.kind = .inWord ∧ (∀ t ∈ passed, t.kind = .unknown) ∧
      opening.kind = .openParen ∧ ∀ t ∈ behind, t.kind ≠ .closeParen

/-- What starts no token is passed over. -/
theorem step_unknown (h : t.kind = .unknown) : p.step t = p := by
  cases p <;> simp [step, stepList, stepPredicate, h]

theorem foldl_unknown (h : ∀ t ∈ ts, t.kind = .unknown) : ts.foldl step p = p := by
  induction ts with
  | nil => rfl
  | cons t ts ih =>
      rw [List.foldl_cons, step_unknown (h t List.mem_cons_self)]
      exact ih fun u hu => h u (List.mem_cons_of_mem _ hu)

theorem step_inWord (hp : p.awaitsIn = true) (h : t.kind = .inWord) :
    ∃ f, p.step t = .afterIn f := by
  cases p with
  | operator f => exact ⟨f, (Moves.inWord h).step_eq⟩
  | afterNot f n => exact ⟨f, (Moves.inAfterNot h).step_eq⟩
  | _ => cases hp

theorem isListing_foldl (hp : p.isListing = true) (h : ∀ t ∈ ts, t.kind ≠ .closeParen) :
    (ts.foldl step p).isListing = true := by
  induction ts generalizing p with
  | nil => exact hp
  | cons t ts ih =>
      have hstep : (p.step t).isListing = true :=
        isListing_step.mpr (Or.inl ⟨hp, h t List.mem_cons_self⟩)
      exact ih hstep fun u hu => h u (List.mem_cons_of_mem _ hu)

theorem exists_of_afterIn (h : reached ts = .afterIn f) :
    ∃ before inWord passed, ts = before ++ inWord :: passed ∧ (reached before).awaitsIn = true ∧
      inWord.kind = .inWord ∧ ∀ t ∈ passed, t.kind = .unknown := by
  induction ts using List.reverseRecOn with
  | nil => cases h
  | append_singleton ts t ih =>
      rw [reached_concat] at h
      rcases step_eq_afterIn h with ⟨hafter, hunknown⟩ | ⟨hawaits, hin⟩
      · obtain ⟨before, inWord, passed, rfl, hawaits, hin, hpassed⟩ := ih hafter
        refine ⟨before, inWord, passed ++ [t], by simp, hawaits, hin, fun u hu => ?_⟩
        rcases List.mem_append.mp hu with hmem | hlast
        · exact hpassed u hmem
        · rw [List.mem_singleton.mp hlast]
          exact hunknown
      · exact ⟨ts, t, [], rfl, hawaits, hin, fun u hu => by cases hu⟩

/-- The parentheses of a list open where a value is due. -/
theorem exists_reached_eq_foldl {before passed : List Token} {inWord opening : Token}
    (hawaits : (reached before).awaitsIn = true) (hin : inWord.kind = .inWord)
    (hpassed : ∀ t ∈ passed, t.kind = .unknown) (hopen : opening.kind = .openParen)
    (behind : List Token) :
    ∃ f, reached (before ++ inWord :: (passed ++ opening :: behind)) =
      behind.foldl step (.listValue f) := by
  obtain ⟨f, hafter⟩ := step_inWord hawaits hin
  refine ⟨f, ?_⟩
  rw [reached_append, List.foldl_cons, hafter, List.foldl_append, foldl_unknown hpassed,
    List.foldl_cons, (Moves.listOpens hopen).step_eq]

/-- **The automaton is in a list exactly when the tokens end in its parentheses.** -/
theorem isListing_reached_iff : (reached ts).isListing = true ↔ InList ts := by
  constructor
  · intro h
    induction ts using List.reverseRecOn with
    | nil => cases h
    | append_singleton ts t ih =>
        rw [reached_concat] at h
        rcases isListing_step.mp h with ⟨hlisting, hclose⟩ | ⟨⟨f, hafter⟩, hopen⟩
        · obtain ⟨before, inWord, passed, opening, behind, rfl, hawaits, hin, hpassed,
            hopen, hbehind⟩ :=
            ih hlisting
          refine ⟨before, inWord, passed, opening, behind ++ [t], by simp, hawaits, hin,
            hpassed, hopen,
            fun u hu => ?_⟩
          rcases List.mem_append.mp hu with hmem | hlast
          · exact hbehind u hmem
          · rw [List.mem_singleton.mp hlast]
            exact hclose
        · obtain ⟨before, inWord, passed, rfl, hawaits, hin, hpassed⟩ := exists_of_afterIn hafter
          refine ⟨before, inWord, passed, t, [], by simp, hawaits, hin, hpassed, hopen,
            fun u hu => ?_⟩
          cases hu
  · rintro ⟨before, inWord, passed, opening, behind, rfl, hawaits, hin, hpassed, hopen, hbehind⟩
    obtain ⟨f, hf⟩ := exists_reached_eq_foldl hawaits hin hpassed hopen behind
    rw [hf]
    exact isListing_foldl rfl hbehind

end Place
end TicketSearch
