/-
When a value is offered.

A value is offered when the lower case of what is typed is a beginning of the lower case of the
value (`suggests_value_iff`).  Who types a value from its start, in quotes or not, has typed a
beginning of it.  Lower case then decides: the value stays on offer, unless what is typed breaks
off behind a capital sigma in the middle of a word, which is taken for the end of one
(`suggests_beginning_iff`).
-/
import TicketSearch.Proofs.Case.Beginning
import TicketSearch.Proofs.Completion.Splice

namespace TicketSearch

/-- A catalog of which only one user is known. -/
def Catalog.ofUser (name : Text) : Catalog :=
  { blank with users := [name] }

namespace Context

/-- A text is among what is offered, as it is shown. -/
def Suggests (c : Context) (catalog : Catalog) (text : Text) : Prop :=
  ∃ s ∈ c.suggest catalog, s.label = text

instance (c : Context) (catalog : Catalog) (text : Text) : Decidable (c.Suggests catalog text) :=
  inferInstanceAs (Decidable (∃ s ∈ c.suggest catalog, s.label = text))

variable {f : Field} {catalog : Catalog} {typed v p r : Text} {position : Nat}

/-- A value of a field is offered when it starts like what is typed, up to case and quotes. -/
theorem suggests_value_iff :
    Suggests ⟨.value, typed, position, some f⟩ catalog v ↔
      v ∈ candidates catalog f ∧ Text.lower (typed.dropWhile (· == '"')) <+: Text.lower v := by
  have hsuggest : suggest ⟨.value, typed, position, some f⟩ catalog =
      ((candidates catalog f).filter fun value =>
        (Text.lower (typed.dropWhile (· == '"'))).isPrefixOf (Text.lower value)).map
          (suggestValue (typed.head? == some '"')) := rfl
  unfold Suggests
  rw [hsuggest]
  constructor
  · rintro ⟨s, hs, rfl⟩
    obtain ⟨value, hvalue, rfl⟩ := List.mem_map.mp hs
    obtain ⟨hmem, hprefix⟩ := List.mem_filter.mp hvalue
    exact ⟨hmem, List.isPrefixOf_iff_prefix.mp hprefix⟩
  · rintro ⟨hmem, hprefix⟩
    have hkept : (Text.lower (typed.dropWhile (· == '"'))).isPrefixOf (Text.lower v) = true :=
      List.isPrefixOf_iff_prefix.mpr hprefix
    exact ⟨_, List.mem_map_of_mem (List.mem_filter.mpr ⟨hmem, hkept⟩), rfl⟩

/-- No value of a field has a double quote when none of the catalog's has one. -/
theorem not_mem_quote_of_mem_candidates (hv : v ∈ candidates catalog f)
    (hquote : ∀ roster, f.source = .roster roster → '"' ∉ v) : '"' ∉ v := by
  unfold candidates at hv
  split at hv
  · exact not_mem_quote_of_table ‹_› hv
  · exact hquote _ ‹_›
  · cases hv

theorem dropWhile_quote (h : '"' ∉ p) : p.dropWhile (· == '"') = p := by
  cases p with
  | nil => rfl
  | cons c p =>
      have hc : ¬(c == '"') = true := fun heq => h (beq_iff_eq.mp heq ▸ List.mem_cons_self)
      exact List.dropWhile_cons_of_neg hc

/--
**A value is offered for every beginning of it, with or without a quote before it,** except for
one that breaks off within a word behind a capital sigma.
-/
theorem suggests_beginning_iff (hv : p ++ r ∈ candidates catalog f)
    (hquote : ∀ roster, f.source = .roster roster → '"' ∉ p ++ r) (position : Nat) :
    (Suggests ⟨.value, p, position, some f⟩ catalog (p ++ r) ↔ ¬Text.BreaksAtSigma p r) ∧
      (Suggests ⟨.value, '"' :: p, position, some f⟩ catalog (p ++ r) ↔
        ¬Text.BreaksAtSigma p r) := by
  have hnone := not_mem_quote_of_mem_candidates hv hquote
  have htyped : p.dropWhile (· == '"') = p :=
    dropWhile_quote fun h => hnone (List.mem_append_left r h)
  have hquoted : ('"' :: p).dropWhile (· == '"') = p := by
    rw [List.dropWhile_cons_of_pos rfl, htyped]
  constructor
  · rw [suggests_value_iff, htyped, Text.lower_isPrefix_iff]
    exact and_iff_right hv
  · rw [suggests_value_iff, hquoted, Text.lower_isPrefix_iff]
    exact and_iff_right hv

/-- A user whose name is written in capitals is on offer for the first two letters, in
the query or in quotes. -/
theorem suggests_beginning_of_capitals :
    Suggests ⟨.value, "ΚΩ", 11, some .assignee⟩ (.ofUser "ΚΩΣΤΑΣ") "ΚΩΣΤΑΣ" ∧
      Suggests ⟨.value, "\"ΚΩ", 11, some .assignee⟩ (.ofUser "ΚΩΣΤΑΣ") "ΚΩΣΤΑΣ" := by
  have hname : "ΚΩΣΤΑΣ".toList = "ΚΩ".toList ++ "ΣΤΑΣ".toList := by decide
  have hquote : '"' ∉ "ΚΩ".toList ++ "ΣΤΑΣ".toList := by decide
  have hsigma : ¬Text.BreaksAtSigma "ΚΩ" "ΣΤΑΣ" := by
    rintro ⟨a, b, heq, _⟩
    have hmem : 'Σ' ∈ "ΚΩ".toList := heq ▸ List.mem_append_right a List.mem_cons_self
    exact absurd hmem (by decide)
  have hmem : "ΚΩ".toList ++ "ΣΤΑΣ".toList ∈
      candidates (.ofUser ("ΚΩ".toList ++ "ΣΤΑΣ".toList)) .assignee :=
    List.mem_singleton_self _
  rw [hname]
  obtain ⟨hbare, hquoted⟩ := suggests_beginning_iff hmem (fun _ _ => hquote) 11
  exact ⟨hbare.mpr hsigma, hquoted.mpr hsigma⟩

/-- The same user goes off the list when the third letter, a sigma, is typed. -/
theorem not_suggests_beginning_of_sigma :
    "ΚΩΣΤΑΣ".toList = "ΚΩΣ".toList ++ "ΤΑΣ".toList ∧
      "ΚΩΣΤΑΣ".toList ∈ candidates (.ofUser "ΚΩΣΤΑΣ") .assignee ∧
      at? "assignee = ΚΩΣ" 17 = some ⟨.value, "ΚΩΣ", 11, some .assignee⟩ ∧
      Suggests ⟨.value, "ΚΩ", 11, some .assignee⟩ (.ofUser "ΚΩΣΤΑΣ") "ΚΩΣΤΑΣ" ∧
      ¬Suggests ⟨.value, "ΚΩΣ", 11, some .assignee⟩ (.ofUser "ΚΩΣΤΑΣ") "ΚΩΣΤΑΣ" ∧
      ¬Suggests ⟨.value, "\"ΚΩΣ", 11, some .assignee⟩ (.ofUser "ΚΩΣΤΑΣ") "ΚΩΣΤΑΣ" := by
  refine ⟨by decide, List.mem_singleton_self _, ?_, ?_, ?_, ?_⟩ <;> decide +kernel

end Context

end TicketSearch
