/-
Text as a list of characters, with the byte offsets of its UTF-8 form.

Queries are measured in bytes: a cursor, the span of a token and the place of an
error are all byte offsets.  The text itself is a list of characters, so that what
reads it can recurse on it; `byteLength` and `splitAtByte?` are the only two places
where the two views meet.
-/

namespace TicketSearch

/-- A text is the list of its characters. -/
abbrev Text := List Char

instance : Coe String Text := ⟨String.toList⟩

namespace Text

/-- The number of bytes of the UTF-8 form. -/
def byteLength : Text → Nat
  | [] => 0
  | c :: cs => c.utf8Size + byteLength cs

/--
The two parts of a text before and after a byte offset; `none` when the offset is
past the end or falls inside a character.
-/
def splitAtByte? : Nat → Text → Option (Text × Text)
  | 0, cs => some ([], cs)
  | _ + 1, [] => none
  | n + 1, c :: cs =>
    if c.utf8Size ≤ n + 1 then
      (splitAtByte? (n + 1 - c.utf8Size) cs).map fun parts => (c :: parts.1, parts.2)
    else none

/-- The text before a byte offset. -/
def before? (t : Text) (n : Nat) : Option Text :=
  (splitAtByte? n t).map Prod.fst

/-- The text from a byte offset on. -/
def after? (t : Text) (n : Nat) : Option Text :=
  (splitAtByte? n t).map Prod.snd

/-- The text between two byte offsets. -/
def between? (t : Text) (first last : Nat) : Option Text :=
  if first ≤ last then (t.after? first).bind fun rest => before? rest (last - first) else none

/-- A text padded on the right with spaces to at least `width` characters. -/
def padRight (width : Nat) (t : Text) : Text :=
  t ++ List.replicate (width - t.length) ' '

/-- A text padded on the left with spaces to at least `width` characters. -/
def padLeft (width : Nat) (t : Text) : Text :=
  List.replicate (width - t.length) ' ' ++ t

/-- The decimal digits of a number. -/
def ofNat (n : Nat) : Text :=
  Nat.toDigits 10 n

@[simp] theorem byteLength_nil : byteLength [] = 0 := rfl

@[simp] theorem byteLength_cons (c : Char) (cs : Text) :
    byteLength (c :: cs) = c.utf8Size + byteLength cs := rfl

@[simp] theorem byteLength_append (s t : Text) :
    byteLength (s ++ t) = byteLength s + byteLength t := by
  induction s with
  | nil => simp
  | cons c cs ih => simp [ih, Nat.add_assoc]

/-- Cutting a text at the length of a first part gives back the parts. -/
@[simp] theorem splitAtByte?_append (s t : Text) :
    splitAtByte? (byteLength s) (s ++ t) = some (s, t) := by
  induction s with
  | nil => simp [splitAtByte?]
  | cons c cs ih =>
    have hc := c.utf8Size_pos
    obtain ⟨n, hn⟩ : ∃ n, c.utf8Size + byteLength cs = n + 1 :=
      ⟨c.utf8Size + byteLength cs - 1, by omega⟩
    have hrest : n + 1 - c.utf8Size = byteLength cs := by omega
    have hle : c.utf8Size ≤ n + 1 := by omega
    simp [hn, splitAtByte?, hle, hrest, ih]

/-- The parts of a cut make up the text, and the first has the length asked for. -/
theorem splitAtByte?_eq_some {n : Nat} {t a b : Text} (h : splitAtByte? n t = some (a, b)) :
    t = a ++ b ∧ byteLength a = n := by
  induction t generalizing n a with
  | nil =>
    cases n with
    | zero => simp_all [splitAtByte?]
    | succ n => simp [splitAtByte?] at h
  | cons c cs ih =>
    cases n with
    | zero => simp_all [splitAtByte?]
    | succ n =>
      simp only [splitAtByte?] at h
      split at h
      · obtain ⟨parts, hcut, heq⟩ := Option.map_eq_some_iff.1 h
        obtain ⟨rfl, rfl⟩ : c :: parts.1 = a ∧ parts.2 = b := by simpa using heq
        obtain ⟨hcs, hlen⟩ := ih (a := parts.1) hcut
        exact ⟨by rw [hcs]; rfl, by simp [hlen]; omega⟩
      · simp at h

end Text

end TicketSearch
