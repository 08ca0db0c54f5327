/-
# Text measured in bytes

A source text is a list of characters, but every position in it, every length and every span
is counted in the bytes of its UTF-8 form.  This file sets up that measure, and the part of a
text that begins at a given byte: there is one exactly when the byte is the first of a
character, or the end of the text.
-/

namespace Scriptlet.Text

/-- The number of bytes a text takes in UTF-8. -/
def size (cs : List Char) : Nat := cs.foldr (fun c n => c.utf8Size + n) 0

@[simp] theorem size_nil : size [] = 0 := rfl

@[simp] theorem size_cons (c : Char) (cs : List Char) : size (c :: cs) = c.utf8Size + size cs :=
  rfl

@[simp] theorem size_append (cs ds : List Char) : size (cs ++ ds) = size cs + size ds := by
  induction cs with
  | nil => simp
  | cons c cs ih => rw [List.cons_append, size_cons, size_cons, ih, Nat.add_assoc]

/-- A text is at least as many bytes long as it has characters. -/
theorem length_le_size (cs : List Char) : cs.length ≤ size cs := by
  induction cs with
  | nil => simp
  | cons c cs ih =>
    have := c.utf8Size_pos
    simp only [List.length_cons, size_cons]
    omega

/-- The number of bytes of a string. -/
def bytes (s : String) : Nat := size s.toList

/-! ## The text from a byte onwards -/

/-- The text that begins `n` bytes into `cs`.  There is none if that byte lies inside a
character or behind the end of the text. -/
def from? : Nat → List Char → Option (List Char)
  | 0, cs => some cs
  | _ + 1, [] => none
  | n + 1, c :: cs => if n + 1 < c.utf8Size then none else from? (n + 1 - c.utf8Size) cs

@[simp] theorem from?_zero (cs : List Char) : from? 0 cs = some cs := by
  cases cs <;> rfl

/-- What begins behind a leading part of a text is the rest of it. -/
theorem from?_size_append (cs ds : List Char) : from? (size cs) (cs ++ ds) = some ds := by
  induction cs with
  | nil => simp
  | cons c cs ih =>
    obtain ⟨k, hk⟩ : ∃ k, c.utf8Size = k + 1 := Nat.exists_eq_add_one.mpr c.utf8Size_pos
    have hs : size (c :: cs) = (k + size cs) + 1 := by simp only [size_cons, hk]; omega
    rw [hs, List.cons_append, from?, if_neg (by omega), hk]
    simpa [Nat.add_sub_add_right, show k + size cs + 1 - (k + 1) = size cs by omega] using ih

/-- **The text from byte `n` onwards** is `ds` exactly when `n` bytes of text stand before it. -/
theorem from?_eq_some_iff {n : Nat} {cs ds : List Char} :
    from? n cs = some ds ↔ ∃ pre, cs = pre ++ ds ∧ size pre = n := by
  constructor
  · intro h
    induction cs generalizing n with
    | nil =>
      cases n with
      | zero => exact ⟨[], by simpa using h, rfl⟩
      | succ n => simp [from?] at h
    | cons c cs ih =>
      cases n with
      | zero => exact ⟨[], by simpa using h, rfl⟩
      | succ n =>
        rw [from?] at h
        split at h
        · simp at h
        · next hn =>
          obtain ⟨pre, hcs, hpre⟩ := ih h
          refine ⟨c :: pre, by rw [hcs]; rfl, ?_⟩
          rw [size_cons, hpre]
          omega
  · rintro ⟨pre, rfl, rfl⟩
    exact from?_size_append pre ds

end Scriptlet.Text
