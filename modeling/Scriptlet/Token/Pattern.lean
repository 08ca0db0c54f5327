/-
# Patterns of tokens

The shapes that the tokens of the language have.  A pattern is tried at the beginning of a text;
where it matches, it splits the text into the matched part, which is never empty, and the rest.
Every pattern takes as much text as it can.
-/

namespace Scriptlet

/-- The shape of a token. -/
inductive Pattern where
  /-- One character of a class. -/
  | one (p : Char → Bool)
  /-- As many characters of a class as there are, but at least one. -/
  | run (p : Char → Bool)
  /-- A character of a class and a given one behind it. -/
  | two (p : Char → Bool) (d : Char)
  /-- A character of a class, and a given one too if it is behind it. -/
  | oneOrTwo (p : Char → Bool) (d : Char)
  /-- Text between two equal quotes, the first quote that follows being the closing one. -/
  | quoted (q : Char)

namespace Pattern

/-- Splits a text that begins with a match into the match and the rest. -/
def split? : Pattern → List Char → Option (List Char × List Char)
  | one p, c :: cs => if p c then some ([c], cs) else none
  | run p, c :: cs => if p c then some (c :: cs.takeWhile p, cs.dropWhile p) else none
  | two p d, c :: e :: cs => if p c ∧ e = d then some ([c, e], cs) else none
  | oneOrTwo p d, c :: cs =>
    if p c then
      match cs with
      | [] => some ([c], [])
      | e :: ds => if e = d then some ([c, e], ds) else some ([c], cs)
    else none
  | quoted q, c :: cs =>
    if c = q then
      match cs.dropWhile (· ≠ q) with
      | [] => none
      | e :: ds => some (c :: cs.takeWhile (· ≠ q) ++ [e], ds)
    else none
  | _, _ => none

/-! ## A match and its rest make up the text -/

/-- A match is a beginning of the text that is not empty, and the rest is what is behind it. -/
theorem split?_spec {p : Pattern} {cs m r : List Char} (h : p.split? cs = some (m, r)) :
    m ≠ [] ∧ m ++ r = cs := by
  cases p with
  | one p =>
    cases cs <;> simp only [split?] at h <;> grind
  | run p =>
    cases cs <;> simp only [split?] at h <;> grind [List.takeWhile_append_dropWhile]
  | two p d =>
    rcases cs with _ | ⟨c, _ | ⟨e, cs⟩⟩ <;> simp only [split?] at h <;> grind
  | oneOrTwo p d =>
    rcases cs with _ | ⟨c, _ | ⟨e, cs⟩⟩ <;> simp only [split?] at h <;> grind
  | quoted q =>
    cases cs with
    | nil => simp [split?] at h
    | cons c cs =>
      have happ := @List.takeWhile_append_dropWhile _ (fun x => decide (x ≠ q)) cs
      simp only [split?] at h
      split at h
      · split at h
        · simp at h
        · next hd =>
          rw [hd] at happ
          obtain ⟨rfl, rfl⟩ := by simpa using h
          exact ⟨by simp, by simpa using happ⟩
      · simp at h

theorem append_of_split? {p : Pattern} {cs m r : List Char} (h : p.split? cs = some (m, r)) :
    m ++ r = cs :=
  (split?_spec h).2

theorem ne_nil_of_split? {p : Pattern} {cs m r : List Char} (h : p.split? cs = some (m, r)) :
    m ≠ [] :=
  (split?_spec h).1

/-- What is behind a match is shorter than the text. -/
theorem length_lt_of_split? {p : Pattern} {cs m r : List Char} (h : p.split? cs = some (m, r)) :
    r.length < cs.length := by
  rw [← append_of_split? h, List.length_append]
  have := List.length_pos_iff.mpr (ne_nil_of_split? h)
  omega

end Pattern

end Scriptlet
