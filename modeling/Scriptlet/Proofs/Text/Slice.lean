/-
# Slices of a text

The part of a text between two byte offsets.  There is one exactly when both offsets lie between
characters of the text and are in order, which is what makes a slice a safe way to say where in
a source something stands.
-/
import Mathlib
import Scriptlet.Text.Utf8

namespace Scriptlet.Text

/-- Whether the byte offset `n` lies between two characters of the text, or at one of its ends. -/
def IsBoundary (n : Nat) (cs : List Char) : Prop := (from? n cs).isSome

/-- The text of the first `n` bytes.  There is none if they end inside a character or if the text
is shorter. -/
def upTo? : Nat → List Char → Option (List Char)
  | 0, _ => some []
  | _ + 1, [] => none
  | n + 1, c :: cs =>
    if n + 1 < c.utf8Size then none else (upTo? (n + 1 - c.utf8Size) cs).map (c :: ·)

/-- The text of the bytes from `a` up to `b`. -/
def slice? (a b : Nat) (cs : List Char) : Option (List Char) := (upTo? b cs).bind (from? a)

lemma isBoundary_iff {n : Nat} {cs : List Char} :
    IsBoundary n cs ↔ ∃ pre post, cs = pre ++ post ∧ size pre = n := by
  rw [IsBoundary, Option.isSome_iff_exists]
  simp only [from?_eq_some_iff]
  constructor
  · rintro ⟨post, pre, hcs, hn⟩
    exact ⟨pre, post, hcs, hn⟩
  · rintro ⟨pre, post, hcs, hn⟩
    exact ⟨post, pre, hcs, hn⟩

lemma upTo?_size_append (pre post : List Char) : upTo? (size pre) (pre ++ post) = some pre := by
  induction pre with
  | nil => cases post <;> rfl
  | cons c pre ih =>
    obtain ⟨k, hk⟩ : ∃ k, c.utf8Size = k + 1 := Nat.exists_eq_add_one.mpr c.utf8Size_pos
    have hs : size (c :: pre) = (k + size pre) + 1 := by
      rw [size_cons, hk]
      omega
    have hsub : k + size pre + 1 - c.utf8Size = size pre := by omega
    rw [hs, List.cons_append, upTo?, if_neg (by omega), hsub, ih, Option.map_some]

lemma upTo?_eq_some_iff {n : Nat} {cs pre : List Char} :
    upTo? n cs = some pre ↔ ∃ post, cs = pre ++ post ∧ size pre = n := by
  constructor
  · intro h
    induction cs generalizing n pre with
    | nil =>
      cases n with
      | zero =>
        obtain rfl : [] = pre := by simpa [upTo?] using h
        exact ⟨[], rfl, rfl⟩
      | succ n => simp [upTo?] at h
    | cons c cs ih =>
      cases n with
      | zero =>
        obtain rfl : [] = pre := by simpa [upTo?] using h
        exact ⟨c :: cs, rfl, rfl⟩
      | succ n =>
        rw [upTo?] at h
        split at h
        · simp at h
        · next hn =>
          obtain ⟨pre, hpre, rfl⟩ := Option.map_eq_some_iff.mp h
          obtain ⟨post, rfl, hsize⟩ := ih hpre
          refine ⟨post, rfl, ?_⟩
          rw [size_cons, hsize]
          omega
  · rintro ⟨post, rfl, rfl⟩
    exact upTo?_size_append pre post

/-- **The slice from `a` to `b`** is `ds` exactly when `a` bytes of text stand before `ds` and `b`
bytes up to its end. -/
theorem slice?_eq_some_iff {a b : Nat} {cs ds : List Char} :
    slice? a b cs = some ds ↔
      ∃ pre post, cs = pre ++ (ds ++ post) ∧ size pre = a ∧ size pre + size ds = b := by
  rw [slice?, Option.bind_eq_some_iff]
  constructor
  · rintro ⟨whole, hwhole, hds⟩
    obtain ⟨post, rfl, rfl⟩ := upTo?_eq_some_iff.mp hwhole
    obtain ⟨pre, rfl, rfl⟩ := from?_eq_some_iff.mp hds
    exact ⟨pre, post, by simp, rfl, by simp⟩
  · rintro ⟨pre, post, rfl, rfl, rfl⟩
    refine ⟨pre ++ ds, ?_, from?_eq_some_iff.mpr ⟨pre, rfl, rfl⟩⟩
    exact upTo?_eq_some_iff.mpr ⟨post, by simp, by simp⟩

/-! ## Offsets inside a character -/

/-- Whether the byte offset `n` lies inside a character of the text, behind its first byte. -/
def InsideChar (n : Nat) (cs : List Char) : Prop :=
  ∃ pre c post, cs = pre ++ c :: post ∧ size pre < n ∧ n < size pre + c.utf8Size

lemma InsideChar.lt_size {n : Nat} {cs : List Char} (h : InsideChar n cs) : n < size cs := by
  obtain ⟨pre, c, post, rfl, -, hlt⟩ := h
  rw [size_append, size_cons]
  omega

/-- **There is no text from byte `n` onwards** exactly when `n` is behind the end or inside
a character. -/
theorem from?_eq_none_iff {n : Nat} {cs : List Char} :
    from? n cs = none ↔ size cs < n ∨ InsideChar n cs := by
  constructor
  · intro h
    induction cs generalizing n with
    | nil =>
      cases n with
      | zero => simp at h
      | succ n => exact .inl (by simp)
    | cons c cs ih =>
      cases n with
      | zero => simp at h
      | succ n =>
        rw [from?] at h
        split at h
        · next hlt => exact .inr ⟨[], c, cs, rfl, by simp, by simpa using hlt⟩
        · rcases ih h with hlt | ⟨pre, d, post, rfl, hlo, hhi⟩
          · exact .inl (by rw [size_cons]; omega)
          · exact .inr ⟨c :: pre, d, post, rfl, by rw [size_cons]; omega, by rw [size_cons]; omega⟩
  · rw [Option.eq_none_iff_forall_ne_some]
    rintro h ds hds
    obtain ⟨pre, rfl, rfl⟩ := from?_eq_some_iff.mp hds
    rcases h with hlt | ⟨pre', c, post, happend, hlo, hhi⟩
    · rw [size_append] at hlt
      omega
    · -- The longer one of the two beginnings has the other one in it.
      rcases List.append_eq_append_iff.mp happend with ⟨us, rfl, -⟩ | ⟨us, rfl, hus⟩
      · rw [size_append] at hlo
        omega
      · cases us with
        | nil => simp at hlo
        | cons u us =>
          obtain ⟨rfl, -⟩ := List.cons.inj hus
          rw [size_append, size_cons] at hhi
          omega

end Scriptlet.Text
