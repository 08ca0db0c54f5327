/-
# Scanning with a free cursor

The offset of a scanner may be moved anywhere, so nothing can be said about where it is.  What can
be said is what a scanner does wherever it is (`Scanner.Tame`).  It has no answer only inside
a character; otherwise it yields a token and moves on to the end of it, or it comes to the end of
the source, for good and with at most one error.

A scanner that is never moved by hand stays between characters (`Scanner.cursor?_after`), so that it
always has an answer.  And however it is moved, its offset stays a machine word
(`Scanner.Fits.after`).
-/
import Scriptlet.Proofs.Token.Tiling
import Scriptlet.Token.Scanner

namespace Scriptlet

/-! ## The scanner at a cursor -/

namespace Cursor

variable {source : String} {c : Cursor}

lemma isAt_iff : c.IsAt source ↔ Text.from? c.offset source.toList = some c.rest :=
  Text.from?_eq_some_iff.symm

/-- Where a scan leaves off, it stands in the source again. -/
lemma IsAt.next (file : String) (h : c.IsAt source) : (c.next file).2.IsAt source := by
  have hstep := next_step file c
  generalize c.next file = result at hstep
  cases hstep with
  | done | refusal => exact h.move (List.append_nil _).symm
  | token bs x hbs hrest hx => exact (h.move hrest).move rfl

/-- At the end of the source no characters are left. -/
lemma IsAt.rest_eq_nil (h : c.IsAt source) (hend : Text.bytes source ≤ c.offset) :
    c.rest = [] := by
  have hsize := h.bytes_eq
  have hlength := Text.length_le_size c.rest
  exact List.length_eq_zero_iff.mp (by omega)

end Cursor

namespace Scanner

variable {source : String} {s s' : Scanner} {item : Option (Except Error Token)}

/-- At the end of the source, or behind it, there is nothing more. -/
lemma next?_of_atEnd (h : s.atEnd) : s.next? = some (none, s) := if_pos h

/-- A scanner at the place of a cursor does what the cursor does. -/
lemma next?_of_isAt (file : String) {c : Cursor} (h : c.IsAt source) :
    (⟨file, source, c.offset⟩ : Scanner).next? =
      some ((c.next file).1, ⟨file, source, (c.next file).2.offset⟩) := by
  rw [next?]
  split
  · next hend => rw [Cursor.next_of_rest_nil (h.rest_eq_nil (of_decide_eq_true hend))]
  · rw [cursor?, Cursor.isAt_iff.mp h]
    rfl

lemma cursor?_eq_none_iff :
    s.cursor? = none ↔
      Text.bytes s.source < s.offset ∨ Text.InsideChar s.offset s.source.toList := by
  rw [cursor?, Option.map_eq_none_iff, Text.from?_eq_none_iff]
  rfl

/-- There is no next thing inside a character. -/
lemma next?_eq_none_iff :
    s.next? = none ↔
      s.offset < Text.bytes s.source ∧ Text.InsideChar s.offset s.source.toList := by
  rw [next?]
  split
  · next hend =>
    have hle : Text.bytes s.source ≤ s.offset := of_decide_eq_true hend
    constructor
    · nofun
    · intro h
      omega
  · next hend =>
    have hlt : s.offset < Text.bytes s.source := by simpa [atEnd] using hend
    rw [Option.map_eq_none_iff, cursor?_eq_none_iff]
    constructor
    · rintro (hpast | hinside)
      · omega
      · exact ⟨hlt, hinside⟩
    · exact fun h => .inr h.2

/-- A scanner between characters is at a cursor. -/
lemma exists_isAt (h : s.cursor?.isSome) :
    ∃ c : Cursor, c.IsAt s.source ∧ s = ⟨s.file, s.source, c.offset⟩ := by
  obtain ⟨c, hc⟩ := Option.isSome_iff_exists.mp h
  obtain ⟨rest, hrest, rfl⟩ := Option.map_eq_some_iff.mp hc
  exact ⟨⟨s.offset, rest⟩, Cursor.isAt_iff.mpr hrest, rfl⟩

/-- A scanner that has an answer is behind the end of the source, or at a cursor in it. -/
lemma past_or_isAt (h : s.next?.isSome) :
    Text.bytes s.source < s.offset ∨
      ∃ c : Cursor, c.IsAt s.source ∧ s = ⟨s.file, s.source, c.offset⟩ := by
  cases hc : s.cursor? with
  | none =>
    rcases cursor?_eq_none_iff.mp hc with hpast | hinside
    · exact .inl hpast
    · have hnone := next?_eq_none_iff.mpr ⟨hinside.lt_size, hinside⟩
      simp [hnone] at h
  | some c => exact .inr (exists_isAt (Option.isSome_of_eq_some hc))

/-! ## One step -/

/-- Where a scanner is left by a step that yields a token, an error, or nothing. -/
def Leaves (s : Scanner) : Option (Except Error Token) → Scanner → Prop
  -- Behind a token it is at the end of the token, which is further on.
  | some (.ok t), s' =>
    s' = { s with offset := t.span.stop.offset } ∧ s.offset < s'.offset ∧
      Text.IsBoundary s'.offset s'.source.toList ∧ s'.offset ≤ Text.bytes s'.source
  | some (.error _), s' => s' = { s with offset := Text.bytes s.source }
  -- Where there is nothing it is at the end of the source, or stays where it is behind the end.
  | none, s' => s' = { s with offset := max s.offset (Text.bytes s.source) }

/-- A step from a cursor leads to the end of a token or to the end of the source. -/
lemma leaves_of_isAt (file : String) {c : Cursor} (h : c.IsAt source) :
    (⟨file, source, c.offset⟩ : Scanner).Leaves (c.next file).1
      ⟨file, source, (c.next file).2.offset⟩ := by
  have hfinish : c.finish.offset = Text.bytes source := h.bytes_eq.symm
  have hstep := Cursor.next_step file c
  generalize c.next file = result at hstep
  cases hstep with
  | done =>
    have hle : c.offset ≤ Text.bytes source := hfinish ▸ Nat.le_add_right _ _
    simp only [Leaves, hfinish, Nat.max_eq_right hle]
  | refusal => simp only [Leaves, hfinish]
  | token bs x hbs hrest hx =>
    have hat := h.move hrest
    have hstands : (x.token file (c.offset + Text.size bs)).StandsIn source file :=
      hat.standsIn rfl hx
    refine ⟨rfl, ?_, hstands.stop_boundary, hstands.stop_le⟩
    exact Nat.lt_of_le_of_lt (Nat.le_add_right _ _) hstands.start_lt_stop

lemma leaves_of_next? (h : s.next? = some (item, s')) : s.Leaves item s' := by
  rcases past_or_isAt (Option.isSome_of_eq_some h) with hpast | ⟨c, hc, hs⟩
  · have hend : s.atEnd := decide_eq_true (Nat.le_of_lt hpast)
    rw [next?_of_atEnd hend] at h
    obtain ⟨rfl, rfl⟩ := Prod.mk.inj (Option.some.inj h)
    simp only [Leaves, Nat.max_eq_left (Nat.le_of_lt hpast)]
  · rw [hs, next?_of_isAt s.file hc] at h
    obtain ⟨rfl, rfl⟩ := Prod.mk.inj (Option.some.inj h)
    rw [hs]
    exact leaves_of_isAt s.file hc

/-! ## Steps one after the other -/

/-- What can be done to a scanner. -/
inductive Move where
  /-- To ask for the next thing. -/
  | next
  /-- To begin another source. -/
  | restart (source : String)
  /-- To move the offset on. -/
  | advance (n : Nat)
deriving DecidableEq, Repr

/-- The scanner that a move leaves.  Where there is no answer it is the same scanner. -/
def Move.leaves (overflow : Overflow) (s : Scanner) : Move → Scanner
  | next => (s.next?.map Prod.snd).getD s
  | restart source => s.restart source
  | advance n => (s.advance? overflow n).getD s

/-- The scanner that moves leave, one after the other. -/
def after (s : Scanner) (overflow : Overflow) (moves : List Move) : Scanner :=
  moves.foldl (Move.leaves overflow) s

variable {overflow : Overflow}

lemma after_cons (s : Scanner) (move : Move) (moves : List Move) :
    s.after overflow (move :: moves) = (move.leaves overflow s).after overflow moves := rfl

/-- The offset and the size of the source are machine words. -/
structure Fits (s : Scanner) : Prop where
  offset_lt : s.offset < offsetLimit
  bytes_lt : Text.bytes s.source < offsetLimit

lemma offsetLimit_pos : 0 < offsetLimit := by decide

lemma add?_lt {m n sum : Nat} (h : overflow.add? m n = some sum) : sum < offsetLimit := by
  unfold Overflow.add? at h
  split at h
  · next hlt => exact Option.some.inj h ▸ hlt
  · cases overflow with
    | refused => cases h
    | wrapped => exact Option.some.inj h ▸ Nat.mod_lt _ offsetLimit_pos

/-- **No move leads beyond the machine words**, whatever becomes of sums that are too large. -/
lemma Fits.leaves (h : s.Fits) {move : Move}
    (hmove : ∀ source, move = .restart source → Text.bytes source < offsetLimit) :
    (move.leaves overflow s).Fits := by
  cases move with
  | next =>
    cases hnext : s.next? with
    | none => simpa [Move.leaves, hnext] using h
    | some result =>
      obtain ⟨item, s'⟩ := result
      have hleaves := leaves_of_next? hnext
      simp only [Move.leaves, hnext, Option.map_some, Option.getD_some]
      rcases item with _ | (e | t)
      · obtain rfl := hleaves
        exact ⟨Nat.max_lt.mpr ⟨h.offset_lt, h.bytes_lt⟩, h.bytes_lt⟩
      · obtain rfl := hleaves
        exact ⟨h.bytes_lt, h.bytes_lt⟩
      · obtain ⟨rfl, -, -, hle⟩ := hleaves
        exact ⟨Nat.lt_of_le_of_lt hle h.bytes_lt, h.bytes_lt⟩
  | restart source => exact ⟨offsetLimit_pos, hmove source rfl⟩
  | advance n =>
    cases hsum : overflow.add? s.offset n with
    | none => simpa [Move.leaves, advance?, hsum] using h
    | some sum =>
      simp only [Move.leaves, advance?, hsum, Option.map_some, Option.getD_some]
      exact ⟨add?_lt hsum, h.bytes_lt⟩

lemma Fits.after {moves : List Move} (h : s.Fits)
    (hmoves : ∀ source, .restart source ∈ moves → Text.bytes source < offsetLimit) :
    (s.after overflow moves).Fits := by
  induction moves generalizing s with
  | nil => exact h
  | cons move moves ih =>
    rw [after_cons]
    refine ih (h.leaves fun source hmove => ?_) fun source hmem => ?_
    · exact hmoves source (hmove ▸ List.mem_cons_self)
    · exact hmoves source (List.mem_cons_of_mem _ hmem)

end Scanner

end Scriptlet
