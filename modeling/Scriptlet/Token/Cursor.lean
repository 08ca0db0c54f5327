/-
# Scanning

A cursor stands somewhere in a source, always between two characters: it knows how many bytes
are before it and which characters are after it.  `Cursor.next` skips blanks and yields what
comes then: the next token, an error where no token begins, or nothing at the end.  After an
error the cursor is at the end of the source, so that nothing more is yielded.
-/
import Scriptlet.Error.Basic
import Scriptlet.Text.Character
import Scriptlet.Text.Utf8
import Scriptlet.Token.Table

namespace Scriptlet

/-- A place between the characters of a source. -/
structure Cursor where
  /-- The number of bytes before the place. -/
  offset : Nat
  /-- The characters after it. -/
  rest : List Char
deriving DecidableEq, Repr

namespace Cursor

/-- The place in front of a text. -/
def start (source : List Char) : Cursor := ⟨0, source⟩

/-- The place behind the blanks that follow. -/
def skipBlanks (c : Cursor) : Cursor :=
  ⟨c.offset + Text.size (c.rest.takeWhile Text.isBlank), c.rest.dropWhile Text.isBlank⟩

/-- The place at the end of the source. -/
def finish (c : Cursor) : Cursor := ⟨c.offset + Text.size c.rest, []⟩

/-- What stands at the place itself: the next token or an error, with the place to go on from. -/
def read (file : String) (c : Cursor) : Option (Except Error Token) × Cursor :=
  match c.rest with
  | [] => (none, c)
  | ch :: _ =>
    let here : Position := ⟨c.offset, file⟩
    match lexeme? c.rest with
    | some x =>
      let after := c.offset + Text.size x.text
      (some (.ok ⟨x.kind, String.ofList x.text, ⟨here, ⟨after, file⟩⟩⟩), ⟨after, x.rest⟩)
    | none => (some (.error ⟨.unrecognised (String.singleton ch), here⟩), c.finish)

/-- The next thing the source holds: a token, an error, or nothing once only blanks are left. -/
def next (file : String) (c : Cursor) : Option (Except Error Token) × Cursor :=
  c.skipBlanks.read file

/-! ## Progress -/

theorem length_rest_skipBlanks_le (c : Cursor) :
    c.skipBlanks.rest.length ≤ c.rest.length :=
  (List.dropWhile_suffix Text.isBlank).length_le

/-- Whatever is read is taken off the rest. -/
theorem length_rest_read_lt {file : String} {c d : Cursor} {item : Except Error Token}
    (h : c.read file = (some item, d)) : d.rest.length < c.rest.length := by
  unfold read at h
  split at h
  · simp at h
  · next ch cs hrest =>
    split at h
    · next x hx =>
      obtain ⟨-, rfl⟩ := Prod.mk.inj h
      exact length_lt_of_lexeme? hx
    · obtain ⟨-, rfl⟩ := Prod.mk.inj h
      simp [finish, hrest]

/-- Whatever comes next is taken off the rest. -/
theorem length_rest_next_lt {file : String} {c d : Cursor} {item : Except Error Token}
    (h : c.next file = (some item, d)) : d.rest.length < c.rest.length :=
  Nat.lt_of_lt_of_le (length_rest_read_lt h) (length_rest_skipBlanks_le c)

/-! ## All that is left -/

/-- All that the source still holds from a place on, and the place it ends at. -/
def drain (file : String) (c : Cursor) : List (Except Error Token) × Cursor :=
  match h : c.next file with
  | (none, d) => ([], d)
  | (some item, d) =>
    have : d.rest.length < c.rest.length := length_rest_next_lt h
    let (items, last) := drain file d
    (item :: items, last)
termination_by c.rest.length

end Cursor

/-- The tokens of a source, or the first error in it. -/
def tokenize (source : String) (file : Option String) : Except Error (List Token) :=
  ((Cursor.start source.toList).drain (file.getD defaultFile)).1.mapM id

end Scriptlet
