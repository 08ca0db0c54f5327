/-
# Scanning with a free cursor

A scanner holds a source and a byte offset into it, which may be moved at will: past the end of
the source, or between the bytes of one character.  Where the offset is the beginning of a
character or the end, the scanner does what a cursor at that place does.  Past the end there is
nothing more to yield.  Inside a character there is no text to read, and `none` says so.

An offset is a machine word.  What a scan adds to it stays within the source, but a move by hand may
lead beyond the greatest word.  What becomes of such a sum is settled where the scanner runs, and
not here: it is refused, or it wraps around (`Overflow`).
-/
import Scriptlet.Token.Cursor

namespace Scriptlet

/-- What becomes of a sum of offsets that is beyond the greatest one. -/
inductive Overflow where
  /-- There is no sum. -/
  | refused
  /-- The sum begins again at zero. -/
  | wrapped
deriving DecidableEq, Repr

/-- The number of offsets. -/
def offsetLimit : Nat := Nat.pow 2 64

/-- The sum of two offsets. -/
def Overflow.add? (overflow : Overflow) (m n : Nat) : Option Nat :=
  if m + n < offsetLimit then some (m + n)
  else match overflow with
    | refused => none
    | wrapped => some ((m + n) % offsetLimit)

/-- A source and a byte offset into it. -/
structure Scanner where
  /-- The name of the source. -/
  file : String
  /-- The source. -/
  source : String
  /-- The byte offset. -/
  offset : Nat
deriving DecidableEq, Repr

namespace Scanner

/-- A scanner in front of a source. -/
def start (source : String) (file : Option String) : Scanner :=
  ⟨file.getD defaultFile, source, 0⟩

/-- The same scanner in front of another source. -/
def restart (s : Scanner) (source : String) : Scanner := { s with source, offset := 0 }

/-- Moves the offset `n` bytes on, wherever that is. -/
def advance? (s : Scanner) (overflow : Overflow) (n : Nat) : Option Scanner :=
  (overflow.add? s.offset n).map fun offset => { s with offset }

/-- Whether the end of the source is reached. -/
def atEnd (s : Scanner) : Bool := Text.bytes s.source ≤ s.offset

/-- The span of a text that stands at the offset. -/
def spanOf? (s : Scanner) (overflow : Overflow) (text : String) : Option Span :=
  (overflow.add? s.offset (Text.bytes text)).map fun stop => ⟨⟨s.offset, s.file⟩, ⟨stop, s.file⟩⟩

/-- The cursor at the offset, if that is the beginning of a character or the end. -/
def cursor? (s : Scanner) : Option Cursor :=
  (Text.from? s.offset s.source.toList).map (⟨s.offset, ·⟩)

/-- The text from the offset on. -/
def remainder? (s : Scanner) : Option String := s.cursor?.map fun c => String.ofList c.rest

/-- The character at the offset; at the end it is the null character. -/
def peek? (s : Scanner) : Option Char := s.cursor?.map fun c => c.rest.headD '\x00'

/-- The next thing the source holds, and the scanner behind it.  There is nothing at the end. -/
def next? (s : Scanner) : Option (Option (Except Error Token) × Scanner) :=
  if s.atEnd then some (none, s)
  else s.cursor?.map fun c =>
    let (item, d) := c.next s.file
    (item, { s with offset := d.offset })

/-- All that the source still holds, and the scanner behind it. -/
def drain? (s : Scanner) : Option (List (Except Error Token) × Scanner) :=
  if s.atEnd then some ([], s)
  else s.cursor?.map fun c =>
    let (items, d) := c.drain s.file
    (items, { s with offset := d.offset })

end Scanner

end Scriptlet
