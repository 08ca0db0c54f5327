/-
# Lines of a source

A report about a position shows the line it is on.  A line is a stretch of text up to and
including the next newline; the last line of a source may lack one.  A position at the end of
the source, or past it, is on the last line, behind its content; if the source ends in a
newline, that last line is the empty one behind it.
-/
import Scriptlet.Text.Utf8

namespace Scriptlet.Text

/-- A line of a source together with a place in it. -/
structure Line where
  /-- The number of the line, counted from one. -/
  number : Nat
  /-- The text of the line, its newline included. -/
  text : List Char
  /-- How many bytes into the line the place is. -/
  offset : Nat
deriving DecidableEq, Repr

/-- The number of spaces a line begins with. -/
def Line.indent (l : Line) : Nat := (l.text.takeWhile (· = ' ')).length

/-- The lines of `c` followed by a text with the lines `ls`. -/
def attach (c : Char) (ls : List (List Char)) : List (List Char) :=
  if c = '\n' then [c] :: ls
  else match ls with
    | [] => [[c]]
    | l :: ls => (c :: l) :: ls

/-- The lines of a text, each with its newline. -/
def lines (cs : List Char) : List (List Char) := cs.foldr attach []

/-- The place `pos` bytes into the lines `ls`, of which the first has the given number.  It is
on the first line that reaches beyond it; a line without a newline is the last one, and holds
also the place at its end. -/
def placeIn (number pos : Nat) : List (List Char) → Line
  | [] => ⟨number, [], 0⟩
  | l :: ls =>
    if pos < size l ∨ l.getLast? ≠ some '\n' then ⟨number, l, pos⟩
    else placeIn (number + 1) (pos - size l) ls

/-- The line of `source` that the byte position `pos` is on.  A position behind the end counts
as the end. -/
def lineAt (source : List Char) (pos : Nat) : Line :=
  placeIn 1 (min pos (size source)) (lines source)

/-! ## The lines make up the text -/

@[simp] theorem lines_nil : lines [] = [] := rfl

@[simp] theorem lines_cons (c : Char) (cs : List Char) :
    lines (c :: cs) = attach c (lines cs) := rfl

theorem flatten_attach (c : Char) (ls : List (List Char)) :
    (attach c ls).flatten = c :: ls.flatten := by
  unfold attach
  split
  · simp
  · cases ls <;> simp

/-- No text is lost or added by cutting it into lines. -/
@[simp] theorem flatten_lines (cs : List Char) : (lines cs).flatten = cs := by
  induction cs with
  | nil => rfl
  | cons c cs ih => rw [lines_cons, flatten_attach, ih]

end Scriptlet.Text
