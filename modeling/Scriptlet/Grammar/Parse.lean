/-
# Parsing

Reading whole sources: in a session, where one source may follow another, or by itself.
-/
import Scriptlet.Grammar.Rule
import Scriptlet.Tree.Print
import Scriptlet.Tree.Same

namespace Scriptlet

open Reading Grammar

/-- Reads a source from its beginning to its end. -/
def Reading.parse (source : String) : Reading Program := do
  load source
  let p ← withRoom program
  note (.parsed p.body.length)
  return p

/-- The tree of a source, or the first error in it. -/
def parse (source : String) (file : Option String) : Except Error Program :=
  ((Reading.parse source).runOn (.start file)).1

/-- The log of reading a source. -/
def parseLog (source : String) (file : Option String) : List Event :=
  ((Reading.parse source).runOn (.start file)).2.log.toList

/-- What becomes of a program that is printed and read again. -/
inductive Reparse where
  /-- It is the same program. -/
  | same
  /-- It is a different one. -/
  | different (p : Program)
  /-- It cannot be read. -/
  | refused (e : Error)
deriving Repr

/-- Prints a program and reads it again. -/
def Program.reparse (p : Program) : Reparse :=
  match parse p.print none with
  | .ok q => if p.same q then .same else .different q
  | .error e => .refused e

end Scriptlet
