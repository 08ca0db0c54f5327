/-
# Reports

A report shows an error together with the line of the source it was found in:

    Error: UnexpectedToken (Unexpected token: "5", expected: ";")
    -> shell
      |
    1 | let x 5;
      | ------^
      = help: did you miss a semicolon?

The line is shown without the spaces it begins with and without the blanks it ends in, and the
caret is moved to the left by as many places as there were spaces.  The bars and the caret are put
at the ends of fields, and there is a limit to how wide a field can be: where the caret is too far
to the right, there is no report.
-/
import Scriptlet.Error.Basic
import Scriptlet.Text.Line

namespace Scriptlet.Error

/-- The greatest width a field can be filled up to. -/
def widthLimit : Nat := 65535

/-- A sign at the end of a field of the given width. -/
def field? (width : Nat) (filler sign : Char) : Option String :=
  if width ≤ widthLimit then some (String.ofList ([sign].leftpad width filler)) else none

/-- The row of advice, if there is any. -/
def help? (e : Error) (width : Nat) : Option String :=
  match e.cause.tip? with
  | none => some ""
  | some tip => (field? width ' ' '=').map fun sign => "\n" ++ sign ++ " help: " ++ tip

/-- The report of an error found in `source`.  There is none if a field is too wide, or if the line
is cut between the bytes of one character. -/
def report? (e : Error) (source : String) : Option String := do
  let l := Text.lineAt source.toList e.position.offset
  let number := toString l.number
  let bar ← field? (number.length + 2) ' ' '|'
  let text ← Text.from? l.indent l.text
  let caret ← field? (l.offset - l.indent + 1) '-' '^'
  let help ← e.help? (number.length + 2)
  return "Error: " ++ e.cause.name ++ " (" ++ e.cause.message ++ ")\n-> " ++ e.position.file ++
    "\n" ++ bar ++ "\n" ++ number ++ " | " ++ String.ofList (Text.trimEnd text) ++ "\n" ++ bar ++
    " " ++ caret ++ help

end Scriptlet.Error
