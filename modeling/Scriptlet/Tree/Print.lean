/-
# Printing trees

The source text of a tree.  Every assignment and every operation with two operands is printed in
parentheses, so that the text shows how it groups; reading leaves the parentheses out again.
Statements of a program stand on lines of their own, those of a block on one line.
-/
import Scriptlet.Binary64.Shortest
import Scriptlet.Tree.Basic

namespace Scriptlet

/-- A text between quotes: double ones, unless there is one in the text. -/
def quoteText (s : String) : String :=
  let quote := if s.toList.contains '\x22' then "'" else "\""
  quote ++ s ++ quote

/-- An operation with its two operands, in parentheses. -/
def grouped (left operator right : String) : String :=
  "(" ++ left ++ " " ++ operator ++ " " ++ right ++ ")"

/-- The text of an expression. -/
def Expr.print : Expr → String
  | assign operator name value => grouped name operator value.print
  | logical operator left right => grouped left.print operator right.print
  | binary operator left right => grouped left.print operator right.print
  | unary operator argument => operator ++ argument.print
  | ident name => name
  | number value => value.text
  | text value => quoteText value
  | bool true => "true"
  | bool false => "false"
  | null => "null"

/-- The text of a declaration. -/
def Declaration.print (d : Declaration) : String :=
  match d.init with
  | none => d.name
  | some init => d.name ++ " = " ++ init.print

mutual

/-- The text of a statement. -/
def Stmt.print : Stmt → String
  | expr expression => expression.print ++ ";"
  | block [] => "\x7b\x7d"
  | block (s :: body) => "\x7b " ++ " ".intercalate (s.print :: printAll body) ++ " \x7d"
  | empty => ";"
  | declare declarations => "let " ++ ", ".intercalate (declarations.map (·.print)) ++ ";"
  | ifThen test consequent => "if (" ++ test.print ++ ") " ++ consequent.print
  | ifElse test consequent alternate =>
    "if (" ++ test.print ++ ") " ++ consequent.print ++ " else " ++ alternate.print

/-- The texts of statements. -/
def Stmt.printAll : List Stmt → List String
  | [] => []
  | s :: body => s.print :: printAll body

end

/-- The text of a program. -/
def Program.print (p : Program) : String := "\n".intercalate (Stmt.printAll p.body)

@[simp] theorem Stmt.printAll_eq_map (body : List Stmt) :
    Stmt.printAll body = body.map Stmt.print := by
  induction body with
  | nil => simp [Stmt.printAll]
  | cons s body ih => simp [Stmt.printAll, ih]

end Scriptlet
