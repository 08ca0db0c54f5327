/-
# Trees

The trees that programs of the language are read into.  Parentheses leave no trace in them.
Operators, names and texts are kept as strings, and any string may stand there: which trees come
from a source is a matter of the grammar, not of the type.
-/
import Scriptlet.Binary64.Basic

namespace Scriptlet

/-- An expression. -/
inductive Expr where
  /-- An assignment to a name, such as `x = 1` or `x += 1`. -/
  | assign (operator name : String) (value : Expr)
  /-- Two operands joined by `&&` or `||`. -/
  | logical (operator : String) (left right : Expr)
  /-- Two operands joined by any other operator. -/
  | binary (operator : String) (left right : Expr)
  /-- An operator in front of its operand. -/
  | unary (operator : String) (argument : Expr)
  /-- The value of a name. -/
  | ident (name : String)
  /-- A number. -/
  | number (value : Binary64)
  /-- A text, without its quotes. -/
  | text (value : String)
  /-- A truth value. -/
  | bool (value : Bool)
  /-- The value of no thing. -/
  | null
deriving DecidableEq, Repr

/-- The declaration of one name in a `let` statement. -/
structure Declaration where
  /-- The name. -/
  name : String
  /-- Its first value, if one is given. -/
  init : Option Expr
deriving DecidableEq, Repr

/-- A statement. -/
inductive Stmt where
  /-- An expression by itself. -/
  | expr (expression : Expr)
  /-- Statements between curly brackets. -/
  | block (body : List Stmt)
  /-- A lone semicolon. -/
  | empty
  /-- A `let` with its declarations. -/
  | declare (declarations : List Declaration)
  /-- An `if` without `else`. -/
  | ifThen (test : Expr) (consequent : Stmt)
  /-- An `if` with its `else`. -/
  | ifElse (test : Expr) (consequent alternate : Stmt)
deriving Repr

/-- A program: its statements in the order of the source. -/
structure Program where
  /-- The statements. -/
  body : List Stmt
deriving Repr

end Scriptlet
