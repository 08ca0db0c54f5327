/-
# Rules

The rules of the grammar by name.  In a session any rule may be asked for at any time, and reads
from the lookahead on.
-/
import Scriptlet.Grammar.Statement

namespace Scriptlet

/-- The rules that give an expression. -/
inductive ExprRule where
  | expression
  | assignment
  | binary (level : Level)
  | unary
  | primary
  | grouping
  | literal
  | numeric
  | text
deriving DecidableEq, Repr

/-- The rules that give a statement. -/
inductive StmtRule where
  | statement
  | empty
  | block
  | conditional
  | declarations
  | expression
deriving DecidableEq, Repr

/-- The rules of the grammar. -/
inductive Rule where
  | program
  | statements (stop : Option Kind)
  | statement (rule : StmtRule)
  | declaration
  | identifier
  | expression (rule : ExprRule)
deriving DecidableEq, Repr

open Reading Grammar

/-- Reads an expression by a rule. -/
def ExprRule.run : ExprRule → Reading Expr
  | expression => withRoom Grammar.expression
  | assignment => withRoom Grammar.expression
  | binary level => withRoom fun n => Grammar.binary (Grammar.expression n) n level
  | unary => withRoom fun n => Grammar.unary (Grammar.expression n) n
  | primary => withRoom fun n => Grammar.primary (Grammar.expression n)
  | grouping => withRoom fun n => Grammar.grouping (Grammar.expression n)
  | literal => Grammar.literal
  | numeric => Grammar.numeric
  | text => quotedText

/-- Reads a statement by a rule. -/
def StmtRule.run : StmtRule → Reading Stmt
  | statement => withRoom Grammar.statement
  | empty => emptyStatement
  | block => withRoom fun n => Grammar.block (Grammar.statement n) n
  | conditional => withRoom fun n => Grammar.conditional (Grammar.statement n) n
  | declarations => withRoom Grammar.declarations
  | expression => withRoom expressionStatement

/-- What a rule gives. -/
def Rule.Result : Rule → Type
  | program => Program
  | statements _ => List Stmt
  | statement _ => Stmt
  | declaration => Declaration
  | identifier => String
  | expression _ => Expr

/-- Reads by a rule, from the lookahead on. -/
def Rule.run : (rule : Rule) → Reading rule.Result
  | program => withRoom Grammar.program
  | statements stop => withRoom fun n => Grammar.statements (Grammar.statement n) n stop
  | statement rule => rule.run
  | declaration => withRoom Grammar.declaration
  | identifier => Grammar.identifier
  | expression rule => rule.run

end Scriptlet
