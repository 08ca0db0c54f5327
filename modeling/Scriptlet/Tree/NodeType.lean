/-
# Types of nodes

Every node of a tree has a type, whose name stands in the plain view of the tree.
-/
import Scriptlet.Tree.Basic

namespace Scriptlet

/-- The types of the nodes of a tree. -/
inductive NodeType where
  | program
  | expressionStatement
  | blockStatement
  | emptyStatement
  | variableStatement
  | variableDeclaration
  | ifStatement
  | assignmentExpression
  | logicalExpression
  | binaryExpression
  | unaryExpression
  | identifier
  | numericLiteral
  | stringLiteral
  | booleanLiteral
  | nullLiteral
deriving DecidableEq, Repr

/-- The name of a type of nodes. -/
def NodeType.name : NodeType → String
  | program => "Program"
  | expressionStatement => "ExpressionStatement"
  | blockStatement => "BlockStatement"
  | emptyStatement => "EmptyStatement"
  | variableStatement => "VariableStatement"
  | variableDeclaration => "VariableDeclaration"
  | ifStatement => "IfStatement"
  | assignmentExpression => "AssignmentExpression"
  | logicalExpression => "LogicalExpression"
  | binaryExpression => "BinaryExpression"
  | unaryExpression => "UnaryExpression"
  | identifier => "Identifier"
  | numericLiteral => "NumericLiteral"
  | stringLiteral => "StringLiteral"
  | booleanLiteral => "BooleanLiteral"
  | nullLiteral => "NullLiteral"

/-- The type of an expression. -/
def Expr.nodeType : Expr → NodeType
  | assign .. => .assignmentExpression
  | logical .. => .logicalExpression
  | binary .. => .binaryExpression
  | unary .. => .unaryExpression
  | ident _ => .identifier
  | number _ => .numericLiteral
  | text _ => .stringLiteral
  | bool _ => .booleanLiteral
  | null => .nullLiteral

/-- The type of a declaration. -/
def Declaration.nodeType (_ : Declaration) : NodeType := .variableDeclaration

/-- The type of a statement. -/
def Stmt.nodeType : Stmt → NodeType
  | expr _ => .expressionStatement
  | block _ => .blockStatement
  | empty => .emptyStatement
  | declare _ => .variableStatement
  | ifThen .. | ifElse .. => .ifStatement

/-- The type of a program. -/
def Program.nodeType (_ : Program) : NodeType := .program

/-! ## Outlines -/

/-- The type of a statement, followed by the types of its parts: the expression of an expression
statement, the statements of a block, the declarations of a `let`. -/
def Stmt.outline (s : Stmt) : List NodeType :=
  s.nodeType :: match s with
    | expr expression => [expression.nodeType]
    | block body => body.map (·.nodeType)
    | declare declarations => declarations.map (·.nodeType)
    | empty | ifThen .. | ifElse .. => []

/-- The type of a program, followed by the outlines of its statements. -/
def Program.outline (p : Program) : List NodeType := p.nodeType :: p.body.flatMap Stmt.outline

end Scriptlet
