/-
# The plain view of a tree

A tree as plain data: every node is an object with its type and its parts, and a part that is
missing is null.  A number that is a whole number of at most `2 ^ 53` is an integer, any other
finite number is a double, and what is not finite has no view but null.
-/
import Scriptlet.Tree.NodeType

namespace Scriptlet

/-- Plain data. -/
inductive Json where
  | null
  | bool (value : Bool)
  | int (value : Int)
  | double (value : Binary64)
  | str (value : String)
  | arr (items : List Json)
  | obj (fields : List (String × Json))
deriving Repr

namespace Json

/-- The object of a node of a type, with the given parts. -/
def node (type : NodeType) (fields : List (String × Json)) : Json :=
  obj (("type", str type.name) :: fields)

/-- The view of a number. -/
def ofNumber (x : Binary64) : Json :=
  match x.toInt? with
  | some n => int n
  | none => if x.isFinite then double x else null

/-- The node of a name. -/
def ofName (name : String) : Json := node .identifier [("name", str name)]

end Json

/-- The view of an expression. -/
def Expr.toJson : Expr → Json
  | assign operator name value =>
    .node .assignmentExpression
      [("operator", .str operator), ("left", .ofName name), ("right", value.toJson)]
  | logical operator left right =>
    .node .logicalExpression
      [("operator", .str operator), ("left", left.toJson), ("right", right.toJson)]
  | binary operator left right =>
    .node .binaryExpression
      [("operator", .str operator), ("left", left.toJson), ("right", right.toJson)]
  | unary operator argument =>
    .node .unaryExpression [("operator", .str operator), ("argument", argument.toJson)]
  | ident name => .ofName name
  | number value => .node .numericLiteral [("value", .ofNumber value)]
  | text value => .node .stringLiteral [("value", .str value)]
  | bool value => .node .booleanLiteral [("value", .bool value)]
  | null => .node .nullLiteral [("value", .null)]

/-- The view of a declaration. -/
def Declaration.toJson (d : Declaration) : Json :=
  .node .variableDeclaration
    [("id", .ofName d.name), ("init", (d.init.map Expr.toJson).getD .null)]

mutual

/-- The view of a statement. -/
def Stmt.toJson : Stmt → Json
  | expr expression => .node .expressionStatement [("expression", expression.toJson)]
  | block body => .node .blockStatement [("body", .arr (toJsons body))]
  | empty => .node .emptyStatement []
  | declare declarations =>
    .node .variableStatement [("declarations", .arr (declarations.map (·.toJson)))]
  | ifThen test consequent =>
    .node .ifStatement
      [("test", test.toJson), ("consequent", consequent.toJson), ("alternate", .null)]
  | ifElse test consequent alternate =>
    .node .ifStatement
      [("test", test.toJson), ("consequent", consequent.toJson), ("alternate", alternate.toJson)]

/-- The views of statements. -/
def Stmt.toJsons : List Stmt → List Json
  | [] => []
  | s :: body => s.toJson :: toJsons body

end

/-- The view of a program. -/
def Program.toJson (p : Program) : Json := .node .program [("body", .arr (Stmt.toJsons p.body))]

@[simp] theorem Stmt.toJsons_eq_map (body : List Stmt) :
    Stmt.toJsons body = body.map Stmt.toJson := by
  induction body with
  | nil => simp [Stmt.toJsons]
  | cons s body ih => simp [Stmt.toJsons, ih]

end Scriptlet
