/-
# Trees of the same value

Two trees are the same when they agree in everything but the bits of their numbers, which need
only have the same value: the two zeros are the same, and what is not a number is the same as
nothing.
-/
import Scriptlet.Tree.Basic

namespace Scriptlet

/-- Whether two expressions are the same. -/
def Expr.same : Expr → Expr → Bool
  | assign o n v, assign o' n' v' => o == o' && n == n' && v.same v'
  | logical o l r, logical o' l' r' => o == o' && l.same l' && r.same r'
  | binary o l r, binary o' l' r' => o == o' && l.same l' && r.same r'
  | unary o a, unary o' a' => o == o' && a.same a'
  | ident n, ident n' => n == n'
  | number x, number x' => x.same x'
  | text s, text s' => s == s'
  | bool b, bool b' => b == b'
  | null, null => true
  | _, _ => false

/-- Whether two declarations are the same. -/
def Declaration.same (d e : Declaration) : Bool :=
  d.name == e.name && match d.init, e.init with
    | none, none => true
    | some x, some y => x.same y
    | _, _ => false

/-- Whether two lists of declarations are the same. -/
def Declaration.allSame : List Declaration → List Declaration → Bool
  | [], [] => true
  | d :: ds, e :: es => d.same e && allSame ds es
  | _, _ => false

mutual

/-- Whether two statements are the same. -/
def Stmt.same : Stmt → Stmt → Bool
  | expr e, expr e' => e.same e'
  | block body, block body' => allSame body body'
  | empty, empty => true
  | declare ds, declare ds' => Declaration.allSame ds ds'
  | ifThen t c, ifThen t' c' => t.same t' && c.same c'
  | ifElse t c a, ifElse t' c' a' => t.same t' && c.same c' && a.same a'
  | _, _ => false

/-- Whether two lists of statements are the same. -/
def Stmt.allSame : List Stmt → List Stmt → Bool
  | [], [] => true
  | s :: body, s' :: body' => s.same s' && allSame body body'
  | _, _ => false

end

/-- Whether two programs are the same. -/
def Program.same (p q : Program) : Bool := Stmt.allSame p.body q.body

end Scriptlet
