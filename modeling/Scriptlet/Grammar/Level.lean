/-
# Levels of binding

The operators with two operands bind at six levels.  The operands at one level are the
expressions of the next tighter one, down to the expressions without any such operator.
-/
import Scriptlet.Token.Basic
import Scriptlet.Tree.Basic

namespace Scriptlet

/-- The levels of binding, from the loosest to the tightest. -/
inductive Level where
  | logicalOr
  | logicalAnd
  | equality
  | relational
  | additive
  | multiplicative
  /-- Expressions that have no operator between operands. -/
  | unary
deriving DecidableEq, Repr

namespace Level

/-- The levels, from the loosest to the tightest. -/
def all : List Level :=
  [logicalOr, logicalAnd, equality, relational, additive, multiplicative, unary]

/-- How many levels are looser. -/
def rank : Level → Nat
  | logicalOr => 0
  | logicalAnd => 1
  | equality => 2
  | relational => 3
  | additive => 4
  | multiplicative => 5
  | unary => 6

/-- The kind of the operators of a level. -/
def operator? : Level → Option Kind
  | logicalOr => some .logicalOr
  | logicalAnd => some .logicalAnd
  | equality => some .equality
  | relational => some .relational
  | additive => some .additive
  | multiplicative => some .multiplicative
  | unary => none

/-- The next tighter level; there is none beyond the tightest. -/
def next : Level → Level
  | logicalOr => logicalAnd
  | logicalAnd => equality
  | equality => relational
  | relational => additive
  | additive => multiplicative
  | multiplicative => unary
  | unary => unary

/-- The levels that bind tighter than a level, from the loosest to the tightest. -/
def tighter (level : Level) : List Level := all.filter (level.rank < ·.rank)

/-- Whether the operators of a level combine truth values. -/
def isLogical : Level → Bool
  | logicalOr | logicalAnd => true
  | _ => false

/-- The tree of an operator of a level with its operands. -/
def join (level : Level) (operator : String) (left right : Expr) : Expr :=
  if level.isLogical then .logical operator left right else .binary operator left right

/-- Below a level with operators come the next level and what is below that. -/
theorem tighter_eq_next {level : Level} (h : level ≠ unary) :
    level.tighter = level.next :: level.next.tighter := by
  cases level <;> first | rfl | contradiction

@[simp] theorem tighter_unary : tighter unary = [] := rfl

end Level

end Scriptlet
