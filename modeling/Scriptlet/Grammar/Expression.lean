/-
# The grammar of expressions

Every rule decides by the lookahead alone.  From the loosest to the tightest: assignments, which
group to the right; the levels of operators with two operands, which group to the left;
operators in front of an operand; and the primary expressions, among them the expressions in
parentheses, where it all begins again.

The rules are recursive, and each way back to the first rule leads through a token.  So a rule is
given a bound on the tokens that are left, and hands a smaller one on.  Where the bound is zero
no token is left, and every rule asks for an identifier.
-/
import Scriptlet.Binary64.Nearest
import Scriptlet.Decimal
import Scriptlet.Grammar.Level
import Scriptlet.Grammar.Session

namespace Scriptlet.Grammar

open Reading

/-! ## Literals and names -/

/-- A name. -/
def identifier : Reading String := return (← expect .identifier).value

/-- The double nearest to the number written with the given digits. -/
def digitsNumber (digits : String) : Binary64 := .nearest (digitsValue digits.toList) 1

/-- A number, which must not be beyond the largest double. -/
def numeric : Reading Expr := do
  let t ← expect .number
  let x := digitsNumber t.value
  if x.isFinite then return .number x else throw ⟨.tooLarge t.value, t.span.start⟩

/-- What stands between the quotes of a quoted text, without the blanks at its ends. -/
def unquote (s : String) : String := String.ofList (Text.trim s.toList.tail.dropLast)

/-- A quoted text. -/
def quotedText : Reading Expr := return .text (unquote (← expect .string).value)

/-- A literal. -/
def literal : Reading Expr := do
  match ← peek with
  | some .number => numeric
  | some .string => quotedText
  | some .trueWord => let _ ← expect .trueWord; return .bool true
  | some .falseWord => let _ ← expect .falseWord; return .bool false
  | some .nullWord => let _ ← expect .nullWord; return .null
  | _ =>
    let s ← get
    throw ⟨.notLiteral ((s.lookahead.map (·.value)).getD ""), s.position⟩

/-! ## Operands

In these rules `inner` is the rule for the expressions inside parentheses. -/

/-- An expression in parentheses. -/
def grouping (inner : Reading Expr) : Reading Expr := do
  let _ ← expect .openParen
  let e ← inner
  let _ ← expect .closeParen
  return e

/-- A literal, an expression in parentheses, or a name. -/
def primary (inner : Reading Expr) : Reading Expr := do
  match ← peek with
  | some .openParen => grouping inner
  | some k => if k.isLiteral then literal else .ident <$> identifier
  | none => .ident <$> identifier

/-- A primary expression with at most `n` operators in front of it. -/
def unary (inner : Reading Expr) : Nat → Reading Expr
  | 0 => primary inner
  | n + 1 => do
    match ← peek with
    | some .additive =>
      let operator ← expect .additive
      return .unary operator.value (← unary inner n)
    | some .logicalNot =>
      let operator ← expect .logicalNot
      return .unary operator.value (← unary inner n)
    | _ => primary inner

/-! ## Operators between operands -/

/-- Operands joined by at most `n` operators of a level, grouped to the left. -/
def chain (n : Nat) (level : Level) (operand : Reading Expr) : Reading Expr := do
  match level.operator? with
  | none => operand
  | some k =>
    let first ← operand
    repeatWhile (· == some k) (fun left => do
      let operator ← expect k
      return level.join operator.value left (← operand)) n first

/-- The expressions of a level: chains of the level over chains of the tighter levels. -/
def binary (inner : Reading Expr) (n : Nat) (level : Level) : Reading Expr :=
  (level :: level.tighter).foldr (chain n) (unary inner n)

/-- The name that an expression assigns to when `operator` follows it.  Only a name can be
assigned to. -/
def target (operator : Token) : Expr → Reading String
  | .ident name => return name
  | _ => throw ⟨.notAssignable, operator.span.start⟩

/-- An expression of the loosest level, or an assignment to a name. -/
def assignment (inner : Reading Expr) (n : Nat) : Reading Expr := do
  let left ← binary inner n .logicalOr
  match ← peek with
  | some k =>
    if k.isAssignment then
      let operator ← expect k
      let name ← target operator left
      return .assign operator.value name (← inner)
    else return left
  | none => return left

/-- An expression of at most `n` tokens. -/
def expression : Nat → Reading Expr
  | 0 => .ident <$> identifier
  | n + 1 => assignment (expression n) (n + 1)

end Scriptlet.Grammar
