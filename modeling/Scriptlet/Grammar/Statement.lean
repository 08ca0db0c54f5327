/-
# The grammar of statements

The first token of a statement decides which rule reads it.  An `else` belongs to the nearest
`if` before it that has none.  Like the rules of expressions, those of statements are given
a bound on the tokens that are left.
-/
import Scriptlet.Grammar.Expression

namespace Scriptlet.Grammar

open Reading

/-! ## Statements without statements in them -/

/-- A lone semicolon. -/
def emptyStatement : Reading Stmt := do
  let _ ← expect .semicolon
  return .empty

/-- An expression and a semicolon. -/
def expressionStatement (n : Nat) : Reading Stmt := do
  let e ← expression n
  let _ ← expect .semicolon
  return .expr e

/-- A name, with its first value if there is one. -/
def declaration (n : Nat) : Reading Declaration := do
  let name ← identifier
  match ← peek with
  | some .simpleAssign =>
    let _ ← expect .simpleAssign
    return ⟨name, some (← expression n)⟩
  | _ => return ⟨name, none⟩

/-- A `let` with one declaration or more, and a semicolon. -/
def declarations (n : Nat) : Reading Stmt := do
  let _ ← expect .letWord
  let first ← declaration n
  let ds ← repeatWhile (· == some .comma) (fun ds => do
    let _ ← expect .comma
    return ds.push (← declaration n)) n #[first]
  let _ ← expect .semicolon
  return .declare ds.toList

/-! ## Statements in statements

In these rules `inner` is the rule for the statements inside the statement. -/

/-- Statements up to the end of the source or up to a token of the kind `stop`. -/
def statements (inner : Reading Stmt) (n : Nat) (stop : Option Kind) : Reading (List Stmt) := do
  let body ← repeatWhile (fun k => k.isSome && k != stop) (fun body => do
    return body.push (← inner)) n #[]
  return body.toList

/-- Statements between curly brackets. -/
def block (inner : Reading Stmt) (n : Nat) : Reading Stmt := do
  let _ ← expect .openCurly
  let body ← statements inner n (some .closeCurly)
  let _ ← expect .closeCurly
  return .block body

/-- An `if` with the statement it guards, and the statement of its `else` if there is one. -/
def conditional (inner : Reading Stmt) (n : Nat) : Reading Stmt := do
  let _ ← expect .ifWord
  let _ ← expect .openParen
  let test ← expression n
  let _ ← expect .closeParen
  let consequent ← inner
  match ← peek with
  | some .elseWord =>
    let _ ← expect .elseWord
    return .ifElse test consequent (← inner)
  | _ => return .ifThen test consequent

/-- A statement of at most `n` tokens. -/
def statement : Nat → Reading Stmt
  | 0 => expressionStatement 0
  | n + 1 => do
    match ← peek with
    | some .semicolon => emptyStatement
    | some .ifWord => conditional (statement n) n
    | some .openCurly => block (statement n) n
    | some .letWord => declarations n
    | _ => expressionStatement (n + 1)

/-- A program of at most `n` tokens. -/
def program (n : Nat) : Reading Program := return ⟨← statements (statement n) n none⟩

end Scriptlet.Grammar
