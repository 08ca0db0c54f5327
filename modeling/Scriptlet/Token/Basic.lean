/-
# Tokens

A token is a classified stretch of source text.  Its value is the text itself, quotes and all;
its span says where in which source the text stands.
-/

namespace Scriptlet

/-- The name of a source that was given none. -/
def defaultFile : String := "shell"

/-- A place in a source: a byte offset, with the name of the source. -/
structure Position where
  /-- The number of bytes before the place. -/
  offset : Nat
  /-- The name of the source. -/
  file : String
deriving DecidableEq, Repr

/-- A stretch of a source. -/
structure Span where
  /-- The place of its first byte. -/
  start : Position
  /-- The place behind its last byte. -/
  stop : Position
deriving DecidableEq, Repr

/-- The classes of tokens. -/
inductive Kind where
  | number
  | string
  | identifier
  | semicolon
  | openCurly
  | closeCurly
  | openParen
  | closeParen
  | comma
  /-- The plain assignment `=`. -/
  | simpleAssign
  /-- An assignment that first computes: `+=`, `-=`, `*=`, `/=`. -/
  | complexAssign
  /-- One of `+`, `-`. -/
  | additive
  /-- One of `*`, `/`. -/
  | multiplicative
  /-- One of `<`, `<=`, `>`, `>=`. -/
  | relational
  /-- One of `==`, `!=`. -/
  | equality
  | logicalAnd
  | logicalOr
  | logicalNot
  | letWord
  | ifWord
  | elseWord
  | trueWord
  | falseWord
  | nullWord
deriving DecidableEq, Repr

namespace Kind

/-- The name of a kind in messages. -/
def label : Kind → String
  | number => "NUMBER"
  | string => "STRING"
  | identifier => "IDENTIFIER"
  | semicolon => ";"
  | openCurly => "\x7b"
  | closeCurly => "\x7d"
  | openParen => "("
  | closeParen => ")"
  | comma => ","
  | simpleAssign => "SIMPLE_ASSIGN"
  | complexAssign => "COMPLEX_ASSIGN"
  | additive => "ADDITIVE_OPERATOR"
  | multiplicative => "MULTIPLICATIVE_OPERATOR"
  | relational => "RELATIONAL_OPERATOR"
  | equality => "EQUALITY_OPERATOR"
  | logicalAnd => "LOGICAL_AND"
  | logicalOr => "LOGICAL_OR"
  | logicalNot => "LOGICAL_NOT"
  | letWord => "let"
  | ifWord => "if"
  | elseWord => "else"
  | trueWord => "true"
  | falseWord => "false"
  | nullWord => "null"

/-- Whether a token of this kind is a literal expression by itself. -/
def isLiteral : Kind → Bool
  | number | string | trueWord | falseWord | nullWord => true
  | _ => false

/-- Whether a token of this kind assigns to what stands before it. -/
def isAssignment : Kind → Bool
  | simpleAssign | complexAssign => true
  | _ => false

end Kind

/-- A classified stretch of source text. -/
structure Token where
  /-- Its class. -/
  kind : Kind
  /-- The text as it stands in the source. -/
  value : String
  /-- Where it stands. -/
  span : Span
deriving DecidableEq, Repr

/-- A token as messages show it. -/
def Token.describe (t : Token) : String := t.kind.label ++ " (" ++ t.value ++ ")"

/-- Messages show the kind of a token, and its text in parentheses. -/
theorem Token.describe_eq (t : Token) : t.describe = t.kind.label ++ " (" ++ t.value ++ ")" := rfl

end Scriptlet
