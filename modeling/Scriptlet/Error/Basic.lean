/-
# Errors

Why a source is refused, and where.  A cause carries the texts its message is made of; the words
of the message, the name of the cause and the advice that goes with it are given here once.
-/
import Scriptlet.Text.Character
import Scriptlet.Token.Basic

namespace Scriptlet

/-- The stage that finds an error. -/
inductive Phase where
  /-- Cutting the source into tokens. -/
  | lexical
  /-- Arranging the tokens by the grammar. -/
  | syntactic
deriving DecidableEq, Repr

/-- Why a source is refused. -/
inductive Cause where
  /-- No token begins with the character `text`. -/
  | unrecognised (text : String)
  /-- The token `text` stands where one of the kind `expected` has to. -/
  | unexpected (text expected : String)
  /-- The source ends where a token of the kind `expected` has to stand. -/
  | endOfInput (expected : String)
  /-- A literal was asked for, and `text` is none. -/
  | notLiteral (text : String)
  /-- What stands before an assignment operator cannot be assigned to. -/
  | notAssignable
  /-- The number written `digits` is beyond the largest double. -/
  | tooLarge (digits : String)
deriving DecidableEq, Repr

namespace Cause

/-- The name of a cause in reports. -/
def name : Cause → String
  | unrecognised _ => "UnrecognisedToken"
  | unexpected _ _ => "UnexpectedToken"
  | endOfInput _ => "UnexpectedEndOfInput"
  | notLiteral _ => "UnexpectedLiteral"
  | notAssignable => "InvalidAssignmentTarget"
  | tooLarge _ => "NumberParseError"

/-- A text between double quotes, as it is. -/
def inQuotes (s : String) : String := "\"" ++ s ++ "\""

/-- What a cause says. -/
def message : Cause → String
  | unrecognised text => "Unexpected token: " ++ inQuotes text
  | unexpected text expected =>
    "Unexpected token: " ++ inQuotes text ++ ", expected: " ++ inQuotes expected
  | endOfInput expected => "Unexpected end of input, expected: " ++ inQuotes expected
  | notLiteral _ => "Literal: unexpected literal production"
  | notAssignable => "Invalid left-hand side in assignment expression"
  | tooLarge digits => "error parsing number: " ++ String.ofList (Text.quoted digits.toList)

/-- The advice that goes with a cause. -/
def tip? : Cause → Option String
  | unexpected _ expected =>
    if expected = Kind.semicolon.label then some "did you miss a semicolon?" else none
  | endOfInput expected => some ("the source ended before `" ++ expected ++ "` was found")
  | notAssignable => some "only identifiers can be assigned to"
  | tooLarge digits =>
    some ("Invalid number: `" ++ digits ++ "`, is it above the numeric limit?")
  | unrecognised _ | notLiteral _ => none

/-- The stage that finds a cause. -/
def phase : Cause → Phase
  | unrecognised _ => .lexical
  | _ => .syntactic

/-- The source text a cause is about. -/
def text? : Cause → Option String
  | unrecognised text | unexpected text _ | notLiteral text | tooLarge text => some text
  | endOfInput _ | notAssignable => none

/-- The kind of token a cause asks for. -/
def expected? : Cause → Option String
  | unexpected _ expected | endOfInput expected => some expected
  | _ => none

/-- Only a syntax error asks for a token. -/
theorem phase_of_expected? {c : Cause} {wanted : String} (h : c.expected? = some wanted) :
    c.phase = .syntactic := by
  cases c with
  | unrecognised => cases h
  | _ => rfl

end Cause

/-- An error: a cause, and the place in the source where it was found. -/
structure Error where
  /-- Why the source is refused. -/
  cause : Cause
  /-- Where. -/
  position : Position
deriving DecidableEq, Repr

end Scriptlet
