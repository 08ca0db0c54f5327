/-
# The log of a parse

What is noted while a source is read: when reading begins and ends, every token that is scanned,
and every token that is consumed.
-/
import Scriptlet.Token.Basic

namespace Scriptlet

/-- Something that is noted while a source is read. -/
inductive Event where
  /-- Reading begins, on a source of so many bytes. -/
  | parsing (bytes : Nat) (file : String)
  /-- A token was scanned, and is the next one. -/
  | scanned (token : Token)
  /-- The next token was consumed. -/
  | consumed (token : Token)
  /-- Reading ends, with so many statements. -/
  | parsed (statements : Nat)
deriving DecidableEq, Repr

namespace Event

/-- How much detail an event is: reading as a whole, or its single tokens. -/
def severity : Event → String
  | parsing .. | parsed _ => "DEBUG"
  | scanned _ | consumed _ => "TRACE"

/-- A number in decimal digits. -/
def count (n : Nat) : String := String.ofList (Nat.toDigits 10 n)

/-- What an event says. -/
def message : Event → String
  | parsing bytes file => "parsing " ++ count bytes ++ " bytes from " ++ file
  | scanned token => "scanned " ++ token.describe ++ " at " ++ count token.span.start.offset
  | consumed token => "consumed " ++ token.describe
  | parsed statements => "parsed " ++ count statements ++ " top-level statements"

/-- The line of an event in the log. -/
def line (e : Event) : String := e.severity ++ " " ++ e.message

end Event

end Scriptlet
