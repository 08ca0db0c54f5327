/-
# The table of tokens

The tokens of the language, as a table of patterns in the order in which they are tried: the
first row that matches decides.  The order matters where one row matches the beginning of what
another one matches: `==` stands before `=`, `+=` before `+`, `!=` before `!`, and numbers stand
before words, so that a word cannot begin with a digit.
-/
import Scriptlet.Token.Basic
import Scriptlet.Token.Pattern

namespace Scriptlet

/-! ## Words -/

/-- The words that are no identifiers. -/
def reservedWords : List (String × Kind) :=
  [("let", .letWord), ("if", .ifWord), ("else", .elseWord), ("true", .trueWord),
    ("false", .falseWord), ("null", .nullWord)]

/-- The kind of a reserved word. -/
def Kind.ofReserved? (word : String) : Option Kind := reservedWords.lookup word

/-- The kind of a word: its own if it is reserved, and otherwise that of identifiers. -/
def Kind.ofWord (word : String) : Kind := (ofReserved? word).getD .identifier

/-- Whether a character may stand in a word: `a` to `z`, `A` to `Z`, a digit or an underscore. -/
def isWordChar (c : Char) : Bool := c.isAlphanum || c == '_'

/-! ## Rows -/

/-- A row of the table. -/
structure Row where
  /-- The shape of the tokens of the row. -/
  pattern : Pattern
  /-- The kind of a token of the row, by its text. -/
  kind : String → Kind

/-- A row whose tokens are all of one kind. -/
def Row.always (pattern : Pattern) (kind : Kind) : Row := ⟨pattern, fun _ => kind⟩

/-- The tokens of the language, in the order in which they are tried. -/
def tokenTable : List Row :=
  [.always (.one (· == ';')) .semicolon,
    .always (.one (· == '\x7b')) .openCurly,
    .always (.one (· == '\x7d')) .closeCurly,
    .always (.one (· == '(')) .openParen,
    .always (.one (· == ')')) .closeParen,
    .always (.one (· == ',')) .comma,
    .always (.run Char.isDigit) .number,
    ⟨.run isWordChar, Kind.ofWord⟩,
    .always (.two ['=', '!'].contains '=') .equality,
    .always (.one (· == '=')) .simpleAssign,
    .always (.two ['*', '/', '+', '-'].contains '=') .complexAssign,
    .always (.one ['+', '-'].contains) .additive,
    .always (.one ['*', '/'].contains) .multiplicative,
    .always (.oneOrTwo ['<', '>'].contains '=') .relational,
    .always (.two (· == '&') '&') .logicalAnd,
    .always (.two (· == '|') '|') .logicalOr,
    .always (.one (· == '!')) .logicalNot,
    .always (.quoted '\x22') .string,
    .always (.quoted '\x27') .string]

/-! ## Lexemes -/

/-- The beginning of a text that forms a token, and what is behind it. -/
structure Lexeme where
  /-- The kind of the token. -/
  kind : Kind
  /-- The text of the token. -/
  text : List Char
  /-- What is behind it. -/
  rest : List Char
deriving DecidableEq, Repr

/-- The lexeme of a row at the beginning of a text. -/
def Row.lexeme? (row : Row) (cs : List Char) : Option Lexeme :=
  (row.pattern.split? cs).map fun (text, rest) => ⟨row.kind (String.ofList text), text, rest⟩

/-- The lexeme at the beginning of a text, by the first row of the table that matches. -/
def lexeme? (cs : List Char) : Option Lexeme := tokenTable.findSome? (·.lexeme? cs)

/-- A lexeme comes from a row of the table. -/
theorem exists_row_of_lexeme? {cs : List Char} {x : Lexeme} (h : lexeme? cs = some x) :
    ∃ row ∈ tokenTable, row.pattern.split? cs = some (x.text, x.rest) ∧
      x.kind = row.kind (String.ofList x.text) := by
  obtain ⟨row, hrow, h⟩ := List.exists_of_findSome?_eq_some h
  obtain ⟨⟨text, rest⟩, hsplit, rfl⟩ := Option.map_eq_some_iff.mp h
  exact ⟨row, hrow, hsplit, rfl⟩

/-- The text of a lexeme and what is behind it make up the text it was found in. -/
theorem append_of_lexeme? {cs : List Char} {x : Lexeme} (h : lexeme? cs = some x) :
    x.text ++ x.rest = cs := by
  obtain ⟨_, _, hsplit, _⟩ := exists_row_of_lexeme? h
  exact Pattern.append_of_split? hsplit

/-- The text of a lexeme is not empty. -/
theorem text_ne_nil_of_lexeme? {cs : List Char} {x : Lexeme} (h : lexeme? cs = some x) :
    x.text ≠ [] := by
  obtain ⟨_, _, hsplit, _⟩ := exists_row_of_lexeme? h
  exact Pattern.ne_nil_of_split? hsplit

/-- What is behind a lexeme is shorter than the text it was found in. -/
theorem length_lt_of_lexeme? {cs : List Char} {x : Lexeme} (h : lexeme? cs = some x) :
    x.rest.length < cs.length := by
  obtain ⟨_, _, hsplit, _⟩ := exists_row_of_lexeme? h
  exact Pattern.length_lt_of_split? hsplit

end Scriptlet
