/-
# The texts of tokens

Which texts the tokens of each kind have (`Kind.Spells`), and which token a text begins with.  The
first goes from a lexeme to its text and the second from a text to its lexeme; between them they
say all that the rest of the theory needs to know about the table of tokens.
-/
import Mathlib
import Scriptlet.Text.Character
import Scriptlet.Token.Table

namespace Scriptlet

/-! ## Characters -/

lemma isDigit_iff {c : Char} : c.isDigit ↔ 48 ≤ c.toNat ∧ c.toNat ≤ 57 := by
  simp [Char.isDigit, UInt32.le_iff_toNat_le]

lemma isWordChar_iff {c : Char} :
    isWordChar c ↔ (48 ≤ c.toNat ∧ c.toNat ≤ 57) ∨ (65 ≤ c.toNat ∧ c.toNat ≤ 90) ∨
      (97 ≤ c.toNat ∧ c.toNat ≤ 122) ∨ c.toNat = 95 := by
  have hunderscore : c = '_' ↔ c.toNat = 95 := by
    rw [← Char.toNat_inj]
    rfl
  simp [isWordChar, Char.isAlphanum, Char.isAlpha, Char.isUpper, Char.isLower, Char.isDigit,
    UInt32.le_iff_toNat_le, hunderscore]
  omega

lemma isWordChar_of_isDigit {c : Char} (h : c.isDigit) : isWordChar c :=
  isWordChar_iff.mpr (.inl (isDigit_iff.mp h))

lemma not_isBlank_of_isWordChar {c : Char} (h : isWordChar c) : Text.isBlank c = false := by
  rw [isWordChar_iff] at h
  simp [Text.isBlank, Text.blank, Text.Ranges.has]
  omega

lemma beq_eq_false_of_class {p : Char → Bool} {c d : Char} (hc : p c) (hd : p d = false) :
    (c == d) = false := by
  rw [beq_eq_false_iff_ne]
  rintro rfl
  simp [hc] at hd

/-- A run of characters of a class ends before a character of another one. -/
lemma span_append {p : Char → Bool} {cs : List Char} (hcs : ∀ c ∈ cs, p c) (rest : List Char)
    (hrest : ∀ c, rest.head? = some c → p c = false) :
    (cs ++ rest).takeWhile p = cs ∧ (cs ++ rest).dropWhile p = rest := by
  rw [List.takeWhile_append_of_pos hcs, List.dropWhile_append_of_pos hcs]
  cases rest with
  | nil => simp
  | cons c rest =>
    have hc := hrest c rfl
    simp [hc]

/-! ## Spellings -/

/-- Whether a text is a name: a word that does not begin with a digit and is not reserved. -/
def isName (s : String) : Bool :=
  match s.toList with
  | [] => false
  | c :: cs =>
    (c.isAlpha || c == '_') && cs.all (fun d => d.isAlphanum || d == '_') &&
      !List.contains ["let", "if", "else", "true", "false", "null"] s

/-- The texts of the kinds that have only finitely many. -/
def Kind.texts : Kind → List String
  | number | string | identifier => []
  | semicolon => [";"]
  | openCurly => ["\x7b"]
  | closeCurly => ["\x7d"]
  | openParen => ["("]
  | closeParen => [")"]
  | comma => [","]
  | simpleAssign => ["="]
  | complexAssign => ["+=", "-=", "*=", "/="]
  | additive => ["+", "-"]
  | multiplicative => ["*", "/"]
  | relational => ["<", "<=", ">", ">="]
  | equality => ["==", "!="]
  | logicalAnd => ["&&"]
  | logicalOr => ["||"]
  | logicalNot => ["!"]
  | letWord => ["let"]
  | ifWord => ["if"]
  | elseWord => ["else"]
  | trueWord => ["true"]
  | falseWord => ["false"]
  | nullWord => ["null"]

/-- The quotes that a quoted text may stand in. -/
def isQuote (q : Char) : Prop := q = '\x22' ∨ q = '\x27'

/-- Which texts the tokens of a kind have. -/
def Kind.Spells (k : Kind) (s : String) : Prop :=
  match k with
  | number => s.toList ≠ [] ∧ ∀ c ∈ s.toList, c.isDigit
  | string => ∃ q inner, isQuote q ∧ q ∉ inner ∧ s.toList = q :: inner ++ [q]
  | identifier => isName s
  | k => s ∈ k.texts

/-! ## What a pattern matches -/

namespace Pattern

/-- Whether a match of a pattern may begin with a character. -/
def starts : Pattern → Char → Bool
  | one p, c | run p, c | two p _, c | oneOrTwo p _, c => p c
  | quoted q, c => c == q

lemma split?_eq_none_of_starts {pattern : Pattern} {c : Char} (h : pattern.starts c = false)
    (cs : List Char) : pattern.split? (c :: cs) = none := by
  cases pattern with
  | one p | run p | oneOrTwo p d => simp_all [starts, split?]
  | two p d => cases cs <;> simp_all [starts, split?]
  | quoted q => simp_all [starts, split?]

variable {p : Char → Bool} {d q : Char} {cs m r : List Char}

lemma split?_one (h : (one p).split? cs = some (m, r)) : ∃ c, p c ∧ m = [c] := by
  cases cs with
  | nil => simp [split?] at h
  | cons c cs =>
    simp only [split?, Option.ite_none_right_eq_some, Option.some.injEq, Prod.mk.injEq] at h
    exact ⟨c, h.1, h.2.1.symm⟩

lemma split?_two (h : (two p d).split? cs = some (m, r)) : ∃ c, p c ∧ m = [c, d] := by
  rcases cs with _ | ⟨c, _ | ⟨e, cs⟩⟩
  · simp [split?] at h
  · simp [split?] at h
  · simp only [split?, Option.ite_none_right_eq_some, Option.some.injEq, Prod.mk.injEq] at h
    obtain ⟨⟨hc, rfl⟩, rfl, -⟩ := h
    exact ⟨c, hc, rfl⟩

lemma split?_oneOrTwo (h : (oneOrTwo p d).split? cs = some (m, r)) :
    ∃ c, p c ∧ (m = [c] ∨ m = [c, d]) := by
  rcases cs with _ | ⟨c, _ | ⟨e, cs⟩⟩
  · simp [split?] at h
  · simp only [split?, Option.ite_none_right_eq_some, Option.some.injEq, Prod.mk.injEq] at h
    exact ⟨c, h.1, .inl h.2.1.symm⟩
  · simp only [split?, Option.ite_none_right_eq_some] at h
    obtain ⟨hc, h⟩ := h
    split at h
    · next he =>
      obtain ⟨rfl, -⟩ := Prod.mk.inj (Option.some.inj h)
      exact ⟨c, hc, .inr (by rw [he])⟩
    · obtain ⟨rfl, -⟩ := Prod.mk.inj (Option.some.inj h)
      exact ⟨c, hc, .inl rfl⟩

lemma split?_run (h : (run p).split? cs = some (m, r)) :
    ∃ c ds, cs = c :: ds ∧ p c ∧ m = c :: ds.takeWhile p := by
  cases cs with
  | nil => simp [split?] at h
  | cons c cs =>
    simp only [split?, Option.ite_none_right_eq_some, Option.some.injEq, Prod.mk.injEq] at h
    exact ⟨c, cs, rfl, h.1, h.2.1.symm⟩

lemma split?_quoted (h : (quoted q).split? cs = some (m, r)) :
    ∃ inner, q ∉ inner ∧ m = q :: inner ++ [q] := by
  cases cs with
  | nil => simp [split?] at h
  | cons c cs =>
    simp only [split?, Option.ite_none_right_eq_some] at h
    obtain ⟨rfl, h⟩ := h
    split at h
    · simp at h
    · next e ds hd =>
      obtain ⟨rfl, -⟩ := Prod.mk.inj (Option.some.inj h)
      have he : e = c := by
        have hhead := List.head?_dropWhile_not (fun x => decide (x ≠ c)) cs
        simpa only [hd, List.head?_cons, decide_eq_false_iff_not, Decidable.not_not] using hhead
      subst he
      refine ⟨cs.takeWhile (· ≠ e), ?_, rfl⟩
      intro hmem
      have hall := List.all_eq_true.mp List.all_takeWhile e hmem
      simp at hall

end Pattern

/-! ## The lexeme a text begins with -/

/-- The rows of the table whose tokens may begin with a character. -/
def candidates (c : Char) : List Row := tokenTable.filter (·.pattern.starts c)

/-- The other rows need not be tried. -/
lemma lexeme?_cons (c : Char) (cs : List Char) :
    lexeme? (c :: cs) = (candidates c).findSome? (·.lexeme? (c :: cs)) := by
  rw [lexeme?, candidates]
  induction tokenTable with
  | nil => rfl
  | cons row rows ih =>
    cases hrow : row.pattern.starts c with
    | true => simp only [List.filter_cons, hrow, ↓reduceIte, List.findSome?_cons, ih]
    | false =>
      have hnone : row.lexeme? (c :: cs) = none := by
        rw [Row.lexeme?, Pattern.split?_eq_none_of_starts hrow, Option.map_none]
      rw [List.filter_cons_of_neg (by simp [hrow]), List.findSome?_cons, hnone, ih]

lemma lexeme?_digit {c : Char} (h : c.isDigit) (cs : List Char) :
    lexeme? (c :: cs) =
      some ⟨.number, c :: cs.takeWhile Char.isDigit, cs.dropWhile Char.isDigit⟩ := by
  have hne {d : Char} (hd : d.isDigit = false) : (c == d) = false := beq_eq_false_of_class h hd
  simp only [lexeme?, tokenTable, List.findSome?_cons, Row.lexeme?, Row.always, Pattern.split?,
    hne (d := ';') rfl, hne (d := '\x7b') rfl, hne (d := '\x7d') rfl, hne (d := '(') rfl,
    hne (d := ')') rfl, hne (d := ',') rfl, h]
  rfl

lemma lexeme?_word {c : Char} (h : isWordChar c) (hdigit : c.isDigit = false) (cs : List Char) :
    lexeme? (c :: cs) =
      some ⟨Kind.ofWord (String.ofList (c :: cs.takeWhile isWordChar)),
        c :: cs.takeWhile isWordChar, cs.dropWhile isWordChar⟩ := by
  have hne {d : Char} (hd : isWordChar d = false) : (c == d) = false :=
    beq_eq_false_of_class h hd
  simp only [lexeme?, tokenTable, List.findSome?_cons, Row.lexeme?, Row.always, Pattern.split?,
    hne (d := ';') rfl, hne (d := '\x7b') rfl, hne (d := '\x7d') rfl, hne (d := '(') rfl,
    hne (d := ')') rfl, hne (d := ',') rfl, hdigit, h]
  rfl

/-- Only quoted texts begin with a quote. -/
lemma candidates_of_isQuote {q : Char} (hq : isQuote q) :
    candidates q = [.always (.quoted q) .string] := by
  rcases hq with rfl | rfl <;> rfl

/-- A quoted text up to its closing quote. -/
lemma lexeme?_quoted {q : Char} (hq : isQuote q) {inner : List Char} (hinner : q ∉ inner)
    (cs : List Char) :
    lexeme? (q :: inner ++ q :: cs) = some ⟨.string, q :: inner ++ [q], cs⟩ := by
  have hall : ∀ c ∈ inner, decide (c ≠ q) = true := by
    intro c hc
    rw [decide_eq_true_eq]
    rintro rfl
    exact hinner hc
  obtain ⟨htake, hdrop⟩ := span_append hall (q :: cs) (by simp)
  have hsplit : (Pattern.quoted q).split? (q :: (inner ++ q :: cs)) =
      some (q :: inner ++ [q], cs) := by
    rw [Pattern.split?, if_pos rfl, hdrop, htake]
  rw [List.cons_append, lexeme?_cons, candidates_of_isQuote hq, List.findSome?_cons, Row.lexeme?,
    Row.always, hsplit]
  rfl

/-- A character of a class before anything but `=`. -/
lemma split?_two_eq_none {p : Char → Bool} {c : Char} {cs : List Char}
    (hcs : cs.head? ≠ some '=') : (Pattern.two p '=').split? (c :: cs) = none := by
  cases cs with
  | nil => rfl
  | cons e cs =>
    rw [Pattern.split?, if_neg]
    rintro ⟨-, rfl⟩
    exact hcs rfl

/-- A sign in front of an operand, which does not begin with `=`. -/
lemma lexeme?_sign {cs : List Char} (hcs : cs.head? ≠ some '=') :
    lexeme? ('+' :: cs) = some ⟨.additive, ['+'], cs⟩ ∧
      lexeme? ('-' :: cs) = some ⟨.additive, ['-'], cs⟩ ∧
      lexeme? ('!' :: cs) = some ⟨.logicalNot, ['!'], cs⟩ := by
  have hnone (p : Char → Bool) (k : Kind) (c : Char) :
      (Row.always (.two p '=') k).lexeme? (c :: cs) = none := by
    rw [Row.lexeme?, Row.always, split?_two_eq_none hcs, Option.map_none]
  have hplus : candidates '+' =
      [.always (.two ['*', '/', '+', '-'].contains '=') .complexAssign,
        .always (.one ['+', '-'].contains) .additive] := rfl
  have hminus : candidates '-' =
      [.always (.two ['*', '/', '+', '-'].contains '=') .complexAssign,
        .always (.one ['+', '-'].contains) .additive] := rfl
  have hnot : candidates '!' =
      [.always (.two ['=', '!'].contains '=') .equality,
        .always (.one (· == '!')) .logicalNot] := rfl
  refine ⟨?_, ?_, ?_⟩
  · rw [lexeme?_cons, hplus, List.findSome?_cons, hnone]
    rfl
  · rw [lexeme?_cons, hminus, List.findSome?_cons, hnone]
    rfl
  · rw [lexeme?_cons, hnot, List.findSome?_cons, hnone]
    rfl

/-! ## The text of a lexeme -/

lemma isAlpha_or_underscore_iff {c : Char} :
    (c.isAlpha || c == '_') = true ↔ isWordChar c ∧ c.isDigit = false := by
  have hdigit : c.isDigit = false ↔ ¬(48 ≤ c.toNat ∧ c.toNat ≤ 57) := by
    rw [← isDigit_iff, Bool.not_eq_true]
  have hunderscore : c = '_' ↔ c.toNat = 95 := by
    rw [← Char.toNat_inj]
    rfl
  rw [isWordChar_iff, hdigit]
  simp [Char.isAlpha, Char.isUpper, Char.isLower, UInt32.le_iff_toNat_le, hunderscore]
  omega

lemma ofReserved?_eq_none_iff {s : String} :
    Kind.ofReserved? s = none ↔ s ∉ ["let", "if", "else", "true", "false", "null"] := by
  rw [Kind.ofReserved?, List.lookup_eq_none_iff]
  simp [reservedWords]

/-- A name is a word that neither begins with a digit nor is reserved. -/
lemma isName_iff {s : String} :
    isName s ↔ ∃ c cs, s.toList = c :: cs ∧ isWordChar c ∧ c.isDigit = false ∧
      (∀ d ∈ cs, isWordChar d) ∧ Kind.ofReserved? s = none := by
  rw [isName]
  cases hs : s.toList with
  | nil => simp
  | cons c cs =>
    have hreserved : (!List.contains ["let", "if", "else", "true", "false", "null"] s) = true ↔
        Kind.ofReserved? s = none := by
      rw [ofReserved?_eq_none_iff, Bool.not_eq_true', Bool.eq_false_iff, ne_eq, List.contains_iff_mem]
    rw [Bool.and_eq_true, Bool.and_eq_true, isAlpha_or_underscore_iff, List.all_eq_true, hreserved]
    constructor
    · rintro ⟨⟨⟨hc, hdigit⟩, hcs⟩, hs⟩
      exact ⟨c, cs, rfl, hc, hdigit, hcs, hs⟩
    · rintro ⟨_, _, heq, hc, hdigit, hcs, hs⟩
      obtain ⟨rfl, rfl⟩ := List.cons.inj heq
      exact ⟨⟨⟨hc, hdigit⟩, hcs⟩, hs⟩

/-- A word that does not begin with a digit has the kind that its text asks for. -/
lemma spells_ofWord {s : String} {c : Char} {cs : List Char} (hs : s.toList = c :: cs)
    (hc : isWordChar c) (hdigit : c.isDigit = false) (hcs : ∀ d ∈ cs, isWordChar d) :
    (Kind.ofWord s).Spells s := by
  rw [Kind.ofWord]
  cases hreserved : Kind.ofReserved? s with
  | none => exact isName_iff.mpr ⟨c, cs, hs, hc, hdigit, hcs, hreserved⟩
  | some k =>
    obtain ⟨before, after, hwords, -⟩ := List.lookup_eq_some_iff.mp hreserved
    have hmem : (s, k) ∈ reservedWords := by simp [hwords]
    simp only [reservedWords, List.mem_cons, Prod.mk.injEq, List.not_mem_nil, or_false] at hmem
    rcases hmem with ⟨rfl, rfl⟩ | ⟨rfl, rfl⟩ | ⟨rfl, rfl⟩ | ⟨rfl, rfl⟩ | ⟨rfl, rfl⟩ | ⟨rfl, rfl⟩ <;>
      exact List.mem_singleton.mpr rfl

lemma spells_of_mem_texts {k : Kind} {s : String} (h : s ∈ k.texts) : k.Spells s := by
  cases k with
  | number | string | identifier => simp [Kind.texts] at h
  | _ => exact h

/-- A row of the table whose matches are texts of its kind. -/
def Row.Spells (row : Row) : Prop :=
  ∀ cs m r, row.pattern.split? cs = some (m, r) →
    (row.kind (String.ofList m)).Spells (String.ofList m)

namespace Row

variable {p : Char → Bool} {k : Kind} {d q : Char}

lemma spells_one (h : ∀ c, p c → String.ofList [c] ∈ k.texts) : (always (.one p) k).Spells := by
  intro cs m r hsplit
  obtain ⟨c, hc, rfl⟩ := Pattern.split?_one hsplit
  exact spells_of_mem_texts (h c hc)

lemma spells_two (h : ∀ c, p c → String.ofList [c, d] ∈ k.texts) :
    (always (.two p d) k).Spells := by
  intro cs m r hsplit
  obtain ⟨c, hc, rfl⟩ := Pattern.split?_two hsplit
  exact spells_of_mem_texts (h c hc)

lemma spells_oneOrTwo
    (h : ∀ c, p c → String.ofList [c] ∈ k.texts ∧ String.ofList [c, d] ∈ k.texts) :
    (always (.oneOrTwo p d) k).Spells := by
  intro cs m r hsplit
  obtain ⟨c, hc, rfl | rfl⟩ := Pattern.split?_oneOrTwo hsplit
  · exact spells_of_mem_texts (h c hc).1
  · exact spells_of_mem_texts (h c hc).2

lemma spells_quoted (hq : isQuote q) : (always (.quoted q) .string).Spells := by
  intro cs m r hsplit
  obtain ⟨inner, hinner, rfl⟩ := Pattern.split?_quoted hsplit
  exact ⟨q, inner, hq, hinner, String.toList_ofList⟩

lemma spells_digits : (always (.run Char.isDigit) .number).Spells := by
  intro cs m r hsplit
  obtain ⟨c, ds, -, hc, rfl⟩ := Pattern.split?_run hsplit
  have hds := List.all_eq_true.mp (@List.all_takeWhile _ Char.isDigit ds)
  simp only [always, Kind.Spells, String.toList_ofList, List.forall_mem_cons]
  exact ⟨List.cons_ne_nil _ _, hc, hds⟩

end Row

/-- **The text of a lexeme** is one of those that the tokens of its kind have. -/
theorem spells_of_lexeme? {cs : List Char} {x : Lexeme} (h : lexeme? cs = some x) :
    x.kind.Spells (String.ofList x.text) := by
  obtain ⟨row, hrow, hsplit, hkind⟩ := exists_row_of_lexeme? h
  have hspells (hrow : row.Spells) : x.kind.Spells (String.ofList x.text) := by
    rw [hkind]
    exact hrow cs x.text x.rest hsplit
  simp only [tokenTable, List.mem_cons, List.not_mem_nil, or_false] at hrow
  rcases hrow with rfl | rfl | rfl | rfl | rfl | rfl | rfl | rfl | rfl | rfl | rfl | rfl | rfl |
    rfl | rfl | rfl | rfl | rfl | rfl
  · exact hspells (Row.spells_one (by simp [Kind.texts]))
  · exact hspells (Row.spells_one (by simp [Kind.texts]))
  · exact hspells (Row.spells_one (by simp [Kind.texts]))
  · exact hspells (Row.spells_one (by simp [Kind.texts]))
  · exact hspells (Row.spells_one (by simp [Kind.texts]))
  · exact hspells (Row.spells_one (by simp [Kind.texts]))
  · exact hspells Row.spells_digits
  · -- a word that begins with a digit is never found, since the row of numbers comes first
    obtain ⟨c, ds, rfl, hc, htext⟩ := Pattern.split?_run hsplit
    cases hdigit : c.isDigit with
    | true =>
      obtain rfl := Option.some.inj ((lexeme?_digit hdigit ds).symm.trans h)
      exact Row.spells_digits (c :: ds) _ (ds.dropWhile Char.isDigit)
        (by simp [Row.always, Pattern.split?, hdigit])
    | false =>
      have hds := List.all_eq_true.mp (@List.all_takeWhile _ isWordChar ds)
      rw [hkind, htext]
      exact spells_ofWord String.toList_ofList hc hdigit hds
  · exact hspells (Row.spells_two (by simp [Kind.texts]))
  · exact hspells (Row.spells_one (by simp [Kind.texts]))
  · exact hspells (Row.spells_two (by simp [Kind.texts]))
  · exact hspells (Row.spells_one (by simp [Kind.texts]))
  · exact hspells (Row.spells_one (by simp [Kind.texts]))
  · exact hspells (Row.spells_oneOrTwo (by simp [Kind.texts]))
  · exact hspells (Row.spells_two (by simp [Kind.texts]))
  · exact hspells (Row.spells_two (by simp [Kind.texts]))
  · exact hspells (Row.spells_one (by simp [Kind.texts]))
  · exact hspells (Row.spells_quoted (.inl rfl))
  · exact hspells (Row.spells_quoted (.inr rfl))

/-! ## First characters -/

/-- The characters that tokens other than words and numbers begin with. -/
def marks : List Char :=
  [';', '\x7b', '\x7d', '(', ')', ',', '=', '!', '*', '/', '+', '-', '<', '>', '&', '|', '\x22',
    '\x27']

lemma starts_cases {c : Char} {row : Row} (hrow : row ∈ tokenTable) (h : row.pattern.starts c) :
    isWordChar c ∨ c ∈ marks := by
  have hdigit : c.isDigit → isWordChar c := isWordChar_of_isDigit
  revert row
  simp +contextual [tokenTable, Row.always, Pattern.starts, marks, hdigit, or_imp]

/-- No token begins with a blank. -/
lemma not_isBlank_of_lexeme? {c : Char} {cs : List Char} {x : Lexeme}
    (h : lexeme? (c :: cs) = some x) : Text.isBlank c = false := by
  have hmarks : marks.all (fun d => !Text.isBlank d) := rfl
  rw [lexeme?_cons] at h
  obtain ⟨row, hrow, -⟩ := List.exists_of_findSome?_eq_some h
  obtain ⟨hmem, hstarts⟩ := List.mem_filter.mp hrow
  rcases starts_cases hmem hstarts with hword | hmark
  · exact not_isBlank_of_isWordChar hword
  · simpa using List.all_eq_true.mp hmarks c hmark

end Scriptlet
