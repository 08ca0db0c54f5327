/-
# Chains of assignments

What stands on the left of an assignment operator is read as an expression of the loosest level, and
only when the operator has been consumed is it asked whether something can be assigned to it.  What
stands on the right is an assignment again.  So assignments group to the right, and the first
operator with anything but a name before it ends the parse, whatever comes behind it.

Parentheses leave no trace in a tree, so a name in parentheses can be assigned to as well.
-/
import Scriptlet.Proofs.Grammar.Fault
import Scriptlet.Proofs.Grammar.Precedence
import Scriptlet.Proofs.Token.Join

namespace Scriptlet

open Reading Grammar

/-! ## Assignments one in the other -/

/-- A text in any number of parentheses. -/
def parenthesized : Nat → String → String
  | 0, s => s
  | n + 1, s => "(" ++ parenthesized n s ++ ")"

/-- An expression in any number of parentheses. -/
structure Operand where
  /-- The expression. -/
  expr : Expr
  /-- How many parentheses there are around its text. -/
  parens : Nat
  /-- It is one that the parser yields. -/
  isParsed : expr.IsParsed

/-- The text of an operand. -/
def Operand.text (a : Operand) : String := parenthesized a.parens a.expr.print

namespace Chain

/-- The text of a chain of operands. -/
def source (c : Chain Operand) : String := (c.map Operand.text).text

/-- The tree of a chain of operands. -/
def value (c : Chain Operand) : Expr := (c.map Operand.expr).tree

/-- The name that a chain is, if it is a single operand and that is a name. -/
def name? : Chain Operand → Option String
  | one ⟨.ident x, _, _⟩ => some x
  | _ => none

end Chain

/-- The operators that assign. -/
inductive AssignmentOperator where
  | set
  | add
  | subtract
  | multiply
  | divide
deriving DecidableEq, Repr

/-- The text of an assignment operator. -/
def AssignmentOperator.text : AssignmentOperator → String
  | set => "="
  | add => "+="
  | subtract => "-="
  | multiply => "*="
  | divide => "/="

/-- What stands on the left of an assignment, with the operator. -/
structure LeftSide where
  /-- What is before the operator. -/
  chain : Chain Operand
  /-- The operator. -/
  operator : AssignmentOperator

/-- Whether a left side is a name. -/
def LeftSide.isName (side : LeftSide) : Bool := side.chain.name?.isSome

/-- The text of left sides one after the other, with a space behind each operator. -/
def sidesText : List LeftSide → String
  | [] => ""
  | side :: sides => side.chain.source ++ " " ++ side.operator.text ++ " " ++ sidesText sides

/-- The tree of assignments one in the other, if all left sides are names. -/
def assigned? : List LeftSide → Expr → Option Expr
  | [], e => some e
  | side :: sides, e => do
    let name ← side.chain.name?
    let value ← assigned? sides e
    return .assign side.operator.text name value

/-- Where an expression may be followed by a semicolon: as a statement, or as the first value of a
name. -/
inductive Place where
  | statement
  | initializer (name : String) (isName : isName name)

namespace Place

/-- What stands before the expression. -/
def text : Place → String
  | statement => ""
  | initializer name _ => "let " ++ name ++ " = "

/-- The statement that the expression makes up. -/
def stmt : Place → Expr → Stmt
  | statement, e => .expr e
  | initializer name _, e => .declare [⟨name, some e⟩]

end Place

/-- The source of a chain of assignments. -/
def assignmentSource (place : Place) (sides : List LeftSide) (last : Chain Operand) : String :=
  place.text ++ sidesText sides ++ last.source ++ ";"

variable {s s' s₁ s₂ : Session} {e : Error} {t : Token} {k : Kind} {n : Nat} {ws us : List Word}

/-! ## Operands in parentheses -/

lemma Operand.exists_readAs (a : Operand) :
    ∃ ws, DerivesExpr .unary ws a.expr ∧ ReadAs a.text ws := by
  obtain ⟨expr, parens, hparsed⟩ := a
  induction parens with
  | zero => exact Expr.readsBack_of_isWellFormed (Expr.isParsed_iff.mp hparsed)
  | succ n ih =>
    obtain ⟨ws, hderives, hread⟩ := ih
    refine ⟨_, .bare (.paren "(" ")" hderives.toAssignment), ?_⟩
    intro rest us _ hscans
    have hclose := scans_mark ')' .closeParen rfl hscans
    have hopen := scans_mark '(' .openParen rfl (hread _ _ (breaks_cons rfl) hclose)
    simpa [Operand.text, parenthesized] using hopen

lemma Operator.node_ne_ident (o : Operator) (l r : Expr) (x : String) :
    o.node l r ≠ .ident x := by
  cases o <;> exact Expr.noConfusion

namespace Chain

lemma exists_readAs_source (c : Chain Operand) :
    ∃ ws, DerivesExpr .logicalOr ws c.value ∧ ReadAs c.source ws :=
  exists_readAs Operand.text Operand.expr c fun a _ => a.exists_readAs

lemma value_of_name? {c : Chain Operand} {x : String} (h : c.name? = some x) :
    c.value = .ident x := by
  unfold name? at h
  split at h
  · obtain rfl := Option.some.inj h
    exact tree_one _
  · cases h

/-- A chain that is not a single name has another tree than a name. -/
lemma value_ne_ident {c : Chain Operand} (h : c.name? = none) (x : String) :
    c.value ≠ .ident x := by
  induction c using fallsApart_induction with
  | hone a =>
    intro hvalue
    rw [value, map, tree_one] at hvalue
    obtain ⟨expr, parens, hparsed⟩ := a
    obtain rfl : expr = .ident x := hvalue
    cases h
  | happend l o r hapart =>
    rw [value, map_append, tree_append (hapart.map Operand.expr)]
    exact o.node_ne_ident _ _ x

end Chain

/-! ## Left sides -/

namespace Grammar

/-- `Targets us f`: the words `us` are targets, each with an assignment operator behind it, and `f`
makes the tree of the assignments of the value that comes behind them. -/
inductive Targets : List Word → (Expr → Expr) → Prop
  | nil : Targets [] id
  | cons {ws us : List Word} {x : String} {k : Kind} {f : Expr → Expr} (o : String)
      (hk : k.isAssignment) (hx : Target ws x) (h : Targets us f) :
      Targets (ws ++ ⟨k, o⟩ :: us) fun e => .assign o x (f e)

variable {f : Expr → Expr} {left value : Expr}

lemma Targets.derives (h : Targets us f) (hvalue : DerivesExpr .assignment ws value) :
    DerivesExpr .assignment (us ++ ws) (f value) := by
  induction h with
  | nil => exact hvalue
  | cons o hk hx _ ih =>
    rw [List.append_assoc, List.cons_append]
    exact .assign o (eq_or_eq_of_isAssignment hk) hx ih

/-- An expression is read up to an assignment operator. -/
lemma binary_before_assignment {inner : Reading Expr}
    (hinner : Complete inner n (Ends .assignment) (DerivesExpr .assignment))
    (hleft : DerivesExpr .logicalOr ws left) (hws : Consumes s ws s₁)
    (hk : k.isAssignment) (hkind : s₁.kind? = some k) (hroom : s.room ≤ n + 1) :
    binary inner (n + 1) .logicalOr s = .ok left s₁ := by
  refine binary_complete hinner .logicalOr s ws left s₁ hleft hws ?_ hroom
  show strength s₁.kind? < 2
  rw [hkind, strength_of_isAssignment hk]
  exact Nat.one_lt_two

/-- An assignment to anything but a name fails behind its operator. -/
lemma expression_error (hleft : DerivesExpr .logicalOr ws left) (hname : ∀ x, left ≠ .ident x)
    (hws : Consumes s ws s₁) (hk : k.isAssignment) (ht : expect k s₁ = .ok t s₂)
    (hroom : s.room ≤ n) : expression n s = .error ⟨.notAssignable, t.span.start⟩ s₂ := by
  obtain ⟨w, vs, rfl, -⟩ := hleft.starts
  have hlt := room_lt_of_consumes_cons hws
  obtain ⟨n, rfl⟩ : ∃ m, n = m + 1 := ⟨n - 1, by omega⟩
  have hkind := kind?_of_expect ht
  have hbinary := binary_before_assignment (expression_complete n) hleft hws hk hkind hroom
  refine (bind_of_ok hbinary _).trans ?_
  rw [peek_bind, hkind]
  dsimp only
  rw [if_pos hk]
  refine (bind_of_ok ht _).trans (bind_of_error ?_ _)
  cases left with
  | ident x => exact absurd rfl (hname x)
  | _ => rfl

/-- Behind a target and its operator, an expression fails as it does there. -/
lemma expression_error_behind {x o : String} (hx : Target ws x) (hk : k.isAssignment)
    (hws : Consumes s (ws ++ [⟨k, o⟩]) s₁) (hroom : s.room ≤ n)
    (h : ∀ m, s₁.room ≤ m → expression m s₁ = .error e s') : expression n s = .error e s' := by
  obtain ⟨s₂, hws, ho⟩ := consumes_append_iff.mp hws
  obtain ⟨w, vs, rfl, -⟩ := hx.starts
  have hlt := room_lt_of_consumes_cons hws
  obtain ⟨n, rfl⟩ : ∃ m, n = m + 1 := ⟨n - 1, by omega⟩
  have hkind := ho.kind?_eq
  have hbinary := binary_before_assignment (expression_complete n) (hx.derives.atLevel .logicalOr)
    hws hk hkind hroom
  obtain ⟨t, s₃, ht, -, hnil, hlt'⟩ := expect_of_consumes ho
  obtain rfl := consumes_nil_iff.mp hnil
  refine (bind_of_ok hbinary _).trans ?_
  rw [peek_bind, hkind]
  dsimp only
  rw [if_pos hk]
  refine (bind_of_ok ht _).trans ?_
  exact bind_of_error (h n (by omega)) _

/-- **The first operator with no name before it ends the expression**, whatever targets come before
it. -/
lemma Targets.expression_error (h : Targets us f) (hleft : DerivesExpr .logicalOr ws left)
    (hname : ∀ x, left ≠ .ident x) (hws : Consumes s (us ++ ws) s₁) (hk : k.isAssignment)
    (ht : expect k s₁ = .ok t s₂) (hroom : s.room ≤ n) :
    expression n s = .error ⟨.notAssignable, t.span.start⟩ s₂ := by
  induction h generalizing s n with
  | nil => exact Grammar.expression_error hleft hname hws hk ht hroom
  | @cons vs us _ k' _ o hk' hx _ ih =>
    have hsplit : vs ++ ⟨k', o⟩ :: us ++ ws = (vs ++ [⟨k', o⟩]) ++ (us ++ ws) := by simp
    rw [hsplit] at hws
    obtain ⟨s₃, hvs, hrest⟩ := consumes_append_iff.mp hws
    exact expression_error_behind hx hk' hvs hroom fun m hm => ih hrest hm

lemma exists_room_eq_succ (hkind : s.kind? = some k) : ∃ n, s.room = n + 1 := by
  refine Nat.exists_eq_succ_of_ne_zero fun hzero => ?_
  rw [kind?_eq_none_iff.mpr (lookahead_eq_none hzero)] at hkind
  cases hkind

/-- A statement that fails at the beginning of a program ends it. -/
lemma program_error_of_statement (hkind : s.kind? = some k)
    (h : statement s.room s = .error e s') : program s.room s = .error e s' := by
  obtain ⟨n, hn⟩ := exists_room_eq_succ hkind
  rw [hn] at h ⊢
  refine bind_of_error (bind_of_error ?_ _) _
  rw [repeatWhile, peek_bind, hkind]
  exact bind_of_error (bind_of_error h _) _

end Grammar

/-! ## The words of a chain of assignments -/

namespace AssignmentOperator

/-- The kind of an assignment operator as a word. -/
def kind : AssignmentOperator → Kind
  | set => .simpleAssign
  | add | subtract | multiply | divide => .complexAssign

lemma isAssignment_kind (a : AssignmentOperator) : a.kind.isAssignment := by
  cases a <;> rfl

lemma text_mem_texts (a : AssignmentOperator) : a.text ∈ a.kind.texts := by
  cases a <;> decide

/-- An assignment operator before a blank. -/
lemma lexeme?_text (a : AssignmentOperator) (cs : List Char) :
    lexeme? (a.text.toList ++ ' ' :: cs) = some ⟨a.kind, a.text.toList, ' ' :: cs⟩ := by
  cases a <;> rfl

end AssignmentOperator

/-- Left sides are cut into words, before any text.  If all of them are names, the words are
targets. -/
lemma exists_words_sides (sides : List LeftSide) :
    ∃ us, (∀ cs ws, Scans cs ws → Scans ((sidesText sides).toList ++ cs) (us ++ ws)) ∧
      ((∀ side ∈ sides, side.isName) → ∃ f, Targets us f ∧ ∀ e, assigned? sides e = some (f e)) := by
  induction sides with
  | nil =>
    refine ⟨[], fun cs ws hscans => ?_, fun _ => ⟨id, .nil, fun e => rfl⟩⟩
    simpa [sidesText] using hscans
  | cons side sides ih =>
    obtain ⟨us, hscans, htargets⟩ := ih
    obtain ⟨ws, hderives, hread⟩ := side.chain.exists_readAs_source
    refine ⟨ws ++ ⟨side.operator.kind, side.operator.text⟩ :: us, fun cs vs hcs => ?_, fun h => ?_⟩
    · have hoperator := scans_text side.operator.text_mem_texts (hscans cs vs hcs)
      have hleft := hread _ _ (breaks_cons rfl) (hoperator.blank (c := ' ') rfl)
      simpa [sidesText] using hleft
    · obtain ⟨hside, hsides⟩ := List.forall_mem_cons.mp h
      obtain ⟨f, hf, hassigned⟩ := htargets hsides
      obtain ⟨x, hx⟩ := Option.isSome_iff_exists.mp hside
      rw [Chain.value_of_name? hx] at hderives
      refine ⟨_, .cons side.operator.text side.operator.isAssignment_kind hderives.target hf, ?_⟩
      intro e
      rw [assigned?, hx, hassigned e]
      rfl

namespace Place

/-- The words before the expression. -/
def words : Place → List Word
  | statement => []
  | initializer name _ => [⟨.letWord, "let"⟩, ⟨.identifier, name⟩, ⟨.simpleAssign, "="⟩]

lemma scans (place : Place) {cs : List Char} (h : Scans cs ws) :
    Scans (place.text.toList ++ cs) (place.words ++ ws) := by
  cases place with
  | statement => exact h
  | initializer name hname =>
    have hassign := scans_text (k := .simpleAssign) (o := "=") (by decide) h
    have hidentifier := readAs_name hname _ _ (breaks_cons rfl) (hassign.blank (c := ' ') rfl)
    have hlet := scans_text (k := .letWord) (o := "let") (by decide) hidentifier
    simpa [text, words] using hlet

lemma derives (place : Place) {e : Expr} (h : DerivesExpr .assignment ws e) :
    DerivesProgram (place.words ++ ws ++ [⟨.semicolon, ";"⟩]) ⟨[place.stmt e]⟩ := by
  cases place with
  | statement => exact .single (.expr ";" h)
  | initializer name hname => exact .single (.declare "let" ";" (.one (.init name "=" h)))

/-- **An expression that fails ends the program**, wherever it is. -/
lemma program_error (place : Place) (hwords : Consumes s place.words s₁)
    (hstarts : ∃ k, s₁.kind? = some k ∧ startsExpr k)
    (h : ∀ n, s₁.room ≤ n → expression n s₁ = .error e s') : program s.room s = .error e s' := by
  cases place with
  | statement =>
    obtain rfl := consumes_nil_iff.mp hwords
    obtain ⟨k, hkind, hk⟩ := hstarts
    refine program_error_of_statement hkind ?_
    obtain ⟨n, hn⟩ := exists_room_eq_succ hkind
    rw [hn, statement_of_startsExpr hkind hk]
    exact bind_of_error (h _ (Nat.le_of_eq hn)) _
  | initializer name hname =>
    have hkind := hwords.kind?_eq
    refine program_error_of_statement hkind ?_
    obtain ⟨tl, s₂, htl, -, hwords, hlt₂⟩ := expect_of_consumes hwords
    obtain ⟨s₃, hx, hwords', hlt₃⟩ := identifier_of_consumes hwords
    obtain ⟨ta, s₄, hta, -, hnil, hlt₄⟩ := expect_of_consumes hwords'
    obtain rfl := consumes_nil_iff.mp hnil
    obtain ⟨n, hn⟩ : ∃ n, s.room = n + 1 := ⟨s.room - 1, by omega⟩
    have hdeclaration : declaration n s₂ = .error e s' := by
      refine (bind_of_ok hx _).trans ?_
      rw [peek_bind, hwords'.kind?_eq]
      refine (bind_of_ok hta _).trans ?_
      exact bind_of_error (h n (by omega)) _
    rw [hn, Grammar.statement, peek_bind, hkind]
    refine (bind_of_ok htl _).trans ?_
    exact bind_of_error hdeclaration _

end Place

/-! ## Parsing chains of assignments -/

section Parsing

variable (place : Place) (sides : List LeftSide) (last : Chain Operand) (file : Option String)

/-- The words behind an assignment operator can be scanned, whatever they are. -/
lemma exists_scans_behind :
    ∃ ws, Scans (sidesText sides ++ last.source ++ ";").toList ws := by
  obtain ⟨us, hscans, -⟩ := exists_words_sides sides
  obtain ⟨ws, -, hread⟩ := last.exists_readAs_source
  exact ⟨_, by simpa using hscans _ _ hread.scans_semicolon⟩

/-- Where all left sides are names, the assignments are parsed one in the other. -/
lemma parse_assignments_of_names (h : ∀ side ∈ sides, side.isName) :
    ∃ e, assigned? sides last.value = some e ∧
      parse (assignmentSource place sides last) file = .ok ⟨[place.stmt e]⟩ := by
  obtain ⟨us, hscans, htargets⟩ := exists_words_sides sides
  obtain ⟨f, hf, hassigned⟩ := htargets h
  obtain ⟨ws, hderives, hread⟩ := last.exists_readAs_source
  refine ⟨_, hassigned _, parse_of_derives ?_ (place.derives (hf.derives (.plain hderives)))⟩
  simpa [assignmentSource] using place.scans (hscans _ _ hread.scans_semicolon)

/-- The tokens of two texts with an assignment operator between them: the operator is where the first
text ends, behind a blank. -/
lemma exists_scan_operator (a : AssignmentOperator) {pre post : String}
    (hpre : Scans pre.toList ws) (hpost : Scans post.toList us) :
    ∃ (ts : List Token) (t : Token) (vs : List Token),
      scan (pre ++ " " ++ a.text ++ " " ++ post) file = ts.map .ok ++ .ok t :: vs.map .ok ∧
      ts.map Token.word = ws ∧ t.kind = a.kind ∧
      t.span.start = ⟨Text.bytes (pre ++ " "), file.getD defaultFile⟩ := by
  obtain ⟨ts, hts, hwords⟩ :=
    exists_drain_of_scans (file.getD defaultFile) (c := .start pre.toList) hpre
  let x : Lexeme := ⟨a.kind, a.text.toList, ' ' :: post.toList⟩
  let c : Cursor := ⟨0 + Text.size pre.toList, ' ' :: (x.text ++ x.rest)⟩
  obtain ⟨vs, hvs, -⟩ := exists_drain_of_scans (file.getD defaultFile)
    (c := ⟨c.offset + Text.size [' '] + Text.size x.text, x.rest⟩) (hpost.blank (c := ' ') rfl)
  have hnext := Cursor.next_of_lexeme (c := c) (x := x) (file.getD defaultFile)
    (List.forall_mem_singleton.mpr rfl) rfl (a.lexeme?_text post.toList)
  have hsource : (pre ++ " " ++ a.text ++ " " ++ post).toList = pre.toList ++ c.rest := by
    simp [c, x]
  have hblank : ∀ ch, c.rest.head? = some ch → Text.isBlank ch := by
    intro ch hch
    obtain rfl := Option.some.inj hch
    rfl
  refine ⟨ts, x.token (file.getD defaultFile) (c.offset + Text.size [' ']), vs, ?_, hwords, rfl, ?_⟩
  · rw [scan, hsource]
    refine (Cursor.drain_append_blank hts hblank).trans ?_
    show _ ++ (c.drain _).1 = _
    rw [Cursor.drain_of_next_some hnext, hvs]
  · simp [Lexeme.token, c, Text.bytes]

lemma sidesText_append (before after : List LeftSide) :
    sidesText (before ++ after) = sidesText before ++ sidesText after := by
  induction before with
  | nil => simp [sidesText]
  | cons side sides ih => simp [sidesText, ih, String.append_assoc]

/-- A parse fails at a token if a program does that consumes the words before it and the token. -/
lemma parse_error_of_scan {source : String} {ts : List Token} {items : List (Except Error Token)}
    (hscan : scan source file = ts.map .ok ++ .ok t :: items)
    (hitems : ∀ e', items.head? ≠ some (.error e'))
    (hprogram : ∀ s s₁ s₂, Consumes s (ts.map Token.word) s₁ → expect t.kind s₁ = .ok t s₂ →
      program s.room s = .error e s₂) : parse source file = .error e := by
  have hhead (e' : Error) : (scan source file).head? ≠ some (.error e') := by
    rw [hscan]
    cases ts <;> simp
  obtain ⟨s, hload⟩ : ∃ s, load source (.start file) = .ok () s := exists_advance hhead
  have hpending : s.pending = ts.map .ok ++ .ok t :: items := (pending_of_load hload).trans hscan
  obtain ⟨s₁, hws, hpending₁⟩ := exists_consumes hpending (by simp)
  obtain ⟨s₂, ht⟩ := exists_expect hpending₁ hitems
  exact parse_eq_error_iff_program.mpr (.inr ⟨s, s₂, hload, hprogram s s₁ s₂ hws ht⟩)

/-- **A left side that is no name, behind others that are, is an error at its operator.** -/
lemma parse_assignments_of_not_name (before : List LeftSide) (side : LeftSide)
    (after : List LeftSide) (hbefore : ∀ side ∈ before, side.isName)
    (hside : side.isName = false) :
    parse (assignmentSource place (before ++ side :: after) last) file =
      .error ⟨.notAssignable,
        ⟨Text.bytes (place.text ++ sidesText before ++ side.chain.source ++ " "),
          file.getD defaultFile⟩⟩ := by
  obtain ⟨us, hscans, htargets⟩ := exists_words_sides before
  obtain ⟨f, hf, -⟩ := htargets hbefore
  obtain ⟨ws, hderives, hread⟩ := side.chain.exists_readAs_source
  have hpre : Scans (place.text ++ sidesText before ++ side.chain.source).toList
      (place.words ++ (us ++ ws)) := by
    simpa using place.scans (hscans _ _ hread.scans)
  obtain ⟨vs, hpost⟩ := exists_scans_behind after last
  obtain ⟨ts, t, items, hscan, hwords, hkind, hstart⟩ :=
    exists_scan_operator file side.operator hpre hpost
  have hsource : assignmentSource place (before ++ side :: after) last =
      place.text ++ sidesText before ++ side.chain.source ++ " " ++ side.operator.text ++ " " ++
        (sidesText after ++ last.source ++ ";") := by
    simp [assignmentSource, sidesText_append, sidesText, String.append_assoc]
  rw [hsource, ← hstart]
  refine parse_error_of_scan file hscan (by cases items <;> simp) ?_
  intro s s₁ s₂ hconsumes ht
  rw [hwords] at hconsumes
  obtain ⟨s₃, hplace, hexpr⟩ := consumes_append_iff.mp hconsumes
  have hname : side.chain.name? = none := by simpa [LeftSide.isName] using hside
  refine place.program_error hplace ?_ fun n hroom =>
    hf.expression_error hderives (Chain.value_ne_ident hname) hexpr
      (hkind ▸ side.operator.isAssignment_kind) ht hroom
  obtain ⟨w, vs, hfirst, hw⟩ := (hf.derives (.plain hderives)).starts
  rw [hfirst] at hexpr
  exact ⟨w.kind, hexpr.kind?_eq, hw⟩

end Parsing

/-- **Assignments group to the right, and assign to names only.**  A chain of assignments, as
a statement or as the first value of a name, is parsed exactly if every left side is a single name, in
any number of parentheses.  Then each assignment is the value of the one before it, and the value of
the last one is what stands behind all operators.  Otherwise the parse fails at the first operator
that has anything else before it. -/
theorem parse_assignments (place : Place) (sides : List LeftSide) (last : Chain Operand)
    (file : Option String) :
    ((∃ p, parse (assignmentSource place sides last) file = .ok p) ↔
      ∀ side ∈ sides, side.isName) ∧
    ((∀ side ∈ sides, side.isName) → ∃ e, assigned? sides last.value = some e ∧
      parse (assignmentSource place sides last) file = .ok ⟨[place.stmt e]⟩) ∧
    (¬(∀ side ∈ sides, side.isName) → ∃ before side after, sides = before ++ side :: after ∧
      (∀ side ∈ before, side.isName) ∧ side.isName = false ∧
      parse (assignmentSource place sides last) file =
        .error ⟨.notAssignable,
          ⟨Text.bytes (place.text ++ sidesText before ++ side.chain.source ++ " "),
            file.getD defaultFile⟩⟩) := by
  have hnames := parse_assignments_of_names place sides last file
  have hfirst : ¬(∀ side ∈ sides, side.isName) → ∃ before side after,
      sides = before ++ side :: after ∧ (∀ side ∈ before, side.isName) ∧ side.isName = false := by
    intro hsides
    cases hfind : sides.find? (fun side => !side.isName) with
    | none =>
      refine absurd (fun side hside => ?_) hsides
      simpa using List.find?_eq_none.mp hfind side hside
    | some side =>
      obtain ⟨hside, before, after, hsplit, hbefore⟩ := List.find?_eq_some_iff_append.mp hfind
      exact ⟨before, side, after, hsplit, by simpa using hbefore, by simpa using hside⟩
  refine ⟨⟨?_, fun h => ?_⟩, hnames, fun hsides => ?_⟩
  · rintro ⟨p, hp⟩
    by_contra hsides
    obtain ⟨before, side, after, rfl, hbefore, hside⟩ := hfirst hsides
    rw [parse_assignments_of_not_name place last file before side after hbefore hside] at hp
    cases hp
  · obtain ⟨e, -, he⟩ := hnames h
    exact ⟨_, he⟩
  · obtain ⟨before, side, after, rfl, hbefore, hside⟩ := hfirst hsides
    exact ⟨before, side, after, rfl, hbefore, hside,
      parse_assignments_of_not_name place last file before side after hbefore hside⟩

/-- A name in parentheses is assigned to, and in `let v = x = y + z += w;` the sum is not. -/
theorem parse_assignments_sum :
    parse "(x) = y *= z;" none =
      .ok ⟨[.expr (.assign "=" "x" (.assign "*=" "y" (.ident "z")))]⟩ ∧
    parse "let v = x = y + z += w;" none = .error ⟨.notAssignable, ⟨18, "shell"⟩⟩ := by
  let x (parens : Nat) : Operand := ⟨.ident "x", parens, "x;", none, by cbv⟩
  let y : Operand := ⟨.ident "y", 0, "y;", none, by cbv⟩
  let z : Operand := ⟨.ident "z", 0, "z;", none, by cbv⟩
  let w : Operand := ⟨.ident "w", 0, "w;", none, by cbv⟩
  constructor
  · obtain ⟨e, he, hparse⟩ := (parse_assignments .statement
      [⟨.one (x 1), .set⟩, ⟨.one y, .multiply⟩] (.one z) none).2.1 (List.all_eq_true.mp rfl)
    obtain rfl : Expr.assign "=" "x" (.assign "*=" "y" (.ident "z")) = e := by
      simpa [assigned?, Chain.name?, Chain.value, Chain.map, x, y, z, AssignmentOperator.text] using he
    refine (congrArg (parse · none) ?_).trans hparse
    cbv
  · obtain ⟨before, side, after, hsides, hbefore, hside, hparse⟩ :=
      (parse_assignments (.initializer "v" (by decide))
        [⟨.one (x 0), .set⟩, ⟨.more y .plus (.one z), .add⟩] (.one w) none).2.2
        fun h => by cases h ⟨.more y .plus (.one z), .add⟩ (by simp)
    rcases before with _ | ⟨first, _ | ⟨second, before⟩⟩
    · obtain ⟨rfl, -⟩ := List.cons.inj hsides
      cases hside
    · obtain ⟨rfl, hrest⟩ := List.cons.inj hsides
      obtain ⟨rfl, -⟩ := List.cons.inj hrest
      refine (congrArg (parse · none) ?_).trans (hparse.trans ?_)
      · cbv
      · cbv
    · simp at hsides

end Scriptlet
