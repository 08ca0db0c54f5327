/-
# The grammar

Which words make up which trees.  This is the grammar itself, with one constructor for each
alternative of a production, and says nothing about how words are read:

    Program := Stmt*
    Stmt    := ';' | 'if' '(' Expr ')' Stmt ['else' Stmt] | '{' Stmt* '}'
             | 'let' Decl (',' Decl)* ';' | Expr ';'
    Decl    := IDENT ['=' Expr]
    Expr    := Or | Target ASSIGN Expr
    Target  := IDENT | '(' Target ')'
    Or      := And | Or '||' And
    And     := Eq | And '&&' Eq
    Eq      := Rel | Eq EQUALITY Rel
    Rel     := Add | Rel RELATIONAL Add
    Add     := Mul | Add ADDITIVE Mul
    Mul     := Unary | Mul MULTIPLICATIVE Unary
    Unary   := Primary | (ADDITIVE | '!') Unary
    Primary := NUMBER | STRING | 'true' | 'false' | 'null' | '(' Expr ')' | IDENT

An `if` with an `else` may not guard a statement that ends in an `if` without one.  The text of
a word matters only where it goes into the tree, so that marks may have any text here.
-/
import Scriptlet.Grammar.Expression
import Scriptlet.Proofs.Token.Word

namespace Scriptlet

/-- Whether a statement ends in an `if` without `else`, to which an `else` behind it would go. -/
def Stmt.endsOpen : Stmt → Bool
  | ifThen _ _ => true
  | ifElse _ _ alternate => alternate.endsOpen
  | expr _ | block _ | empty | declare _ => false

namespace Grammar

/-! ## Expressions -/

/-- The categories of expressions, from `Expr` to `Primary`. -/
inductive Category where
  | assignment
  | logicalOr
  | logicalAnd
  | equality
  | relational
  | additive
  | multiplicative
  | unary
  | primary
deriving DecidableEq, Repr

/-- `Rung c d k node`: an expression of the category `c` is one of the category `d`, or one of
`c` and one of `d` with an operator of the kind `k` between them, which make up a `node`. -/
inductive Rung : Category → Category → Kind → (String → Expr → Expr → Expr) → Prop
  | logicalOr : Rung .logicalOr .logicalAnd .logicalOr .logical
  | logicalAnd : Rung .logicalAnd .equality .logicalAnd .logical
  | equality : Rung .equality .relational .equality .binary
  | relational : Rung .relational .additive .relational .binary
  | additive : Rung .additive .multiplicative .additive .binary
  | multiplicative : Rung .multiplicative .unary .multiplicative .binary

/-- What can be assigned to: a name, in any number of parentheses. -/
inductive Target : List Word → String → Prop
  | name (x : String) : Target [⟨.identifier, x⟩] x
  | paren (l r : String) {ws : List Word} {x : String} (h : Target ws x) :
      Target (⟨.openParen, l⟩ :: ws ++ [⟨.closeParen, r⟩]) x

/-- `DerivesExpr c ws e`: the words `ws` are an expression of the category `c`, with the tree
`e`. -/
inductive DerivesExpr : Category → List Word → Expr → Prop
  | plain {ws : List Word} {e : Expr} (h : DerivesExpr .logicalOr ws e) :
      DerivesExpr .assignment ws e
  | assign {ws us : List Word} {x : String} {e : Expr} {k : Kind} (o : String)
      (hk : k = .simpleAssign ∨ k = .complexAssign) (hx : Target ws x)
      (he : DerivesExpr .assignment us e) :
      DerivesExpr .assignment (ws ++ ⟨k, o⟩ :: us) (.assign o x e)
  | single {c d : Category} {k : Kind} {node : String → Expr → Expr → Expr} {ws : List Word}
      {e : Expr} (hrung : Rung c d k node) (h : DerivesExpr d ws e) : DerivesExpr c ws e
  | joined {c d : Category} {k : Kind} {node : String → Expr → Expr → Expr} {ws us : List Word}
      {l r : Expr} (o : String) (hrung : Rung c d k node) (hl : DerivesExpr c ws l)
      (hr : DerivesExpr d us r) : DerivesExpr c (ws ++ ⟨k, o⟩ :: us) (node o l r)
  | bare {ws : List Word} {e : Expr} (h : DerivesExpr .primary ws e) : DerivesExpr .unary ws e
  | signed {ws : List Word} {e : Expr} {k : Kind} (o : String)
      (hk : k = .additive ∨ k = .logicalNot) (h : DerivesExpr .unary ws e) :
      DerivesExpr .unary (⟨k, o⟩ :: ws) (.unary o e)
  | number (digits : String) (hfinite : (digitsNumber digits).isFinite) :
      DerivesExpr .primary [⟨.number, digits⟩] (.number (digitsNumber digits))
  | text (quoted : String) : DerivesExpr .primary [⟨.string, quoted⟩] (.text (unquote quoted))
  | trueLit (o : String) : DerivesExpr .primary [⟨.trueWord, o⟩] (.bool true)
  | falseLit (o : String) : DerivesExpr .primary [⟨.falseWord, o⟩] (.bool false)
  | nullLit (o : String) : DerivesExpr .primary [⟨.nullWord, o⟩] .null
  | paren (l r : String) {ws : List Word} {e : Expr} (h : DerivesExpr .assignment ws e) :
      DerivesExpr .primary (⟨.openParen, l⟩ :: ws ++ [⟨.closeParen, r⟩]) e
  | ident (x : String) : DerivesExpr .primary [⟨.identifier, x⟩] (.ident x)

/-! ## Statements -/

/-- One declaration of a `let`. -/
inductive DerivesDeclaration : List Word → Declaration → Prop
  | bare (x : String) : DerivesDeclaration [⟨.identifier, x⟩] ⟨x, none⟩
  | init (x o : String) {ws : List Word} {e : Expr} (h : DerivesExpr .assignment ws e) :
      DerivesDeclaration (⟨.identifier, x⟩ :: ⟨.simpleAssign, o⟩ :: ws) ⟨x, some e⟩

/-- One declaration or more, with commas between them. -/
inductive DerivesDeclarations : List Word → List Declaration → Prop
  | one {ws : List Word} {d : Declaration} (h : DerivesDeclaration ws d) :
      DerivesDeclarations ws [d]
  | more (o : String) {ws us : List Word} {d : Declaration} {ds : List Declaration}
      (h : DerivesDeclaration ws d) (hds : DerivesDeclarations us ds) :
      DerivesDeclarations (ws ++ ⟨.comma, o⟩ :: us) (d :: ds)

mutual

/-- `DerivesStmt ws s`: the words `ws` are a statement, with the tree `s`. -/
inductive DerivesStmt : List Word → Stmt → Prop
  | empty (o : String) : DerivesStmt [⟨.semicolon, o⟩] .empty
  | ifThen (i l r : String) {ws us : List Word} {e : Expr} {s : Stmt}
      (he : DerivesExpr .assignment ws e) (hs : DerivesStmt us s) :
      DerivesStmt (⟨.ifWord, i⟩ :: ⟨.openParen, l⟩ :: ws ++ ⟨.closeParen, r⟩ :: us)
        (.ifThen e s)
  | ifElse (i l r o : String) {ws us vs : List Word} {e : Expr} {s s' : Stmt}
      (he : DerivesExpr .assignment ws e) (hs : DerivesStmt us s) (hclosed : s.endsOpen = false)
      (hs' : DerivesStmt vs s') :
      DerivesStmt
        (⟨.ifWord, i⟩ :: ⟨.openParen, l⟩ :: ws ++ ⟨.closeParen, r⟩ :: us ++ ⟨.elseWord, o⟩ :: vs)
        (.ifElse e s s')
  | block (l r : String) {ws : List Word} {body : List Stmt} (h : DerivesBody ws body) :
      DerivesStmt (⟨.openCurly, l⟩ :: ws ++ [⟨.closeCurly, r⟩]) (.block body)
  | declare (l o : String) {ws : List Word} {ds : List Declaration}
      (h : DerivesDeclarations ws ds) :
      DerivesStmt (⟨.letWord, l⟩ :: ws ++ [⟨.semicolon, o⟩]) (.declare ds)
  | expr (o : String) {ws : List Word} {e : Expr} (h : DerivesExpr .assignment ws e) :
      DerivesStmt (ws ++ [⟨.semicolon, o⟩]) (.expr e)

/-- Statements one after the other. -/
inductive DerivesBody : List Word → List Stmt → Prop
  | nil : DerivesBody [] []
  | cons {ws us : List Word} {s : Stmt} {body : List Stmt} (h : DerivesStmt ws s)
      (hbody : DerivesBody us body) : DerivesBody (ws ++ us) (s :: body)

end

/-- A statement does not go on at this lookahead: it has no place for an `else`, or there is
none. -/
def StmtEnds (s : Stmt) (k : Option Kind) : Prop := s.endsOpen → k ≠ some .elseWord

/-- `DerivesProgram ws p`: the words `ws` are a program, with the tree `p`. -/
def DerivesProgram (ws : List Word) (p : Program) : Prop := DerivesBody ws p.body

/-! ## Levels and categories -/

/-- The category of the expressions of a level. -/
def category : Level → Category
  | .logicalOr => .logicalOr
  | .logicalAnd => .logicalAnd
  | .equality => .equality
  | .relational => .relational
  | .additive => .additive
  | .multiplicative => .multiplicative
  | .unary => .unary

/-- The levels with operators are the rungs of the grammar. -/
lemma rung_of_operator? {level : Level} {k : Kind} (h : level.operator? = some k) :
    Rung (category level) (category level.next) k level.join := by
  cases level with
  | unary => cases h
  | logicalOr => obtain rfl := Option.some.inj h; exact .logicalOr
  | logicalAnd => obtain rfl := Option.some.inj h; exact .logicalAnd
  | equality => obtain rfl := Option.some.inj h; exact .equality
  | relational => obtain rfl := Option.some.inj h; exact .relational
  | additive => obtain rfl := Option.some.inj h; exact .additive
  | multiplicative => obtain rfl := Option.some.inj h; exact .multiplicative

/-- From the tightest level to all levels, one rung after the other. -/
lemma level_induction {P : Level → Prop} (hunary : P .unary)
    (hstep : ∀ level k, level.operator? = some k → P level.next → P level) (level : Level) :
    P level := by
  have hmul := hstep .multiplicative _ rfl hunary
  have hadd := hstep .additive _ rfl hmul
  have hrel := hstep .relational _ rfl hadd
  have heq := hstep .equality _ rfl hrel
  have hand := hstep .logicalAnd _ rfl heq
  have hor := hstep .logicalOr _ rfl hand
  cases level with
  | unary => exact hunary
  | multiplicative => exact hmul
  | additive => exact hadd
  | relational => exact hrel
  | equality => exact heq
  | logicalAnd => exact hand
  | logicalOr => exact hor

lemma binary_of_operator? (inner : Reading Expr) (n : Nat) {level : Level} {k : Kind}
    (h : level.operator? = some k) :
    binary inner n level = chain n level (binary inner n level.next) := by
  have hne : level ≠ .unary := by
    rintro rfl
    cases h
  rw [binary, List.foldr_cons, Level.tighter_eq_next hne]
  rfl

/-! ## From tight to loose -/

lemma DerivesExpr.atLevel {ws : List Word} {e : Expr} (h : DerivesExpr .unary ws e)
    (level : Level) : DerivesExpr (category level) ws e := by
  refine level_induction (P := fun level => DerivesExpr (category level) ws e) h ?_ level
  intro level k hlevel hnext
  exact .single (rung_of_operator? hlevel) hnext

lemma DerivesExpr.ofLevel {level : Level} {ws : List Word} {e : Expr}
    (h : DerivesExpr (category level) ws e) : DerivesExpr .assignment ws e := by
  have hor (h : DerivesExpr .logicalOr ws e) := DerivesExpr.plain h
  have hand (h : DerivesExpr .logicalAnd ws e) := hor (.single .logicalOr h)
  have heq (h : DerivesExpr .equality ws e) := hand (.single .logicalAnd h)
  have hrel (h : DerivesExpr .relational ws e) := heq (.single .equality h)
  have hadd (h : DerivesExpr .additive ws e) := hrel (.single .relational h)
  have hmul (h : DerivesExpr .multiplicative ws e) := hadd (.single .additive h)
  cases level with
  | unary => exact hmul (.single .multiplicative h)
  | multiplicative => exact hmul h
  | additive => exact hadd h
  | relational => exact hrel h
  | equality => exact heq h
  | logicalAnd => exact hand h
  | logicalOr => exact hor h

lemma DerivesExpr.toAssignment {ws : List Word} {e : Expr} (h : DerivesExpr .unary ws e) :
    DerivesExpr .assignment ws e :=
  .plain (h.atLevel .logicalOr)

/-! ## Targets are the expressions that are names -/

lemma Target.derives {ws : List Word} {x : String} (h : Target ws x) :
    DerivesExpr .unary ws (.ident x) := by
  induction h with
  | name x => exact .bare (.ident x)
  | paren l r _ ih => exact .bare (.paren l r ih.toAssignment)

lemma DerivesExpr.target {c : Category} {ws : List Word} {x : String}
    (h : DerivesExpr c ws (.ident x)) : Target ws x := by
  generalize he : Expr.ident x = e at h
  induction h with
  | plain _ ih | single _ _ ih | bare _ ih => exact ih he
  | paren l r _ ih => exact .paren l r (ih he)
  | ident y =>
    obtain rfl := Expr.ident.inj he
    exact .name x
  | joined _ hrung => cases hrung <;> cases he
  | assign | signed | number | text | trueLit | falseLit | nullLit => cases he

/-! ## First words -/

/-- The kinds of words that an expression may begin with. -/
def startsExpr (k : Kind) : Bool :=
  k.isLiteral || k == .openParen || k == .identifier || k == .additive || k == .logicalNot

/-- The kinds of words that a statement may begin with. -/
def startsStmt (k : Kind) : Bool :=
  startsExpr k || k == .semicolon || k == .ifWord || k == .openCurly || k == .letWord

lemma Target.starts {ws : List Word} {x : String} (h : Target ws x) :
    ∃ w us, ws = w :: us ∧ startsExpr w.kind := by
  cases h with
  | name | paren => exact ⟨_, _, rfl, rfl⟩

lemma DerivesExpr.starts {c : Category} {ws : List Word} {e : Expr} (h : DerivesExpr c ws e) :
    ∃ w us, ws = w :: us ∧ startsExpr w.kind := by
  induction h with
  | plain _ ih | single _ _ ih | bare _ ih => exact ih
  | assign _ _ hx _ _ =>
    obtain ⟨w, us, rfl, hw⟩ := hx.starts
    exact ⟨w, _, rfl, hw⟩
  | joined _ _ _ _ ih _ =>
    obtain ⟨w, us, rfl, hw⟩ := ih
    exact ⟨w, _, rfl, hw⟩
  | signed _ hk _ _ => exact ⟨_, _, rfl, by rcases hk with rfl | rfl <;> rfl⟩
  | number | text | trueLit | falseLit | nullLit | paren | ident => exact ⟨_, _, rfl, rfl⟩

lemma startsStmt_of_startsExpr {k : Kind} (h : startsExpr k) : startsStmt k := by
  simp [startsStmt, h]

lemma DerivesStmt.starts {ws : List Word} {s : Stmt} (h : DerivesStmt ws s) :
    ∃ w us, ws = w :: us ∧ startsStmt w.kind := by
  cases h with
  | expr _ h =>
    obtain ⟨w, us, rfl, hw⟩ := h.starts
    exact ⟨w, _, rfl, startsStmt_of_startsExpr hw⟩
  | empty | ifThen | ifElse | block | declare => exact ⟨_, _, rfl, rfl⟩

lemma DerivesStmt.starts_of_endsOpen {ws : List Word} {s : Stmt} (h : DerivesStmt ws s)
    (hopen : s.endsOpen) : ∃ w us, ws = w :: us ∧ w.kind = .ifWord := by
  cases h with
  | ifThen | ifElse => exact ⟨_, _, rfl, rfl⟩
  | empty | block | declare | expr => cases hopen

/-! ## Growing on the right -/

lemma DerivesDeclarations.snoc {ws us : List Word} {ds : List Declaration} {d : Declaration}
    (hds : DerivesDeclarations ws ds) (o : String) (hd : DerivesDeclaration us d) :
    DerivesDeclarations (ws ++ ⟨.comma, o⟩ :: us) (ds ++ [d]) := by
  induction hds with
  | one h => exact .more o h (.one hd)
  | more o' h _ ih =>
    rw [List.append_assoc, List.cons_append, List.cons_append]
    exact .more o' h ih

lemma DerivesBody.append {ws us : List Word} {body body' : List Stmt} (h : DerivesBody ws body)
    (h' : DerivesBody us body') : DerivesBody (ws ++ us) (body ++ body') := by
  induction body generalizing ws with
  | nil =>
    cases h
    exact h'
  | cons s body ih =>
    cases h with
    | cons hs hbody =>
      rw [List.append_assoc, List.cons_append]
      exact .cons hs (ih hbody)

lemma DerivesBody.snoc {ws us : List Word} {body : List Stmt} {s : Stmt}
    (hbody : DerivesBody ws body) (hs : DerivesStmt us s) :
    DerivesBody (ws ++ us) (body ++ [s]) := by
  simpa using hbody.append (.cons hs .nil)

/-! ## Last words -/

/-- The kinds of words that a statement may end with. -/
def endsStmt (k : Kind) : Bool := k == .semicolon || k == .closeCurly

lemma DerivesStmt.ends {ws : List Word} {s : Stmt} (h : DerivesStmt ws s) :
    ∃ w, ws.getLast? = some w ∧ endsStmt w.kind := by
  cases h with
  | empty o => exact ⟨_, rfl, rfl⟩
  | ifThen i l r _ hs | ifElse i l r _ _ _ _ hs =>
    obtain ⟨w, hlast, hw⟩ := hs.ends
    exact ⟨w, by simp [List.getLast?_cons, hlast], hw⟩
  | block | declare | expr => exact ⟨_, List.getLast?_concat, rfl⟩

lemma DerivesBody.ends {ws : List Word} {body : List Stmt} (h : DerivesBody ws body) {w : Word}
    (hw : ws.getLast? = some w) : endsStmt w.kind := by
  induction body generalizing ws with
  | nil =>
    cases h
    cases hw
  | cons s body ih =>
    cases h with
    | @cons us vs _ _ hs hbody =>
    rw [List.getLast?_append] at hw
    cases hlast : vs.getLast? with
    | some w' =>
      rw [hlast] at hw
      obtain rfl := Option.some.inj hw
      exact ih hbody hlast
    | none =>
      obtain ⟨w', hlast', hw'⟩ := hs.ends
      rw [hlast, hlast'] at hw
      obtain rfl := Option.some.inj hw
      exact hw'

end Grammar

end Scriptlet
