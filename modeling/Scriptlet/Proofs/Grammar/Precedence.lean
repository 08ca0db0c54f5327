/-
# Precedence

Where operands follow each other with operators between them, two rules group them: a looser
operator is further out, and of operators that bind alike the later one is.  So a chain of operands
falls apart at the last of its loosest operators, and both parts fall apart in the same way
(`Chain.tree`).

The parser has one loop for each level, which knows nothing of the operators of looser levels.  What
the loops do together is told by the grammar: the part before the operator at which a chain falls
apart has no looser operator, so it is of the level of the operator, and the part behind it has only
tighter ones, so it is of the next level (`Chain.derives`).
-/
import Scriptlet.Proofs.Tree.RoundTrip

namespace Scriptlet

open Grammar

/-! ## Operators and chains -/

/-- The operators that stand between two operands. -/
inductive Operator where
  | or
  | and
  | equal
  | unequal
  | less
  | lessEqual
  | greater
  | greaterEqual
  | plus
  | minus
  | times
  | divide
deriving DecidableEq, Repr

namespace Operator

/-- The text of an operator. -/
def text : Operator → String
  | or => "||"
  | and => "&&"
  | equal => "=="
  | unequal => "!="
  | less => "<"
  | lessEqual => "<="
  | greater => ">"
  | greaterEqual => ">="
  | plus => "+"
  | minus => "-"
  | times => "*"
  | divide => "/"

/-- How tightly an operator binds its operands. -/
def tightness : Operator → Nat
  | or => 0
  | and => 1
  | equal | unequal => 2
  | less | lessEqual | greater | greaterEqual => 3
  | plus | minus => 4
  | times | divide => 5

/-- The tree of an operator with its operands. -/
def node : Operator → Expr → Expr → Expr
  | or, left, right => .logical "||" left right
  | and, left, right => .logical "&&" left right
  | o, left, right => .binary o.text left right

end Operator

/-- One operand or more, with operators between them. -/
inductive Chain (α : Type) where
  | one (a : α)
  | more (a : α) (o : Operator) (rest : Chain α)
deriving DecidableEq, Repr

/-- A chain that is taken apart at one of its operators. -/
structure Split (α : Type) where
  /-- What is before the operator. -/
  left : Chain α
  /-- The operator. -/
  operator : Operator
  /-- What is behind it. -/
  right : Chain α

namespace Chain

variable {α β : Type}

/-- The operands of a chain. -/
def operands : Chain α → List α
  | one a => [a]
  | more a _ rest => a :: rest.operands

/-- The operators of a chain. -/
def operators : Chain α → List Operator
  | one _ => []
  | more _ o rest => o :: rest.operators

/-- The first operand of a chain. -/
def first : Chain α → α
  | one a | more a _ _ => a

/-- The chain of what becomes of the operands. -/
def map (f : α → β) : Chain α → Chain β
  | one a => one (f a)
  | more a o rest => more (f a) o (rest.map f)

/-- Two chains with an operator between them. -/
def append (left : Chain α) (o : Operator) (right : Chain α) : Chain α :=
  match left with
  | one a => more a o right
  | more a o' rest => more a o' (rest.append o right)

/-- The text of a chain of texts, with single spaces around the operators. -/
def text : Chain String → String
  | one a => a
  | more a o rest => a ++ " " ++ o.text ++ " " ++ rest.text

/-- Takes a chain apart at the last of its loosest operators. -/
def split? : Chain α → Option (Split α)
  | one _ => none
  | more a o rest =>
    match rest.split? with
    | none => some ⟨one a, o, rest⟩
    | some s =>
      if s.operator.tightness ≤ o.tightness then some ⟨more a o s.left, s.operator, s.right⟩
      else some ⟨one a, o, rest⟩

@[simp] lemma operators_append (l : Chain α) (o : Operator) (r : Chain α) :
    (l.append o r).operators = l.operators ++ o :: r.operators := by
  induction l with
  | one a => rfl
  | more a o' rest ih => rw [append, operators, operators, ih, List.cons_append]

@[simp] lemma operands_append (l : Chain α) (o : Operator) (r : Chain α) :
    (l.append o r).operands = l.operands ++ r.operands := by
  induction l with
  | one a => rfl
  | more a o' rest ih => rw [append, operands, operands, ih, List.cons_append]

@[simp] lemma operators_map (f : α → β) (c : Chain α) : (c.map f).operators = c.operators := by
  induction c with
  | one a => rfl
  | more a o rest ih => rw [map, operators, operators, ih]

@[simp] lemma map_id (c : Chain α) : c.map id = c := by
  induction c with
  | one a => rfl
  | more a o rest ih => rw [map, ih, id]

@[simp] lemma map_append (f : α → β) (l : Chain α) (o : Operator) (r : Chain α) :
    (l.append o r).map f = (l.map f).append o (r.map f) := by
  induction l with
  | one a => rfl
  | more a o' rest ih => rw [append, map, map, append, ih]

/-- A chain falls apart at the operator `o`, which is the last of the loosest ones. -/
structure FallsApart (l : Chain α) (o : Operator) (r : Chain α) : Prop where
  /-- No operator before it is looser. -/
  left : ∀ o' ∈ l.operators, o.tightness ≤ o'.tightness
  /-- All operators behind it are tighter. -/
  right : ∀ o' ∈ r.operators, o.tightness < o'.tightness

lemma FallsApart.map {l r : Chain α} {o : Operator} (h : FallsApart l o r) (f : α → β) :
    FallsApart (l.map f) o (r.map f) :=
  ⟨by simpa using h.left, by simpa using h.right⟩

/-- Every chain with an operator falls apart. -/
lemma exists_one_of_split? {c : Chain α} (h : c.split? = none) : ∃ a, c = one a := by
  cases c with
  | one a => exact ⟨a, rfl⟩
  | more a o rest =>
    rw [split?] at h
    split at h
    · cases h
    · split at h <;> cases h

lemma fallsApart_of_split? {c : Chain α} {s : Split α} (h : c.split? = some s) :
    c = s.left.append s.operator s.right ∧ FallsApart s.left s.operator s.right := by
  induction c generalizing s with
  | one a => cases h
  | more a o rest ih =>
    rw [split?] at h
    split at h
    · next hnone =>
      obtain rfl := Option.some.inj h
      obtain ⟨b, rfl⟩ := exists_one_of_split? hnone
      exact ⟨rfl, by simp [operators], by simp [operators]⟩
    · next t ht =>
      obtain ⟨hrest, hleft, hright⟩ := ih ht
      split at h
      · next hle =>
        obtain rfl := Option.some.inj h
        exact ⟨congrArg (more a o) hrest, List.forall_mem_cons.mpr ⟨hle, hleft⟩, hright⟩
      · next hlt =>
        obtain rfl := Option.some.inj h
        refine ⟨rfl, by simp [operators], fun o' ho' => ?_⟩
        -- the loosest operator behind `o` is tighter than `o`, and so are all of them
        rw [hrest, operators_append] at ho'
        rcases List.mem_append.mp ho' with ho' | ho'
        · have hle := hleft o' ho'
          show o.tightness < o'.tightness
          omega
        · rcases List.mem_cons.mp ho' with rfl | ho'
          · show o.tightness < t.operator.tightness
            omega
          · have hlt' := hright o' ho'
            show o.tightness < o'.tightness
            omega

/-- Where a chain falls apart is where it is taken apart. -/
lemma split?_append {l r : Chain α} {o : Operator} (h : FallsApart l o r) :
    (l.append o r).split? = some ⟨l, o, r⟩ := by
  induction l with
  | one a =>
    rw [append, split?]
    split
    · rfl
    · next s hs =>
      have hmem : s.operator ∈ r.operators := by
        rw [(fallsApart_of_split? hs).1, operators_append]
        exact List.mem_append_right _ List.mem_cons_self
      have hlt := h.right _ hmem
      rw [if_neg (by omega)]
  | more a o' rest ih =>
    obtain ⟨hle, hrest⟩ := List.forall_mem_cons.mp h.left
    rw [append, split?, ih ⟨hrest, h.right⟩]
    exact if_pos hle

lemma length_operators_lt_of_split? {c : Chain α} {s : Split α} (h : c.split? = some s) :
    s.left.operators.length < c.operators.length ∧
      s.right.operators.length < c.operators.length := by
  have hlength : c.operators.length =
      s.left.operators.length + (s.right.operators.length + 1) := by
    conv_lhs => rw [(fallsApart_of_split? h).1]
    rw [operators_append, List.length_append, List.length_cons]
  omega

/-- The tree of a chain: the chain falls apart at the last of its loosest operators, which is the
root, and so do its parts. -/
def tree (c : Chain Expr) : Expr :=
  match h : c.split? with
  | none => c.first
  | some s =>
    have := length_operators_lt_of_split? h
    s.operator.node s.left.tree s.right.tree
termination_by c.operators.length

@[simp] lemma tree_one (e : Expr) : (one e).tree = e := by
  rw [tree]
  rfl

lemma tree_append {l r : Chain Expr} {o : Operator} (h : FallsApart l o r) :
    (l.append o r).tree = o.node l.tree r.tree := by
  rw [tree]
  split
  · next hnone =>
    rw [split?_append h] at hnone
    cases hnone
  · next s hs =>
    obtain rfl := Option.some.inj ((split?_append h).symm.trans hs)
    rfl

/-- What holds of single operands, and of a chain that falls apart if it holds of the parts, holds of
all chains. -/
lemma fallsApart_induction {P : Chain α → Prop} (hone : ∀ a, P (one a))
    (happend : ∀ l o r, FallsApart l o r → P l → P r → P (l.append o r)) (c : Chain α) : P c := by
  induction hlength : c.operators.length using Nat.strongRecOn generalizing c with
  | ind length ih =>
    cases hsplit : c.split? with
    | none =>
      obtain ⟨a, rfl⟩ := exists_one_of_split? hsplit
      exact hone a
    | some s =>
      obtain ⟨hc, hapart⟩ := fallsApart_of_split? hsplit
      obtain ⟨hleft, hright⟩ := length_operators_lt_of_split? hsplit
      rw [hc]
      exact happend _ _ _ hapart (ih _ (hlength ▸ hleft) _ rfl) (ih _ (hlength ▸ hright) _ rfl)

end Chain

/-! ## Operators and levels -/

namespace Operator

/-- The level of an operator. -/
def level : Operator → Level
  | or => .logicalOr
  | and => .logicalAnd
  | equal | unequal => .equality
  | less | lessEqual | greater | greaterEqual => .relational
  | plus | minus => .additive
  | times | divide => .multiplicative

/-- The kind of an operator as a word. -/
def kind : Operator → Kind
  | or => .logicalOr
  | and => .logicalAnd
  | equal | unequal => .equality
  | less | lessEqual | greater | greaterEqual => .relational
  | plus | minus => .additive
  | times | divide => .multiplicative

lemma operator?_level (o : Operator) : o.level.operator? = some o.kind := by
  cases o <;> rfl

lemma rank_level (o : Operator) : o.level.rank = o.tightness := by
  cases o <;> rfl

lemma rank_next_level (o : Operator) : o.level.next.rank = o.tightness + 1 := by
  cases o <;> rfl

lemma join_level (o : Operator) (l r : Expr) : o.level.join o.text l r = o.node l r := by
  cases o <;> rfl

lemma text_mem_texts (o : Operator) : o.text ∈ o.kind.texts := by
  cases o <;> decide

end Operator

/-- What is derived at a level is derived at all looser ones. -/
lemma Grammar.DerivesExpr.loosen {level level' : Level} {ws : List Word} {e : Expr}
    (hle : level.rank ≤ level'.rank) (h : DerivesExpr (category level') ws e) :
    DerivesExpr (category level) ws e := by
  refine level_induction (P := fun level => level.rank ≤ level'.rank →
    DerivesExpr (category level) ws e) ?_ ?_ level hle
  · intro hle
    have hunary : level' = .unary := by cases level' <;> first | rfl | simp [Level.rank] at hle
    rwa [hunary] at h
  · intro level k hlevel hnext hle
    by_cases heq : level.rank = level'.rank
    · have hsame : level = level' := by
        cases level <;> cases level' <;> first | rfl | simp [Level.rank] at heq
      rwa [hsame]
    · have hrank : level.next.rank = level.rank + 1 := by cases level <;> first | rfl | cases hlevel
      exact .single (rung_of_operator? hlevel) (hnext (by omega))

lemma Grammar.DerivesBody.single {ws : List Word} {st : Stmt} (h : DerivesStmt ws st) :
    DerivesBody ws [st] := by
  simpa using DerivesBody.cons h .nil

/-! ## The words of a chain -/

/-- What is cut into words before any text is cut into them by itself. -/
lemma ReadAs.scans {s : String} {ws : List Word} (h : ReadAs s ws) : Scans s.toList ws := by
  have hnil : Scans [] [] := .nil fun _ hc => absurd hc List.not_mem_nil
  simpa using h _ _ breaks_nil hnil

lemma ReadAs.scans_semicolon {s : String} {ws : List Word} (h : ReadAs s ws) :
    Scans (s.toList ++ [';']) (ws ++ [⟨.semicolon, ";"⟩]) := by
  have hnil : Scans [] [] := .nil fun _ hc => absurd hc List.not_mem_nil
  exact h _ _ (breaks_cons rfl) (scans_mark ';' .semicolon rfl hnil)

namespace Chain

variable {α : Type}

/-- The words of a chain of words. -/
def words : Chain (List Word) → List Word
  | one ws => ws
  | more ws o rest => ws ++ ⟨o.kind, o.text⟩ :: rest.words

lemma words_append (l : Chain (List Word)) (o : Operator) (r : Chain (List Word)) :
    (l.append o r).words = l.words ++ ⟨o.kind, o.text⟩ :: r.words := by
  induction l with
  | one ws => rfl
  | more ws o' rest ih => rw [append, words, words, ih, List.append_assoc, List.cons_append]

/-- **A chain of operands derives its tree** at every level that is no tighter than its operators. -/
lemma derives (words : α → List Word) (expr : α → Expr) (c : Chain α)
    (h : ∀ a ∈ c.operands, DerivesExpr .unary (words a) (expr a)) (level : Level)
    (hlevel : ∀ o ∈ c.operators, level.rank ≤ o.tightness) :
    DerivesExpr (category level) (c.map words).words (c.map expr).tree := by
  induction c using fallsApart_induction generalizing level with
  | hone a =>
    rw [map, map, tree_one]
    exact (h a List.mem_cons_self).atLevel level
  | happend l o r hapart ihl ihr =>
    rw [operands_append, List.forall_mem_append] at h
    rw [operators_append] at hlevel
    have hleft := ihl h.1 o.level fun o' ho' => by
      rw [o.rank_level]
      exact hapart.left o' ho'
    have hright := ihr h.2 o.level.next fun o' ho' => by
      rw [o.rank_next_level]
      exact hapart.right o' ho'
    have hjoined := DerivesExpr.joined o.text (rung_of_operator? o.operator?_level) hleft hright
    rw [o.join_level] at hjoined
    rw [map_append, map_append, words_append, tree_append (hapart.map expr)]
    refine hjoined.loosen ?_
    rw [o.rank_level]
    exact hlevel o (List.mem_append_right _ List.mem_cons_self)

lemma readAs (text : α → String) (words : α → List Word) (c : Chain α)
    (h : ∀ a ∈ c.operands, ReadAs (text a) (words a)) :
    ReadAs (c.map text).text (c.map words).words := by
  induction c with
  | one a => exact h a List.mem_cons_self
  | more a o rest ih =>
    obtain ⟨ha, hrest⟩ := List.forall_mem_cons.mp h
    intro cs us hbreaks hscans
    have hoperator := scans_text o.text_mem_texts (ih hrest cs us hbreaks hscans)
    have hleft := ha _ _ (breaks_cons rfl) (hoperator.blank (c := ' ') rfl)
    simpa [map, Chain.text, Chain.words] using hleft

/-- **A chain of operands is read back as an expression of the loosest level.** -/
lemma exists_readAs (text : α → String) (expr : α → Expr) (c : Chain α)
    (h : ∀ a ∈ c.operands, ∃ ws, DerivesExpr .unary ws (expr a) ∧ ReadAs (text a) ws) :
    ∃ ws, DerivesExpr .logicalOr ws (c.map expr).tree ∧ ReadAs (c.map text).text ws := by
  choose! words hderives hreads using h
  exact ⟨_, derives words expr c hderives .logicalOr fun o _ => Nat.zero_le _,
    readAs text words c hreads⟩

end Chain

/-! ## Parsing chains -/

/-- An expression that the parser yields for some source.  It does not matter where in a tree the
expression is, since it may be printed as a source of its own (`Expr.isParsed_iff`). -/
def Expr.IsParsed (e : Expr) : Prop := ∃ source file, parse source file = .ok ⟨[.expr e]⟩

lemma Expr.isParsed_iff {e : Expr} : e.IsParsed ↔ e.isWellFormed := by
  have hstatement : (⟨[.expr e]⟩ : Program).isWellFormed ↔ e.isWellFormed := by
    simp [Program.isWellFormed, Stmt.allWellFormed, Stmt.isWellFormed]
  rw [← hstatement]
  constructor
  · rintro ⟨source, file, h⟩
    exact isWellFormed_of_parse h
  · intro h
    exact ⟨_, none, parse_print_of_isWellFormed h none⟩

/-- **Precedence and associativity.**  Expressions that are printed one after the other, with
operators between them, are parsed as an expression that has at its root the last of the loosest
operators, and below it the trees of what is before that operator and of what is behind it. -/
theorem parse_chain (c : Chain Expr) (file : Option String)
    (h : ∀ e ∈ c.operands, e.IsParsed) :
    parse ((c.map Expr.print).text ++ ";") file = .ok ⟨[.expr c.tree]⟩ := by
  have hoperands : ∀ e ∈ c.operands, ∃ ws, DerivesExpr .unary ws e ∧ ReadAs e.print ws :=
    fun e he => Expr.readsBack_of_isWellFormed (Expr.isParsed_iff.mp (h e he))
  obtain ⟨ws, hderives, hread⟩ := Chain.exists_readAs Expr.print id c hoperands
  rw [Chain.map_id] at hderives
  refine parse_of_derives ?_ (.single (.expr ";" (.plain hderives)))
  rw [String.toList_append]
  exact hread.scans_semicolon

/-- In `a - b - (c = d) * -e || f` the disjunction is the root, and the differences group to the
left. -/
theorem parse_chain_differences :
    parse "a - b - (c = d) * -e || f;" none =
      .ok ⟨[.expr (.logical "||"
        (.binary "-" (.binary "-" (.ident "a") (.ident "b"))
          (.binary "*" (.assign "=" "c" (.ident "d")) (.unary "-" (.ident "e"))))
        (.ident "f"))]⟩ := by
  refine (parse_chain (.more (.ident "a") .minus (.more (.ident "b") .minus
    (.more (.assign "=" "c" (.ident "d")) .times (.more (.unary "-" (.ident "e")) .or
      (.one (.ident "f")))))) none ?_).trans ?_
  · simp only [Chain.operands, List.forall_mem_cons]
    refine ⟨⟨"a;", none, by cbv⟩, ⟨"b;", none, by cbv⟩, ⟨"c = d;", none, by cbv⟩,
      ⟨"-e;", none, by cbv⟩, ⟨"f;", none, by cbv⟩, by simp⟩
  · cbv

end Scriptlet
