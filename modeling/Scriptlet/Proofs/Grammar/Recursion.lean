/-
# The rules without bounds

The rules are given bounds on the tokens that are left, and so they terminate by construction.  The
grammar knows no bounds: its rules call each other, and repeat steps as long as the lookahead allows
it.  Here each rule is written down in this form (`Rule.body`), with what it means to call a rule
and to repeat a step left open (`Recursion`).

If both are done by the rules with their bounds, the bodies are just these rules
(`Rule.run_eq_body`).  If both are limited instead, the calls in their depth and the repetitions in
their rounds, then a step that reaches a limit breaks off, and has no result at all
(`Recursion.limited`).  So this is the recursion of the grammar as it runs, and it terminates if it
stays within some limits.
-/
import Scriptlet.Grammar.Parse
import Scriptlet.Proofs.Grammar.Bound

namespace Scriptlet

open Reading Grammar

/-- What it means to repeat a step and to call a rule. -/
structure Recursion (m : Type → Type) where
  /-- Repeats a step while the kind of the lookahead allows it. -/
  repeatWhile {α : Type} (more : Option Kind → Bool) (step : α → m α) (a : α) : m α
  /-- Reads by a rule. -/
  call (rule : Rule) : m rule.Result

/-! ## The bodies of the rules -/

section Bodies

variable {m : Type → Type}

/-- Calls a rule that gives an expression. -/
abbrev Recursion.expr (r : Recursion m) (rule : ExprRule) : m Expr := r.call (.expression rule)

/-- Calls a rule that gives a statement. -/
abbrev Recursion.stmt (r : Recursion m) (rule : StmtRule) : m Stmt := r.call (.statement rule)

variable [Monad m] [MonadLiftT Reading m] (r : Recursion m)

/-- What the rules of expressions do. -/
def ExprRule.body : ExprRule → m Expr
  | expression => r.expr .assignment
  | assignment => do
    let left ← r.expr (.binary .logicalOr)
    match ← peek with
    | some k =>
      if k.isAssignment then
        let operator ← expect k
        let name ← target operator left
        return .assign operator.value name (← r.expr .assignment)
      else return left
    | none => return left
  | binary level =>
    match level.operator? with
    | none => r.expr .unary
    | some k => do
      let first ← r.expr (.binary level.next)
      r.repeatWhile (· == some k) (fun left => do
        let operator ← expect k
        return level.join operator.value left (← r.expr (.binary level.next))) first
  | unary => do
    match ← peek with
    | some .additive =>
      let operator ← expect .additive
      return .unary operator.value (← r.expr .unary)
    | some .logicalNot =>
      let operator ← expect .logicalNot
      return .unary operator.value (← r.expr .unary)
    | _ => r.expr .primary
  | primary => do
    match ← peek with
    | some .openParen => r.expr .grouping
    | some k => if k.isLiteral then r.expr .literal else .ident <$> r.call .identifier
    | none => .ident <$> r.call .identifier
  | grouping => do
    let _ ← expect .openParen
    let e ← r.expr .expression
    let _ ← expect .closeParen
    return e
  | literal => Grammar.literal
  | numeric => Grammar.numeric
  | text => quotedText

/-- What the rules of statements do. -/
def StmtRule.body : StmtRule → m Stmt
  | statement => do
    match ← peek with
    | some .semicolon => r.stmt .empty
    | some .ifWord => r.stmt .conditional
    | some .openCurly => r.stmt .block
    | some .letWord => r.stmt .declarations
    | _ => r.stmt .expression
  | empty => emptyStatement
  | block => do
    let _ ← expect .openCurly
    let body ← r.call (.statements (some .closeCurly))
    let _ ← expect .closeCurly
    return .block body
  | conditional => do
    let _ ← expect .ifWord
    let _ ← expect .openParen
    let test ← r.expr .expression
    let _ ← expect .closeParen
    let consequent ← r.stmt .statement
    match ← peek with
    | some .elseWord =>
      let _ ← expect .elseWord
      return .ifElse test consequent (← r.stmt .statement)
    | _ => return .ifThen test consequent
  | declarations => do
    let _ ← expect .letWord
    let first ← r.call .declaration
    let ds ← r.repeatWhile (· == some .comma) (fun ds => do
      let _ ← expect .comma
      return ds.push (← r.call .declaration)) #[first]
    let _ ← expect .semicolon
    return .declare ds.toList
  | expression => do
    let e ← r.expr .expression
    let _ ← expect .semicolon
    return .expr e

/-- What a rule does. -/
def Rule.body : (rule : Rule) → m rule.Result
  | program => do return (⟨← r.call (.statements none)⟩ : Program)
  | statements stop => do
    let body ← r.repeatWhile (fun k => k.isSome && k != stop) (fun body => do
      return body.push (← r.stmt .statement)) #[]
    return body.toList
  | statement rule => rule.body r
  | declaration => do
    let name ← r.call .identifier
    match ← peek with
    | some .simpleAssign =>
      let _ ← expect .simpleAssign
      return (⟨name, some (← r.expr .assignment)⟩ : Declaration)
    | _ => return (⟨name, none⟩ : Declaration)
  | identifier => Grammar.identifier
  | expression rule => rule.body r

/-- Reads a source from its beginning to its end. -/
def Recursion.parse (source : String) : m Program := do
  load source
  let p ← r.call .program
  note (.parsed p.body.length)
  return p

end Bodies

/-! ## Recursion within limits -/

/-- A step of a session that may break off.  It has a result, which is a success or a failure and
the session that is left, only if it does not. -/
abbrev Attempt := ExceptT Error (StateT Session Option)

namespace Attempt

/-- A step that breaks off. -/
def breakOff {α : Type} : Attempt α := fun _ => none

instance : MonadLift Reading Attempt := ⟨fun p s => some (p.runOn s)⟩

/-- Repeats a step while the kind of the lookahead allows it, and breaks off when it is to be
repeated more than `n` times. -/
def repeatWhile {α : Type} (more : Option Kind → Bool) (step : α → Attempt α) :
    Nat → α → Attempt α
  | 0, a => do
    if more (← peek) then breakOff else return a
  | n + 1, a => do
    if more (← peek) then repeatWhile more step n (← step a) else return a

end Attempt

/-- The recursion of the grammar within limits: a repetition has at most so many rounds, and calls
are nested at most so deep. -/
def Recursion.limited (rounds : Nat) : Nat → Recursion Attempt
  | 0 => ⟨fun more step => Attempt.repeatWhile more step rounds, fun _ => Attempt.breakOff⟩
  | depth + 1 => ⟨fun more step => Attempt.repeatWhile more step rounds,
      fun rule => rule.body (limited rounds depth)⟩

/-- The recursion of the rules with their bounds. -/
def Recursion.bounded : Recursion Reading :=
  ⟨fun more step a => withRoom fun n => Reading.repeatWhile more step n a, Rule.run⟩

/-! ## The bounded rules are their bodies -/

namespace Grammar

section Combinators

variable {α : Type} {n a : Nat} {p q r : Reading α} {f : Nat → Reading α}

lemma AgreeUpTo.symm (h : AgreeUpTo n p q) : AgreeUpTo n q p := fun s hroom => (h s hroom).symm

lemma AgreeUpTo.trans (h : AgreeUpTo n p q) (h' : AgreeUpTo n q r) : AgreeUpTo n p r :=
  fun s hroom => (h s hroom).trans (h' s hroom)

/-- The room of a session is a bound like others. -/
lemma agree_withRoom (h : ∀ m ≤ n, AgreeUpTo m p (f m)) : AgreeUpTo n p (withRoom f) :=
  fun s hroom => h s.room hroom s (Nat.le_refl _)

lemma withRoom_eq (h : ∀ n, AgreeUpTo n (f n) p) : withRoom f = p :=
  funext fun s => h s.room s (Nat.le_refl _)

/-- A rule that does not depend on a bound that is large enough. -/
lemma agree_withRoom_of_le (hf : ∀ m a, m ≤ a → AgreeUpTo m (f m) (f a)) (h : n ≤ a) :
    AgreeUpTo n (f a) (withRoom f) :=
  agree_withRoom fun m hm => (hf m a (Nat.le_trans hm h)).symm

/-- A rule that begins with a token, and may be given a bound on what is behind it. -/
lemma agree_withRoom_succ (hf : ∀ m a, m ≤ a → AgreeUpTo (m + 1) (f m) (f a)) (h : n ≤ a + 1) :
    AgreeUpTo n (f a) (withRoom f) := by
  refine agree_withRoom fun m hm => ?_
  have hle : m ≤ m - 1 + 1 := by omega
  exact ((hf (m - 1) a (by omega)).mono hle).symm.trans ((hf (m - 1) m (by omega)).mono hle)

/-- A repetition of steps that consume tokens, with the room of the session as the bound. -/
lemma agree_repeatWhile_bounded {more : Option Kind → Bool} {step step' : α → Reading α}
    (hmore : more none = false) (hstep : ∀ a, AgreeUpTo n (step a) (step' a))
    (hsound : ∀ a, Sound (step a) fun ws _ => ws ≠ []) (h : n ≤ a) (b : α) :
    AgreeUpTo n (repeatWhile more step a b) (Recursion.bounded.repeatWhile more step' b) :=
  agree_withRoom fun m hm => agree_repeatWhile hmore (fun a => (hstep a).mono hm) hsound
    (Nat.le_trans hm h) (Nat.le_refl m) b

end Combinators

variable {n a i : Nat}

/-! Each rule, with any bounds that are large enough, agrees with the rule that is given the room of
the session. -/

lemma expression_agree_run (h : n ≤ a) : AgreeUpTo n (expression a) ExprRule.expression.run :=
  agree_withRoom_of_le (fun _ _ => expression_agree) h

lemma expression_agree_of_le (ha : n ≤ a) (hi : n ≤ i) :
    AgreeUpTo n (expression a) (expression i) :=
  (expression_agree ha).symm.trans (expression_agree hi)

lemma grouping_agree_run (h : n ≤ a + 1) :
    AgreeUpTo n (grouping (expression a)) ExprRule.grouping.run := by
  refine agree_withRoom_succ (f := fun n => grouping (expression n)) (fun m a hma => ?_) h
  refine agree_expect_bind fun _ => ?_
  exact (expression_agree hma).bind (expression_sound m) fun _ _ _ => .refl _

lemma primary_agree_run (h : n ≤ a + 1) :
    AgreeUpTo n (primary (expression a)) ExprRule.primary.run :=
  agree_withRoom_succ (f := fun n => primary (expression n))
    (fun m _ hma => primary_agree (expression_sound m) (expression_agree hma)) h

lemma unary_agree_run (hi : n ≤ i + 1) (h : n ≤ a) :
    AgreeUpTo n (unary (expression i) a) ExprRule.unary.run := by
  refine agree_withRoom (f := fun n => unary (expression n) n) fun m hm => ?_
  have hinner : AgreeUpTo (m - 1) (expression i) (expression m) :=
    expression_agree_of_le (by omega) (by omega)
  exact unary_agree (expression_sound i) hinner (by omega) (by omega) (Nat.le_refl m)

lemma binary_agree_run (level : Level) (hi : n ≤ i + 1) (h : n ≤ a) :
    AgreeUpTo n (binary (expression i) a level) (ExprRule.binary level).run := by
  refine agree_withRoom (f := fun n => binary (expression n) n level) fun m hm => ?_
  cases m with
  | zero => exact (binary_atEnd _ _ _).agreeUpTo (binary_atEnd _ _ _)
  | succ m =>
    have hinner : AgreeUpTo m (expression i) (expression (m + 1)) :=
      expression_agree_of_le (by omega) (by omega)
    exact binary_agree (expression_sound i) hinner (by omega) (Nat.le_refl _) level

lemma statement_agree_run (h : n ≤ a) : AgreeUpTo n (statement a) StmtRule.statement.run :=
  agree_withRoom_of_le (fun _ _ => statement_agree) h

lemma statements_agree_run (stop : Option Kind) (h : n ≤ a) :
    AgreeUpTo n (statements (statement a) a stop) (Rule.statements stop).run :=
  agree_withRoom_of_le (f := fun n => statements (statement n) n stop)
    (fun m _ hma => statements_agree (statement_sound m) (statement_agree hma) (Nat.le_refl m) hma
      stop) h

lemma block_agree_run (h : n ≤ a + 1) :
    AgreeUpTo n (block (statement a) a) StmtRule.block.run :=
  agree_withRoom_succ (f := fun n => block (statement n) n)
    (fun m _ hma => block_agree (statement_sound m) (statement_agree hma) (Nat.le_refl m) hma) h

lemma conditional_agree_run (h : n ≤ a + 1) :
    AgreeUpTo n (conditional (statement a) a) StmtRule.conditional.run :=
  agree_withRoom_succ (f := fun n => conditional (statement n) n)
    (fun m _ hma => conditional_agree (statement_sound m) (statement_agree hma) hma) h

lemma declarations_agree_run (h : n ≤ a + 1) :
    AgreeUpTo n (declarations a) StmtRule.declarations.run :=
  agree_withRoom_succ (fun _ _ => declarations_agree) h

lemma declaration_agree_run (h : n ≤ a) : AgreeUpTo n (declaration a) Rule.declaration.run :=
  agree_withRoom_of_le (fun _ _ => declaration_agree) h

lemma expressionStatement_agree_run (h : n ≤ a) :
    AgreeUpTo n (expressionStatement a) StmtRule.expression.run :=
  agree_withRoom_of_le (fun _ _ => expressionStatement_agree) h

end Grammar

/-! The equations of the rules, from the agreement of what they are made of. -/

lemma ExprRule.run_eq_body (rule : ExprRule) : rule.run = rule.body .bounded := by
  cases rule with
  | expression | literal | numeric | text => rfl
  | assignment =>
    rw [run]
    refine withRoom_eq fun n => ?_
    cases n with
    | zero =>
      have hleft : AtEnd (ExprRule.binary .logicalOr).run :=
        fun s => binary_atEnd (Grammar.expression s.room) s.room .logicalOr s
      exact (expression_atEnd 0).agreeUpTo hleft.bind
    | succ n =>
      refine (binary_agree_run .logicalOr (Nat.le_refl _) (Nat.le_refl _)).bind
        (binary_sound (expression_sound n) _ _) fun _ left _ => ?_
      refine agree_peek fun k => ?_
      rcases k with _ | k
      · exact .refl _
      · dsimp only
        split
        · refine agree_expect_bind fun o => ?_
          cases left with
          | ident x =>
            exact (expression_agree_run (Nat.le_refl n)).bind (expression_sound n)
              fun _ _ _ => .refl _
          | _ => exact .refl _
        · exact .refl _
  | binary level =>
    rw [run]
    refine withRoom_eq fun n => ?_
    cases hlevel : level.operator? with
    | none =>
      obtain rfl : level = .unary := by cases level <;> first | rfl | cases hlevel
      exact unary_agree_run (Nat.le_succ n) (Nat.le_refl n)
    | some k =>
      have hnext := binary_agree_run level.next (Nat.le_succ n) (Nat.le_refl n)
      have hsound := binary_sound (expression_sound n) n level.next
      rw [binary_of_operator? _ n hlevel, body]
      simp only [chain, hlevel]
      refine hnext.bind hsound fun _ first _ => ?_
      refine agree_repeatWhile_bounded rfl (fun left => ?_) (fun left => ?_) (Nat.le_refl n) first
      · refine agree_expect_bind fun o => ?_
        exact (hnext.mono (Nat.sub_le n 1)).bind hsound fun _ _ _ => .refl _
      · exact sound_expect_bind fun o => hsound.bind fun ws right _ => sound_pure (by simp)
  | unary =>
    rw [run]
    refine withRoom_eq fun n => ?_
    have hprimary := primary_agree_run (Nat.le_succ n)
    cases n with
    | zero =>
      have hoperand : AtEnd ExprRule.primary.run :=
        fun s => primary_atEnd (Grammar.expression s.room) s
      exact (unary_atEnd _ 0).agreeUpTo (atEnd_peek hoperand)
    | succ n =>
      have hoperand := unary_agree_run (n := n) (i := n + 1) (by omega) (Nat.le_refl n)
      have hsound := unary_sound (expression_sound (n + 1)) n
      refine agree_peek fun k => ?_
      rcases k with _ | k
      · exact hprimary
      · cases k with
        | additive | logicalNot =>
          exact agree_expect_bind fun _ => hoperand.bind hsound fun _ _ _ => .refl _
        | _ => exact hprimary
  | primary =>
    rw [run]
    refine withRoom_eq fun n => ?_
    refine agree_peek fun k => ?_
    rcases k with _ | k
    · exact .refl _
    · cases k with
      | openParen => exact grouping_agree_run (Nat.le_succ n)
      | _ => exact .refl _
  | grouping =>
    rw [run]
    refine withRoom_eq fun n => ?_
    refine agree_expect_bind fun _ => ?_
    exact (expression_agree_run (Nat.sub_le n 1)).bind (expression_sound n) fun _ _ _ => .refl _

lemma StmtRule.run_eq_body (rule : StmtRule) : rule.run = rule.body .bounded := by
  cases rule with
  | empty => rfl
  | statement =>
    rw [run]
    refine withRoom_eq fun n => ?_
    cases n with
    | zero =>
      have hexpression : AtEnd StmtRule.expression.run :=
        fun s => (expression_atEnd s.room).bind s
      exact (statement_atEnd 0).agreeUpTo (atEnd_peek hexpression)
    | succ n =>
      refine agree_peek fun k => ?_
      rcases k with _ | k
      · exact expressionStatement_agree_run (Nat.le_refl _)
      · cases k with
        | semicolon => exact .refl _
        | ifWord => exact conditional_agree_run (Nat.le_refl _)
        | openCurly => exact block_agree_run (Nat.le_refl _)
        | letWord => exact declarations_agree_run (Nat.le_refl _)
        | _ => exact expressionStatement_agree_run (Nat.le_refl _)
  | block =>
    rw [run]
    refine withRoom_eq fun n => ?_
    refine agree_expect_bind fun _ => ?_
    exact (statements_agree_run _ (Nat.sub_le n 1)).bind
      (statements_sound (statement_sound n) n _) fun _ _ _ => .refl _
  | conditional =>
    rw [run]
    refine withRoom_eq fun n => ?_
    refine agree_expect_bind fun _ => ?_
    refine agree_expect_bind fun _ => ?_
    refine (expression_agree_run (by omega)).bind (expression_sound n) fun _ test _ => ?_
    refine agree_expect_bind fun _ => ?_
    refine (statement_agree_run (by omega)).bind (statement_sound n) fun _ consequent _ => ?_
    refine agree_peek fun k => ?_
    rcases k with _ | k
    · exact .refl _
    · cases k with
      | elseWord =>
        refine agree_expect_bind fun _ => ?_
        exact (statement_agree_run (by omega)).bind (statement_sound n) fun _ _ _ => .refl _
      | _ => exact .refl _
  | declarations =>
    rw [run]
    refine withRoom_eq fun n => ?_
    have hdeclaration := declaration_agree_run (Nat.sub_le n 1)
    refine agree_expect_bind fun _ => ?_
    refine hdeclaration.bind (declaration_sound n) fun ws first hfirst => ?_
    refine AgreeUpTo.bind ?_ (sound_repeatWhile n (declarations_step_sound n) (.one hfirst))
      fun _ _ _ => .refl _
    refine agree_repeatWhile_bounded rfl (fun ds => ?_) (fun ds => ?_) (Nat.sub_le n 1) #[first]
    · refine agree_expect_bind fun _ => ?_
      exact (hdeclaration.mono (Nat.sub_le _ 1)).bind (declaration_sound n) fun _ _ _ => .refl _
    · exact sound_expect_bind fun _ => (declaration_sound n).bind fun ws d _ => sound_pure (by simp)
  | expression =>
    rw [run]
    refine withRoom_eq fun n => ?_
    exact (expression_agree_run (Nat.le_refl n)).bind (expression_sound n) fun _ _ _ => .refl _

/-- **The rules are their bodies**: with the room of the session as the bound they do what they do
without bounds. -/
theorem Rule.run_eq_body (rule : Rule) : rule.run = rule.body .bounded := by
  cases rule with
  | identifier => rfl
  | statement rule => exact rule.run_eq_body
  | expression rule => exact rule.run_eq_body
  | program =>
    rw [run]
    refine withRoom_eq fun n => ?_
    exact (statements_agree_run none (Nat.le_refl n)).bind
      (statements_sound (statement_sound n) n none) fun _ _ _ => .refl _
  | statements stop =>
    rw [run]
    refine withRoom_eq fun n => ?_
    have hstatement := statement_agree_run (Nat.le_refl n)
    refine AgreeUpTo.bind ?_
      (sound_repeatWhile n (statements_step_sound (statement_sound n)) .nil) fun _ _ _ => .refl _
    refine agree_repeatWhile_bounded rfl (fun body => ?_) (fun body => ?_) (Nat.le_refl n) #[]
    · exact hstatement.bind (statement_sound n) fun _ _ _ => .refl _
    · refine (statement_sound n).bind fun ws st hst => sound_pure ?_
      rw [List.append_nil]
      exact hst.ne_nil
  | declaration =>
    rw [run]
    refine withRoom_eq fun n => ?_
    have hidentifier : Sound Grammar.identifier fun _ _ => True :=
      sound_expect_bind fun _ => sound_pure trivial
    refine (AgreeUpTo.refl Grammar.identifier).bind hidentifier fun _ x _ => ?_
    refine agree_peek fun k => ?_
    rcases k with _ | k
    · exact .refl _
    · cases k with
      | simpleAssign =>
        refine agree_expect_bind fun _ => ?_
        exact (expression_agree_run (Nat.sub_le n 1)).bind (expression_sound n)
          fun _ _ _ => .refl _
      | _ => exact .refl _

end Scriptlet
