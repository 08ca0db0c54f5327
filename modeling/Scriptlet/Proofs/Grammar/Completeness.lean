/-
# What the grammar derives is read

If words derive a tree and a session can consume them, then the rule for the tree reads just these
words and gives this tree (`Complete`).  Two conditions enter that the grammar does not know:

* The rule must not want to read on.  An expression goes on at an operator that binds at least as
  tightly as its category asks for (`strength`), a statement that ends open goes on at an `else`.
* The bound given to the rule must be no less than the room of the session.  Each rule hands a
  smaller bound on only behind a token, and consuming a token leaves less room.
-/
import Scriptlet.Grammar.Statement
import Scriptlet.Proofs.Grammar.Consume
import Scriptlet.Proofs.Grammar.Derivation

namespace Scriptlet.Grammar

open Reading

variable {s s' : Session} {k : Kind} {w : Word} {ws : List Word} {n : Nat}

/-- With the bound `n`, a rule reads all that a category of the grammar derives, wherever the
lookahead behind it is one that may follow. -/
def Complete {α : Type} (p : Reading α) (n : Nat) (follow : α → Option Kind → Prop)
    (D : List Word → α → Prop) : Prop :=
  ∀ s ws a s', D ws a → Consumes s ws s' → follow a s'.kind? → s.room ≤ n → p s = .ok a s'

/-! ## What may follow -/

/-- How tightly an operator behind an expression binds; zero if it is no such operator. -/
def strength : Option Kind → Nat
  | some .simpleAssign | some .complexAssign => 1
  | some .logicalOr => 2
  | some .logicalAnd => 3
  | some .equality => 4
  | some .relational => 5
  | some .additive => 6
  | some .multiplicative => 7
  | _ => 0

/-- The least strength of an operator with which an expression of the category goes on. -/
def Category.rank : Category → Nat
  | assignment => 1
  | logicalOr => 2
  | logicalAnd => 3
  | equality => 4
  | relational => 5
  | additive => 6
  | multiplicative => 7
  | unary => 8
  | primary => 9

/-- An expression of the category does not go on at this lookahead. -/
def Ends (c : Category) (_ : Expr) (k : Option Kind) : Prop := strength k < c.rank

lemma strength_le_seven (k : Option Kind) : strength k ≤ 7 := by
  unfold strength
  split <;> omega

lemma strength_of_isAssignment (h : k.isAssignment) : strength (some k) = 1 := by
  cases k <;> first | rfl | cases h

lemma strength_of_operator? {level : Level} (h : level.operator? = some k) :
    strength (some k) = (category level).rank := by
  cases level <;> cases h <;> rfl

lemma rank_next {level : Level} (h : level.operator? = some k) :
    (category level.next).rank = (category level).rank + 1 := by
  cases level <;> cases h <;> rfl

/-! ## Room -/

lemma room_lt_of_consumes_cons (h : Consumes s (w :: ws) s') : s'.room < s.room := by
  have hroom := h.room_add_length_le
  rw [List.length_cons] at hroom
  omega

/-- A rule for something that has words need not be looked at where there is no room. -/
lemma complete_zero {α : Type} {p : Reading α} {follow : α → Option Kind → Prop}
    {D : List Word → α → Prop} (h : ∀ ws a, D ws a → ws ≠ []) : Complete p 0 follow D := by
  intro s ws a s' hD hws _ hroom
  cases ws with
  | nil => exact absurd rfl (h [] a hD)
  | cons w ws =>
    have hlt := room_lt_of_consumes_cons hws
    omega

lemma DerivesExpr.ne_nil {c : Category} {e : Expr} (h : DerivesExpr c ws e) : ws ≠ [] := by
  obtain ⟨w, us, rfl, -⟩ := h.starts
  exact List.cons_ne_nil w us

lemma DerivesStmt.ne_nil {st : Stmt} (h : DerivesStmt ws st) : ws ≠ [] := by
  obtain ⟨w, us, rfl, -⟩ := h.starts
  exact List.cons_ne_nil w us

/-! ## Operands -/

lemma expect_of_consumes {o : String} (h : Consumes s (⟨k, o⟩ :: ws) s') :
    ∃ t s₁, expect k s = .ok t s₁ ∧ t.value = o ∧ Consumes s₁ ws s' ∧ s₁.room < s.room := by
  obtain ⟨t, s₁, ht, hvalue, hws⟩ := consumes_cons_iff.mp h
  exact ⟨t, s₁, ht, hvalue, hws, room_expect_lt ht⟩

lemma identifier_of_consumes {x : String} (h : Consumes s (⟨.identifier, x⟩ :: ws) s') :
    ∃ s₁, identifier s = .ok x s₁ ∧ Consumes s₁ ws s' ∧ s₁.room < s.room := by
  obtain ⟨t, s₁, ht, rfl, hws, hlt⟩ := expect_of_consumes h
  exact ⟨s₁, bind_of_ok ht _, hws, hlt⟩

/-- The kinds of words that a primary expression begins with. -/
def startsPrimary (k : Kind) : Bool := k.isLiteral || k == .openParen || k == .identifier

lemma DerivesExpr.startsPrimary {e : Expr} (h : DerivesExpr .primary ws e) :
    ∃ w us, ws = w :: us ∧ startsPrimary w.kind := by
  cases h with
  | single hrung | joined _ hrung => cases hrung
  | number | text | trueLit | falseLit | nullLit | paren | ident => exact ⟨_, _, rfl, rfl⟩

lemma literal_of_isLiteral {inner : Reading Expr} (hkind : s.kind? = some k) (h : k.isLiteral) :
    primary inner s = literal s := by
  rw [primary, peek_bind, hkind]
  cases k <;> first | rfl | cases h

lemma unary_of_startsPrimary {inner : Reading Expr} {m : Nat} (hkind : s.kind? = some k)
    (h : startsPrimary k) :
    unary inner (m + 1) s = primary inner s := by
  rw [unary, peek_bind, hkind]
  cases k <;> first | rfl | cases h

section Operands

variable {inner : Reading Expr}
  (hinner : Complete inner n (Ends .assignment) (DerivesExpr .assignment))

include hinner

lemma primary_complete :
    Complete (primary inner) (n + 1) (Ends .primary) (DerivesExpr .primary) := by
  intro s ws e s' he hws _ hroom
  have hkind {w : Word} {us : List Word} (h : Consumes s (w :: us) s') := h.kind?_eq
  cases he with
  | single hrung | joined _ hrung => cases hrung
  | number digits hfinite =>
    rw [literal_of_isLiteral (hkind hws) rfl, literal, peek_bind, hkind hws]
    obtain ⟨t, s₁, ht, rfl, hnil, -⟩ := expect_of_consumes hws
    obtain rfl := consumes_nil_iff.mp hnil
    refine (bind_of_ok ht _).trans ?_
    rw [if_pos hfinite]
    rfl
  | text quoted =>
    rw [literal_of_isLiteral (hkind hws) rfl, literal, peek_bind, hkind hws]
    obtain ⟨t, s₁, ht, rfl, hnil, -⟩ := expect_of_consumes hws
    obtain rfl := consumes_nil_iff.mp hnil
    exact bind_of_ok ht _
  | trueLit | falseLit | nullLit =>
    rw [literal_of_isLiteral (hkind hws) rfl, literal, peek_bind, hkind hws]
    obtain ⟨t, s₁, ht, -, hnil, -⟩ := expect_of_consumes hws
    obtain rfl := consumes_nil_iff.mp hnil
    exact bind_of_ok ht _
  | paren l r he =>
    rw [primary, peek_bind, hkind hws]
    obtain ⟨t, s₁, ht, -, hws, hlt⟩ := expect_of_consumes hws
    obtain ⟨s₂, hws, hr⟩ := consumes_append_iff.mp hws
    -- No expression goes on at a closing parenthesis.
    have hends : Ends .assignment e s₂.kind? := by
      rw [hr.kind?_eq]
      exact Nat.zero_lt_one
    have he := hinner s₁ _ e s₂ he hws hends (by omega)
    obtain ⟨t', s₃, ht', -, hnil, -⟩ := expect_of_consumes hr
    obtain rfl := consumes_nil_iff.mp hnil
    exact (bind_of_ok ht _).trans ((bind_of_ok he _).trans (bind_of_ok ht' _))
  | ident x =>
    rw [primary, peek_bind, hkind hws]
    obtain ⟨s₁, hx, hnil, -⟩ := identifier_of_consumes hws
    obtain rfl := consumes_nil_iff.mp hnil
    exact map_of_ok hx _

/-- The operators in front of an operand are counted down together with the room. -/
lemma unary_complete {m : Nat} (hm : m ≤ n + 1) :
    Complete (unary inner m) m (Ends .unary) (DerivesExpr .unary) := by
  induction m with
  | zero => exact complete_zero fun ws e he => he.ne_nil
  | succ m ih =>
    intro s ws e s' he hws _ hroom
    have hends (e : Expr) : Ends .unary e s'.kind? := Nat.lt_succ_of_le (strength_le_seven _)
    cases he with
    | single hrung | joined _ hrung => cases hrung
    | bare he =>
      obtain ⟨w, us, rfl, hw⟩ := he.startsPrimary
      rw [unary_of_startsPrimary hws.kind?_eq hw]
      exact primary_complete hinner s _ e s' he hws (Nat.lt_succ_of_lt (hends e)) (by omega)
    | signed o hk he =>
      obtain ⟨t, s₁, ht, rfl, hws', hlt⟩ := expect_of_consumes hws
      have he := ih (by omega) s₁ _ _ s' he hws' (hends _) (by omega)
      rw [unary, peek_bind, hws.kind?_eq]
      rcases hk with rfl | rfl
      · exact (bind_of_ok ht _).trans (bind_of_ok he _)
      · exact (bind_of_ok ht _).trans (bind_of_ok he _)

end Operands

/-! ## Operators between operands -/

lemma Rung.eq_of_operator? {level : Level} {d : Category} {k' : Kind}
    {node : String → Expr → Expr → Expr} (hlevel : level.operator? = some k)
    (h : Rung (category level) d k' node) :
    d = category level.next ∧ k' = k ∧ node = level.join := by
  cases level <;> cases hlevel <;> cases h <;> exact ⟨rfl, rfl, rfl⟩

/-- What is derived at a level is derived at the next one, or joins an expression of the level and
one of the next. -/
lemma DerivesExpr.level_cases {level : Level} {e : Expr} (hlevel : level.operator? = some k)
    (h : DerivesExpr (category level) ws e) :
    DerivesExpr (category level.next) ws e ∨
      ∃ us vs o l r, ws = us ++ ⟨k, o⟩ :: vs ∧ e = level.join o l r ∧
        DerivesExpr (category level) us l ∧ DerivesExpr (category level.next) vs r := by
  generalize hc : category level = c at h
  cases h with
  | single hrung h =>
    subst hc
    obtain ⟨rfl, -, -⟩ := hrung.eq_of_operator? hlevel
    exact .inl h
  | joined o hrung hl hr =>
    subst hc
    obtain ⟨rfl, rfl, rfl⟩ := hrung.eq_of_operator? hlevel
    exact .inr ⟨_, _, o, _, _, rfl, rfl, hl, hr⟩
  | _ => cases level <;> cases hlevel <;> cases hc

section Chains

variable {level : Level} {operand : Reading Expr} {N : Nat} (hlevel : level.operator? = some k)
  (hoperand : Complete operand n (Ends (category level.next)) (DerivesExpr (category level.next)))

include hlevel hoperand

/-- A chain that has read an expression of its level goes on from there.  The induction is on the
number of words: a left-recursive derivation ends in the operand that is read last. -/
lemma chain_reaches (hn : n ≤ N) {e : Expr} (he : DerivesExpr (category level) ws e)
    (hws : Consumes s ws s') (hends : strength s'.kind? ≤ (category level).rank)
    (hroom : s.room ≤ n) :
    ∃ m, s'.room ≤ m ∧ chain N level operand s = repeatWhile (· == some k) (fun left => do
      let operator ← expect k
      return level.join operator.value left (← operand)) m e s' := by
  induction hlength : ws.length using Nat.strongRecOn generalizing ws e s' with
  | ind length ih =>
    have hle := hws.room_add_length_le
    rcases he.level_cases hlevel with he | ⟨us, vs, o, l, r, rfl, rfl, hl, hr⟩
    · refine ⟨N, by omega, ?_⟩
      have he := hoperand s ws e s' he hws (by rw [Ends, rank_next hlevel]; omega) hroom
      simp only [chain, hlevel]
      exact bind_of_ok he _
    · obtain ⟨s₁, hus, hrest⟩ := consumes_append_iff.mp hws
      have hkind := hrest.kind?_eq
      have hstrength : strength s₁.kind? ≤ (category level).rank := by
        rw [hkind]
        exact Nat.le_of_eq (strength_of_operator? hlevel)
      have hlt : us.length < length := by
        rw [← hlength, List.length_append, List.length_cons]
        omega
      obtain ⟨m, hm, hchain⟩ := ih us.length hlt hl hus hstrength rfl
      obtain ⟨t, s₂, ht, rfl, hvs, hroom₂⟩ := expect_of_consumes hrest
      have hle₁ := hus.room_add_length_le
      have hr := hoperand s₂ vs r s' hr hvs (by rw [Ends, rank_next hlevel]; omega) (by omega)
      have hle₂ := hvs.room_add_length_le
      -- The step that reads the operator and the operand behind it.
      obtain ⟨m, rfl⟩ : ∃ m', m = m' + 1 := ⟨m - 1, by omega⟩
      refine ⟨m, by omega, ?_⟩
      rw [hchain, repeatWhile_of_more (by rw [hkind]; exact beq_self_eq_true _)]
      exact (bind_of_ok ht _).trans (bind_of_ok hr _)

lemma chain_complete (hn : n ≤ N) :
    Complete (chain N level operand) n (Ends (category level)) (DerivesExpr (category level)) := by
  intro s ws e s' he hws hends hroom
  obtain ⟨m, -, hchain⟩ := chain_reaches hlevel hoperand hn he hws (Nat.le_of_lt hends) hroom
  rw [hchain, repeatWhile_of_not]
  have hne : s'.kind? ≠ some k := by
    intro hkind
    rw [Ends, hkind, strength_of_operator? hlevel] at hends
    exact absurd hends (Nat.lt_irrefl _)
  exact beq_eq_false_iff_ne.mpr hne

end Chains

section Expressions

variable {inner : Reading Expr}
  (hinner : Complete inner n (Ends .assignment) (DerivesExpr .assignment))

include hinner

lemma binary_complete (level : Level) :
    Complete (binary inner (n + 1) level) (n + 1) (Ends (category level))
      (DerivesExpr (category level)) := by
  refine level_induction (P := fun level => Complete (binary inner (n + 1) level) (n + 1)
    (Ends (category level)) (DerivesExpr (category level))) ?_ ?_ level
  · exact unary_complete hinner (Nat.le_refl _)
  · intro level k hlevel hnext
    rw [binary_of_operator? inner (n + 1) hlevel]
    exact chain_complete hlevel hnext (Nat.le_refl _)

/-- The left side is read as an expression of the loosest level in either case: a target is one
of these, and an assignment operator does not go on with it. -/
lemma assignment_complete :
    Complete (assignment inner (n + 1)) (n + 1) (Ends .assignment) (DerivesExpr .assignment) := by
  have hbinary := binary_complete hinner .logicalOr
  intro s ws e s' he hws hends hroom
  cases he with
  | single hrung | joined _ hrung => cases hrung
  | plain he =>
    have he := hbinary s ws e s' he hws (Nat.lt_succ_of_lt hends) hroom
    refine (bind_of_ok he _).trans ?_
    refine peek_bind_of (p := pure e) ?_
    split
    · next k hk =>
      rw [if_neg]
      intro hassign
      rw [Ends, hk, strength_of_isAssignment hassign] at hends
      exact absurd hends (Nat.lt_irrefl 1)
    · rfl
  | @assign us vs x e k o hk hx he =>
    obtain ⟨s₁, hus, hrest⟩ := consumes_append_iff.mp hws
    -- An assignment operator is weaker than those of all levels, so the target ends before it.
    have hstrength : Ends .logicalOr (.ident x) s₁.kind? := by
      rw [hrest.kind?_eq]
      rcases hk with rfl | rfl <;> exact Nat.one_lt_two
    have hx := hbinary s us _ s₁ (hx.derives.atLevel .logicalOr) hus hstrength hroom
    obtain ⟨t, s₂, ht, rfl, hvs, hlt⟩ := expect_of_consumes hrest
    have hle := hus.room_add_length_le
    have he := hinner s₂ vs e s' he hvs hends (by omega)
    refine (bind_of_ok hx _).trans ?_
    rw [peek_bind, hrest.kind?_eq]
    rcases hk with rfl | rfl
    · exact (bind_of_ok ht _).trans (bind_of_ok he _)
    · exact (bind_of_ok ht _).trans (bind_of_ok he _)

end Expressions

/-- **An expression that the grammar derives is read.** -/
theorem expression_complete (n : Nat) :
    Complete (expression n) n (Ends .assignment) (DerivesExpr .assignment) := by
  induction n with
  | zero => exact complete_zero fun ws e he => he.ne_nil
  | succ n ih => exact assignment_complete ih

/-! ## Declarations -/

lemma declaration_complete :
    Complete (declaration n) n (fun _ k => strength k = 0) DerivesDeclaration := by
  intro s ws d s' hd hws hends hroom
  cases hd with
  | bare x =>
    obtain ⟨s₁, hx, hnil, -⟩ := identifier_of_consumes hws
    obtain rfl := consumes_nil_iff.mp hnil
    refine (bind_of_ok hx _).trans (peek_bind_of (p := pure (⟨x, none⟩ : Declaration)) ?_)
    split
    · next hkind => rw [hkind] at hends; cases hends
    · rfl
  | init x o he =>
    obtain ⟨s₁, hx, hws, hlt⟩ := identifier_of_consumes hws
    obtain ⟨t, s₂, ht, -, hws', hlt'⟩ := expect_of_consumes hws
    have hstrength : strength s'.kind? < 1 := Nat.lt_one_iff.mpr hends
    have he := expression_complete n s₂ _ _ s' he hws' hstrength (by omega)
    refine (bind_of_ok hx _).trans ?_
    rw [peek_bind, hws.kind?_eq]
    exact (bind_of_ok ht _).trans (bind_of_ok he _)

/-- The first declaration is read, and then the repetition reads the others. -/
lemma declarations_loop {ds : List Declaration} (hds : DerivesDeclarations ws ds)
    (hws : Consumes s ws s') (hends : strength s'.kind? = 0) (hcomma : s'.kind? ≠ some .comma)
    (hroom : s.room ≤ n) {m : Nat} (hm : s.room ≤ m) (acc : Array Declaration) :
    ∃ d s₁, declaration n s = .ok d s₁ ∧
      repeatWhile (· == some .comma) (fun ds => do
        let _ ← expect .comma
        return ds.push (← declaration n)) m (acc.push d) s₁ = .ok (acc ++ ds.toArray) s' := by
  induction hds generalizing s m acc with
  | @one _ d hd =>
    refine ⟨d, s', declaration_complete s _ d s' hd hws hends hroom, ?_⟩
    rw [repeatWhile_of_not]
    · simp
    · exact beq_eq_false_iff_ne.mpr hcomma
  | @more o us _ d _ hd _ ih =>
    obtain ⟨s₁, hus, hrest⟩ := consumes_append_iff.mp hws
    have hkind := hrest.kind?_eq
    have hd := declaration_complete s us d s₁ hd hus (by rw [hkind]; rfl) hroom
    obtain ⟨t, s₂, ht, -, hvs, hlt⟩ := expect_of_consumes hrest
    have hle := hus.room_add_length_le
    -- The comma takes up room, so the repetition has a step left for it.
    obtain ⟨m, rfl⟩ : ∃ m', m = m' + 1 := ⟨m - 1, by omega⟩
    have hm₂ : s₂.room ≤ m := by omega
    obtain ⟨d', s₃, hd', hloop⟩ := ih hvs (by omega) hm₂ (acc.push d)
    refine ⟨d, s₁, hd, ?_⟩
    rw [repeatWhile_of_more (by rw [hkind]; exact beq_self_eq_true _)
      ((bind_of_ok ht _).trans (bind_of_ok hd' _)), hloop]
    simp

/-! ## Statements -/

lemma declarations_complete {ds : List Declaration} {l o : String}
    (hds : DerivesDeclarations ws ds)
    (hws : Consumes s (⟨.letWord, l⟩ :: ws ++ [⟨.semicolon, o⟩]) s') (hroom : s.room ≤ n + 1) :
    declarations n s = .ok (.declare ds) s' := by
  obtain ⟨t, s₁, ht, -, hws, hlt⟩ := expect_of_consumes hws
  obtain ⟨s₂, hws, ho⟩ := consumes_append_iff.mp hws
  have hkind := ho.kind?_eq
  have hroom₁ : s₁.room ≤ n := by omega
  obtain ⟨d, s₃, hd, hloop⟩ := declarations_loop hds hws (by rw [hkind]; rfl)
    (by rw [hkind]; simp) hroom₁ hroom₁ #[]
  obtain ⟨t', s₄, ht', -, hnil, -⟩ := expect_of_consumes ho
  obtain rfl := consumes_nil_iff.mp hnil
  refine (bind_of_ok ht _).trans ((bind_of_ok hd _).trans ?_)
  refine (bind_of_ok hloop _).trans ((bind_of_ok ht' _).trans ?_)
  simp [pure, EStateM.pure]

lemma expressionStatement_complete {e : Expr} {o : String} (he : DerivesExpr .assignment ws e)
    (hws : Consumes s (ws ++ [⟨.semicolon, o⟩]) s') (hroom : s.room ≤ n) :
    expressionStatement n s = .ok (.expr e) s' := by
  obtain ⟨s₁, hws, ho⟩ := consumes_append_iff.mp hws
  have hends : Ends .assignment e s₁.kind? := by
    rw [ho.kind?_eq]
    exact Nat.zero_lt_one
  have he := expression_complete n s ws e s₁ he hws hends hroom
  obtain ⟨t, s₂, ht, -, hnil, -⟩ := expect_of_consumes ho
  obtain rfl := consumes_nil_iff.mp hnil
  exact (bind_of_ok he _).trans (bind_of_ok ht _)

/-- What an `if` reads before the statement it guards. -/
lemma conditional_head (inner : Reading Stmt) {i l r : String} {us : List Word} {e : Expr}
    (he : DerivesExpr .assignment ws e)
    (hws : Consumes s (⟨.ifWord, i⟩ :: ⟨.openParen, l⟩ :: ws ++ ⟨.closeParen, r⟩ :: us) s')
    (hroom : s.room ≤ n + 1) :
    ∃ s₁, Consumes s₁ us s' ∧ s₁.room ≤ n ∧ conditional inner n s = (do
      let consequent ← inner
      match ← peek with
      | some .elseWord =>
        let _ ← expect .elseWord
        return .ifElse e consequent (← inner)
      | _ => return .ifThen e consequent : Reading Stmt) s₁ := by
  obtain ⟨ti, s₁, hti, -, hws, hlt₁⟩ := expect_of_consumes hws
  obtain ⟨tl, s₂, htl, -, hws, hlt₂⟩ := expect_of_consumes hws
  obtain ⟨s₃, hws, hrest⟩ := consumes_append_iff.mp hws
  have hends : Ends .assignment e s₃.kind? := by
    rw [hrest.kind?_eq]
    exact Nat.zero_lt_one
  have he := expression_complete n s₂ ws e s₃ he hws hends (by omega)
  have hle := hws.room_add_length_le
  obtain ⟨tr, s₄, htr, -, hus, hlt₄⟩ := expect_of_consumes hrest
  refine ⟨s₄, hus, by omega, ?_⟩
  refine (bind_of_ok hti _).trans ((bind_of_ok htl _).trans ?_)
  exact (bind_of_ok he _).trans (bind_of_ok htr _)

lemma statement_of_startsExpr (hkind : s.kind? = some k) (h : startsExpr k) :
    statement (n + 1) s = expressionStatement (n + 1) s := by
  rw [statement, peek_bind, hkind]
  cases k <;> first | rfl | cases h

section Nested

variable {inner : Reading Stmt} (hinner : Complete inner n StmtEnds DerivesStmt)

include hinner

/-- A repetition that has statements to read goes on behind them, if there is no `else`: behind a
statement comes what is behind them all or the first word of another statement. -/
lemma statements_reach {stop : Option Kind} (hstop : stop = none ∨ stop = some .closeCurly)
    {body : List Stmt} (hbody : DerivesBody ws body) (hws : Consumes s ws s')
    (helse : s'.kind? ≠ some .elseWord) (hroom : s.room ≤ n) {m : Nat} (hm : s.room ≤ m)
    (acc : Array Stmt) :
    ∃ m', s'.room ≤ m' ∧
      repeatWhile (fun k => k.isSome && k != stop) (fun body => do
        return body.push (← inner)) m acc s =
      repeatWhile (fun k => k.isSome && k != stop) (fun body => do
        return body.push (← inner)) m' (acc ++ body.toArray) s' := by
  induction body generalizing ws s m acc with
  | nil =>
    cases hbody
    obtain rfl := consumes_nil_iff.mp hws
    exact ⟨m, hm, by simp⟩
  | cons st body ih =>
    cases hbody with
    | @cons us vs _ _ hst hbody =>
    obtain ⟨s₁, hus, hvs⟩ := consumes_append_iff.mp hws
    have hends : StmtEnds st s₁.kind? := by
      intro _
      cases hbody with
      | nil =>
        obtain rfl := consumes_nil_iff.mp hvs
        exact helse
      | cons hst' _ =>
        obtain ⟨w, us, rfl, hw⟩ := hst'.starts
        rw [hvs.kind?_eq]
        intro helse
        rw [Option.some.inj helse] at hw
        cases hw
    have hst' := hinner s us st s₁ hst hus hends hroom
    obtain ⟨w, us, rfl, hw⟩ := hst.starts
    have hlt := room_lt_of_consumes_cons hus
    have hmore : (s.kind?.isSome && s.kind? != stop) = true := by
      rw [hus.kind?_eq]
      rcases hstop with rfl | rfl
      · rfl
      · cases w with | mk k o => cases k <;> first | rfl | cases hw
    obtain ⟨m, rfl⟩ : ∃ m', m = m' + 1 := ⟨m - 1, by omega⟩
    have hm₁ : s₁.room ≤ m := by omega
    obtain ⟨m', hm', hreach⟩ := ih hbody hvs (by omega) hm₁ (acc.push st)
    refine ⟨m', hm', ?_⟩
    rw [repeatWhile_of_more hmore (bind_of_ok hst' _), hreach]
    simp

/-- Statements are read up to the end of the source or the closing bracket, neither of which begins
a statement or is an `else`. -/
lemma statements_loop {stop : Option Kind} (hstop : stop = none ∨ stop = some .closeCurly)
    {body : List Stmt} (hbody : DerivesBody ws body) (hws : Consumes s ws s')
    (hkind : s'.kind? = stop) (hroom : s.room ≤ n) {m : Nat} (hm : s.room ≤ m)
    (acc : Array Stmt) :
    repeatWhile (fun k => k.isSome && k != stop) (fun body => do
      return body.push (← inner)) m acc s = .ok (acc ++ body.toArray) s' := by
  have helse : s'.kind? ≠ some .elseWord := by
    rw [hkind]
    rcases hstop with rfl | rfl <;> simp
  obtain ⟨m', -, hreach⟩ := statements_reach hinner hstop hbody hws helse hroom hm acc
  rw [hreach, repeatWhile_of_not (by simp [hkind])]

lemma block_complete {body : List Stmt} {l r : String} (hbody : DerivesBody ws body)
    (hws : Consumes s (⟨.openCurly, l⟩ :: ws ++ [⟨.closeCurly, r⟩]) s') (hroom : s.room ≤ n + 1) :
    block inner n s = .ok (.block body) s' := by
  obtain ⟨t, s₁, ht, -, hws, hlt⟩ := expect_of_consumes hws
  obtain ⟨s₂, hws, hr⟩ := consumes_append_iff.mp hws
  have hroom₁ : s₁.room ≤ n := by omega
  have hloop := statements_loop hinner (.inr rfl) hbody hws hr.kind?_eq hroom₁ hroom₁ #[]
  obtain ⟨t', s₃, ht', -, hnil, -⟩ := expect_of_consumes hr
  obtain rfl := consumes_nil_iff.mp hnil
  have hstatements : statements inner n (some .closeCurly) s₁ = .ok body s₂ := by
    refine (bind_of_ok hloop _).trans ?_
    simp [pure, EStateM.pure]
  exact (bind_of_ok ht _).trans ((bind_of_ok hstatements _).trans (bind_of_ok ht' _))

lemma ifThen_complete {i l r : String} {us : List Word} {e : Expr} {st : Stmt}
    (he : DerivesExpr .assignment ws e) (hst : DerivesStmt us st)
    (hws : Consumes s (⟨.ifWord, i⟩ :: ⟨.openParen, l⟩ :: ws ++ ⟨.closeParen, r⟩ :: us) s')
    (helse : s'.kind? ≠ some .elseWord) (hroom : s.room ≤ n + 1) :
    conditional inner n s = .ok (.ifThen e st) s' := by
  obtain ⟨s₁, hus, hroom₁, hhead⟩ := conditional_head inner he hws hroom
  have hst := hinner s₁ us st s' hst hus (fun _ => helse) hroom₁
  rw [hhead]
  refine (bind_of_ok hst _).trans (peek_bind_of (p := pure (Stmt.ifThen e st)) ?_)
  split
  · next h => exact absurd h helse
  · rfl

lemma ifElse_complete {i l r o : String} {us vs : List Word} {e : Expr} {st st' : Stmt}
    (he : DerivesExpr .assignment ws e) (hst : DerivesStmt us st) (hclosed : st.endsOpen = false)
    (hst' : DerivesStmt vs st')
    (hws : Consumes s (⟨.ifWord, i⟩ :: ⟨.openParen, l⟩ :: ws ++ ⟨.closeParen, r⟩ :: us ++
      ⟨.elseWord, o⟩ :: vs) s')
    (hends : StmtEnds st' s'.kind?) (hroom : s.room ≤ n + 1) :
    conditional inner n s = .ok (.ifElse e st st') s' := by
  obtain ⟨s₂, hws, helse⟩ := consumes_append_iff.mp hws
  obtain ⟨s₁, hus, hroom₁, hhead⟩ := conditional_head inner he hws hroom
  have hle := hus.room_add_length_le
  -- The `else` is not read with the consequent, which has no place for one.
  have hends₂ : StmtEnds st s₂.kind? := by
    intro hopen
    rw [hclosed] at hopen
    cases hopen
  have hst := hinner s₁ us st s₂ hst hus hends₂ hroom₁
  obtain ⟨t, s₃, ht, -, hvs, hlt⟩ := expect_of_consumes helse
  have hst' := hinner s₃ vs st' s' hst' hvs hends (by omega)
  rw [hhead]
  refine (bind_of_ok hst _).trans ?_
  rw [peek_bind, helse.kind?_eq]
  exact (bind_of_ok ht _).trans (bind_of_ok hst' _)

end Nested

/-- **A statement that the grammar derives is read.** -/
theorem statement_complete (n : Nat) : Complete (statement n) n StmtEnds DerivesStmt := by
  induction n with
  | zero => exact complete_zero fun ws st hst => hst.ne_nil
  | succ n ih =>
    intro s ws st s' hst hws hends hroom
    cases hst with
    | empty o =>
      rw [statement, peek_bind, hws.kind?_eq]
      obtain ⟨t, s₁, ht, -, hnil, -⟩ := expect_of_consumes hws
      obtain rfl := consumes_nil_iff.mp hnil
      exact bind_of_ok ht _
    | ifThen i l r he hst =>
      rw [statement, peek_bind, hws.kind?_eq]
      exact ifThen_complete ih he hst hws (hends rfl) hroom
    | ifElse i l r o he hst hclosed hst' =>
      rw [statement, peek_bind, hws.kind?_eq]
      exact ifElse_complete ih he hst hclosed hst' hws hends hroom
    | block l r hbody =>
      rw [statement, peek_bind, hws.kind?_eq]
      exact block_complete ih hbody hws hroom
    | declare l o hds =>
      rw [statement, peek_bind, hws.kind?_eq]
      exact declarations_complete hds hws hroom
    | expr o he =>
      obtain ⟨w, us, rfl, hw⟩ := he.starts
      rw [statement_of_startsExpr hws.kind?_eq hw]
      exact expressionStatement_complete he hws hroom

lemma program_complete {p : Program} (hp : DerivesProgram ws p) (hws : Consumes s ws s')
    (hkind : s'.kind? = none) (hroom : s.room ≤ n) : program n s = .ok p s' := by
  have hloop := statements_loop (statement_complete n) (.inl rfl) hp hws hkind hroom hroom #[]
  have hstatements : statements (statement n) n none s = .ok p.body s' := by
    refine (bind_of_ok hloop _).trans ?_
    simp [pure, EStateM.pure]
  exact bind_of_ok hstatements _

end Scriptlet.Grammar
