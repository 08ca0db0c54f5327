/-
# What the rules read is derived by the grammar

Whenever a rule succeeds, the words of the tokens it consumed derive the tree it gave
(`Sound`).  No bound enters here: a rule that is given too small a bound may stop early or fail,
but it cannot give a wrong tree.  The only place where a rule has to look at what it left behind is
the `if`: a consequent that ends in an `if` without `else` was read up to a token other than
`else` (`Settled`), so that no `else` can follow it.
-/
import Scriptlet.Grammar.Statement
import Scriptlet.Proofs.Grammar.Consume
import Scriptlet.Proofs.Grammar.Derivation

namespace Scriptlet.Grammar

open Reading

variable {s s' : Session} {k : Kind} {t : Token}

/-- A rule is sound for a category of the grammar if all that it reads is derived there. -/
def Sound {α : Type} (p : Reading α) (D : List Word → α → Prop) : Prop :=
  ∀ s a s', p s = .ok a s' → ∃ ws, Consumes s ws s' ∧ D ws a

section Combinators

variable {α β : Type} {p : Reading α} {D : List Word → α → Prop} {E : List Word → β → Prop}

lemma sound_pure {a : α} (h : D [] a) : Sound (pure a) D := by
  intro s b s' hs
  obtain ⟨rfl, rfl⟩ := pure_eq_ok.mp hs
  exact ⟨[], .nil s, h⟩

lemma sound_throw (e : Error) : Sound (throw e) D := by
  intro s a s' hs
  cases hs

/-- A rule that goes on behind what another one has read. -/
lemma Sound.bind {f : α → Reading β} (hp : Sound p D)
    (hf : ∀ ws a, D ws a → Sound (f a) fun us b => E (ws ++ us) b) : Sound (p >>= f) E := by
  intro s b s' hs
  obtain ⟨a, s₁, ha, hb⟩ := bind_eq_ok.mp hs
  obtain ⟨ws, hws, hD⟩ := hp s a s₁ ha
  obtain ⟨us, hus, hE⟩ := hf ws a hD s₁ b s' hb
  exact ⟨ws ++ us, hws.append hus, hE⟩

lemma Sound.mono {D' : List Word → α → Prop} (hp : Sound p D) (h : ∀ ws a, D ws a → D' ws a) :
    Sound p D' := by
  intro s a s' hs
  obtain ⟨ws, hws, hD⟩ := hp s a s' hs
  exact ⟨ws, hws, h ws a hD⟩

lemma sound_expect_bind {f : Token → Reading β}
    (hf : ∀ t, Sound (f t) fun us b => E (⟨k, t.value⟩ :: us) b) : Sound (expect k >>= f) E := by
  have hexpect : Sound (expect k) fun ws t => ws = [⟨k, t.value⟩] := by
    intro s t s' hs
    exact ⟨[⟨k, t.value⟩], consumes_of_expect hs, rfl⟩
  refine hexpect.bind fun ws t hws => ?_
  rw [hws]
  exact hf t

/-- A rule that decides by the lookahead is sound if all its alternatives are. -/
lemma sound_peek {f : Option Kind → Reading β} (h : ∀ k, Sound (f k) E) :
    Sound (peek >>= f) E := by
  intro s a s' hs
  rw [peek_bind] at hs
  exact h s.kind? s a s' hs

/-- A rule that decides by the lookahead that another one has left. -/
lemma Sound.bind_peek {R : α → Option Kind → Prop} {f : α → Option Kind → Reading β}
    (hp : Sound p D) (hR : ∀ s a s', p s = .ok a s' → R a s'.kind?)
    (hf : ∀ ws a k, D ws a → R a k → Sound (f a k) fun us b => E (ws ++ us) b) :
    Sound (do let a ← p; f a (← peek)) E := by
  intro s b s' hs
  obtain ⟨a, s₁, ha, hb⟩ := bind_eq_ok.mp hs
  rw [peek_bind] at hb
  obtain ⟨ws, hws, hD⟩ := hp s a s₁ ha
  obtain ⟨us, hus, hE⟩ := hf ws a s₁.kind? hD (hR s a s₁ ha) s₁ b s' hb
  exact ⟨ws ++ us, hws.append hus, hE⟩

/-- What each step of a repetition adds to the words read before it, the repetition adds. -/
lemma sound_repeatWhile {more : Option Kind → Bool} {step : α → Reading α} {ws : List Word} {a : α}
    (n : Nat) (hstep : ∀ ws a, D ws a → Sound (step a) fun us b => D (ws ++ us) b)
    (ha : D ws a) : Sound (repeatWhile more step n a) fun us b => D (ws ++ us) b := by
  induction n generalizing ws a with
  | zero => exact sound_pure (by rwa [List.append_nil])
  | succ n ih =>
    refine sound_peek fun k => ?_
    split
    · refine (hstep ws a ha).bind fun us b hb => ?_
      refine (ih hb).mono fun vs c hc => ?_
      rwa [← List.append_assoc]
    · exact sound_pure (by rwa [List.append_nil])

end Combinators

/-! ## Operands -/

lemma sound_identifier_bind {β : Type} {f : String → Reading β} {E : List Word → β → Prop}
    (hf : ∀ x, Sound (f x) fun us b => E (⟨.identifier, x⟩ :: us) b) :
    Sound (identifier >>= f) E := by
  have hidentifier : Sound identifier fun ws x => ws = [⟨.identifier, x⟩] :=
    sound_expect_bind fun t => sound_pure rfl
  refine hidentifier.bind fun ws x hws => ?_
  rw [hws]
  exact hf x

lemma ident_sound : Sound (Expr.ident <$> identifier) (DerivesExpr .primary) := by
  rw [map_eq_pure_bind]
  exact sound_identifier_bind fun x => sound_pure (.ident x)

lemma numeric_sound : Sound numeric (DerivesExpr .primary) := by
  refine sound_expect_bind fun t => ?_
  dsimp only
  split
  · next hfinite => exact sound_pure (.number t.value hfinite)
  · exact sound_throw _

lemma quotedText_sound : Sound quotedText (DerivesExpr .primary) :=
  sound_expect_bind fun t => sound_pure (.text t.value)

lemma literal_sound : Sound literal (DerivesExpr .primary) := by
  refine sound_peek fun k => ?_
  split
  · exact numeric_sound
  · exact quotedText_sound
  · exact sound_expect_bind fun t => sound_pure (.trueLit t.value)
  · exact sound_expect_bind fun t => sound_pure (.falseLit t.value)
  · exact sound_expect_bind fun t => sound_pure (.nullLit t.value)
  · intro s e s' h
    cases h

section Operands

variable {inner : Reading Expr} (hinner : Sound inner (DerivesExpr .assignment))

include hinner

lemma grouping_sound : Sound (grouping inner) (DerivesExpr .primary) := by
  refine sound_expect_bind fun l => ?_
  refine hinner.bind fun ws e he => ?_
  refine sound_expect_bind fun r => ?_
  exact sound_pure (.paren l.value r.value he)

lemma primary_sound : Sound (primary inner) (DerivesExpr .primary) := by
  refine sound_peek fun k => ?_
  split
  · exact grouping_sound hinner
  · split
    · exact literal_sound
    · exact ident_sound
  · exact ident_sound

lemma unary_sound (n : Nat) : Sound (unary inner n) (DerivesExpr .unary) := by
  have hprimary : Sound (primary inner) (DerivesExpr .unary) :=
    (primary_sound hinner).mono fun ws e he => .bare he
  induction n with
  | zero => exact hprimary
  | succ n ih =>
    refine sound_peek fun k => ?_
    split
    · refine sound_expect_bind fun o => ?_
      refine ih.bind fun ws e he => ?_
      exact sound_pure (by simpa using .signed o.value (.inl rfl) he)
    · refine sound_expect_bind fun o => ?_
      refine ih.bind fun ws e he => ?_
      exact sound_pure (by simpa using .signed o.value (.inr rfl) he)
    · exact hprimary

end Operands

/-! ## Operators between operands -/

lemma eq_or_eq_of_isAssignment (h : k.isAssignment) :
    k = .simpleAssign ∨ k = .complexAssign := by
  cases k <;> first | exact .inl rfl | exact .inr rfl | cases h

section Chain

variable {level : Level} {operand : Reading Expr} (hlevel : level.operator? = some k)
  (hoperand : Sound operand (DerivesExpr (category level.next)))

include hlevel hoperand

/-- An operator and an operand, behind an expression of the level. -/
lemma chain_step_sound (ws : List Word) (left : Expr)
    (hleft : DerivesExpr (category level) ws left) :
    Sound (do
      let operator ← expect k
      return level.join operator.value left (← operand))
    fun us e => DerivesExpr (category level) (ws ++ us) e := by
  refine sound_expect_bind fun o => ?_
  refine hoperand.bind fun us right hright => ?_
  exact sound_pure (by simpa using .joined o.value (rung_of_operator? hlevel) hleft hright)

/-- A chain over sound operands is sound.  The invariant of the loop is that all the words read so
far derive the tree so far, which is how the left-recursive production is read from left to
right. -/
lemma chain_sound (n : Nat) : Sound (chain n level operand) (DerivesExpr (category level)) := by
  simp only [chain, hlevel]
  refine hoperand.bind fun ws first hfirst => ?_
  exact sound_repeatWhile n (chain_step_sound hlevel hoperand)
    (.single (rung_of_operator? hlevel) hfirst)

end Chain

section Chains

variable {inner : Reading Expr} (hinner : Sound inner (DerivesExpr .assignment))

include hinner

lemma binary_sound (n : Nat) (level : Level) :
    Sound (binary inner n level) (DerivesExpr (category level)) := by
  refine level_induction
    (P := fun level => Sound (binary inner n level) (DerivesExpr (category level))) ?_ ?_ level
  · exact unary_sound hinner n
  · intro level k hlevel hnext
    rw [binary_of_operator? inner n hlevel]
    exact chain_sound hlevel hnext n

lemma assignment_sound (n : Nat) : Sound (assignment inner n) (DerivesExpr .assignment) := by
  refine (binary_sound hinner n .logicalOr).bind fun ws left hleft => ?_
  have hplain : DerivesExpr .assignment (ws ++ []) left := by
    rw [List.append_nil]
    exact .plain hleft
  refine sound_peek fun k => ?_
  split
  · next k =>
    split
    · next hassign =>
      refine sound_expect_bind fun o => ?_
      -- Only a name passes as the target, and an expression that is a name is a target.
      cases left with
      | ident x =>
        refine hinner.bind fun us e he => ?_
        have hk := eq_or_eq_of_isAssignment hassign
        exact sound_pure (by simpa using .assign o.value hk hleft.target he)
      | _ => intro s e s' h; cases h
    · exact sound_pure hplain
  · exact sound_pure hplain

end Chains

/-- **An expression that is read is derived by the grammar.** -/
lemma expression_sound (n : Nat) : Sound (expression n) (DerivesExpr .assignment) := by
  induction n with
  | zero => exact ident_sound.mono fun ws e he => (DerivesExpr.bare he).toAssignment
  | succ n ih => exact assignment_sound ih (n + 1)

/-! ## Statements -/

lemma declaration_sound (n : Nat) : Sound (declaration n) DerivesDeclaration := by
  refine sound_identifier_bind fun x => ?_
  refine sound_peek fun k => ?_
  split
  · refine sound_expect_bind fun o => ?_
    refine (expression_sound n).bind fun ws e he => ?_
    exact sound_pure (by simpa using .init x o.value he)
  · exact sound_pure (.bare x)

/-- A comma and a declaration, behind other declarations. -/
lemma declarations_step_sound (n : Nat) (ws : List Word) (ds : Array Declaration)
    (hds : DerivesDeclarations ws ds.toList) :
    Sound (do
      let _ ← expect .comma
      return ds.push (← declaration n))
    fun us ds => DerivesDeclarations (ws ++ us) ds.toList := by
  refine sound_expect_bind fun o => ?_
  refine (declaration_sound n).bind fun us d hd => ?_
  exact sound_pure (by simpa using hds.snoc o.value hd)

lemma declarations_sound (n : Nat) : Sound (declarations n) DerivesStmt := by
  refine sound_expect_bind fun l => ?_
  refine (declaration_sound n).bind fun ws d hd => ?_
  refine (sound_repeatWhile n (declarations_step_sound n) (.one hd)).bind fun us ds hds => ?_
  refine sound_expect_bind fun o => ?_
  exact sound_pure (by simpa using DerivesStmt.declare l.value o.value hds)

lemma expressionStatement_sound (n : Nat) : Sound (expressionStatement n) DerivesStmt := by
  refine (expression_sound n).bind fun ws e he => ?_
  refine sound_expect_bind fun o => ?_
  exact sound_pure (.expr o.value he)

/-- A rule for statements that reads an `else` wherever one can be read. -/
def Settled (p : Reading Stmt) : Prop :=
  ∀ s st s', p s = .ok st s' → StmtEnds st s'.kind?

section Nested

variable {inner : Reading Stmt} (hinner : Sound inner DerivesStmt)

include hinner

/-- A statement behind other statements. -/
lemma statements_step_sound (ws : List Word) (body : Array Stmt)
    (hbody : DerivesBody ws body.toList) :
    Sound (do return body.push (← inner)) fun us body => DerivesBody (ws ++ us) body.toList := by
  refine hinner.bind fun us s hs => ?_
  exact sound_pure (by simpa using hbody.snoc hs)

lemma statements_sound (n : Nat) (stop : Option Kind) :
    Sound (statements inner n stop) DerivesBody := by
  refine (sound_repeatWhile n (statements_step_sound hinner) .nil).bind fun ws body hbody => ?_
  exact sound_pure (by simpa using hbody)

lemma block_sound (n : Nat) : Sound (block inner n) DerivesStmt := by
  refine sound_expect_bind fun l => ?_
  refine (statements_sound hinner n _).bind fun ws body hbody => ?_
  refine sound_expect_bind fun r => ?_
  exact sound_pure (.block l.value r.value hbody)

/-- An `else` is read with the nearest `if`, so that none is left behind an `if` without one. -/
lemma conditional_sound (n : Nat) (hsettled : Settled inner) :
    Sound (conditional inner n) DerivesStmt := by
  refine sound_expect_bind fun i => ?_
  refine sound_expect_bind fun l => ?_
  refine (expression_sound n).bind fun ws e he => ?_
  refine sound_expect_bind fun r => ?_
  refine hinner.bind_peek (R := StmtEnds) hsettled fun us st k hst hk => ?_
  split
  · -- The consequent left an `else` behind, so it had no place for it.
    have hclosed : st.endsOpen = false := by
      cases hopen : st.endsOpen with
      | false => rfl
      | true => exact absurd rfl (hk hopen)
    refine sound_expect_bind fun o => ?_
    refine hinner.bind fun vs st' hst' => ?_
    have hif := DerivesStmt.ifElse i.value l.value r.value o.value he hst hclosed hst'
    exact sound_pure (by simpa using hif)
  · exact sound_pure (by simpa using .ifThen i.value l.value r.value he hst)

end Nested

lemma conditional_settled {inner : Reading Stmt} (n : Nat) (hsettled : Settled inner) :
    Settled (conditional inner n) := by
  intro s st s' h
  obtain ⟨i, s₁, -, h⟩ := bind_eq_ok.mp h
  obtain ⟨l, s₂, -, h⟩ := bind_eq_ok.mp h
  obtain ⟨e, s₃, -, h⟩ := bind_eq_ok.mp h
  obtain ⟨r, s₄, -, h⟩ := bind_eq_ok.mp h
  obtain ⟨c, s₅, -, h⟩ := bind_eq_ok.mp h
  obtain ⟨p, hp, h⟩ := exists_of_peek_bind h
  split at hp
  · subst hp
    obtain ⟨o, s₆, -, h⟩ := bind_eq_ok.mp h
    obtain ⟨a, s₇, ha, h⟩ := bind_eq_ok.mp h
    obtain ⟨rfl, rfl⟩ := pure_eq_ok.mp h
    exact hsettled s₆ a s₇ ha
  · next helse =>
    subst hp
    obtain ⟨rfl, rfl⟩ := pure_eq_ok.mp h
    exact fun _ => helse

lemma statement_sound_of_settled (n : Nat) (hsound : Sound (statement n) DerivesStmt)
    (hsettled : Settled (statement n)) : Sound (statement (n + 1)) DerivesStmt := by
  refine sound_peek fun k => ?_
  split
  · exact sound_expect_bind fun o => sound_pure (.empty o.value)
  · exact conditional_sound hsound n hsettled
  · exact block_sound hsound n
  · exact declarations_sound n
  · exact expressionStatement_sound (n + 1)

/-- A statement that ends open is an `if`, and so it was read by the rule for it. -/
lemma statement_settled_of_sound (n : Nat) (hsound : Sound (statement (n + 1)) DerivesStmt)
    (hsettled : Settled (statement n)) : Settled (statement (n + 1)) := by
  intro s st s' h hopen
  have hif : s.kind? = some .ifWord := by
    obtain ⟨ws, hws, hderives⟩ := hsound s st s' h
    obtain ⟨w, us, rfl, hw⟩ := hderives.starts_of_endsOpen hopen
    rw [hws.kind?_eq, hw]
  refine conditional_settled n hsettled s st s' ?_ hopen
  rw [statement, peek_bind, hif] at h
  exact h

/-- **A statement that is read is derived by the grammar**, and no `else` is left behind it that
could belong to it. -/
theorem statement_sound_settled (n : Nat) :
    Sound (statement n) DerivesStmt ∧ Settled (statement n) := by
  induction n with
  | zero =>
    refine ⟨expressionStatement_sound 0, ?_⟩
    intro s st s' h hopen
    obtain ⟨e, s₁, -, h⟩ := bind_eq_ok.mp h
    obtain ⟨o, s₂, -, h⟩ := bind_eq_ok.mp h
    obtain ⟨rfl, rfl⟩ := pure_eq_ok.mp h
    cases hopen
  | succ n ih =>
    obtain ⟨hsound, hsettled⟩ := ih
    have hsound' := statement_sound_of_settled n hsound hsettled
    exact ⟨hsound', statement_settled_of_sound n hsound' hsettled⟩

lemma statement_sound (n : Nat) : Sound (statement n) DerivesStmt := (statement_sound_settled n).1

/-! ## Programs -/

/-- Every statement takes up room. -/
lemma room_lt_of_sound {inner : Reading Stmt} (hsound : Sound inner DerivesStmt) {st : Stmt}
    (h : inner s = .ok st s') : s'.room < s.room := by
  obtain ⟨ws, hws, hderives⟩ := hsound s st s' h
  obtain ⟨w, us, rfl, -⟩ := hderives.starts
  have hroom := hws.room_add_length_le
  rw [List.length_cons] at hroom
  omega

/-- Statements that are given room for all tokens are read up to the end of the source or up to the
token that is to stop them. -/
lemma statements_stops {inner : Reading Stmt} (hsound : Sound inner DerivesStmt) {n : Nat}
    {stop : Option Kind} {body : List Stmt} (hroom : s.room ≤ n)
    (h : statements inner n stop s = .ok body s') : s'.kind? = none ∨ s'.kind? = stop := by
  obtain ⟨acc, s₁, hacc, h⟩ := bind_eq_ok.mp h
  obtain ⟨-, rfl⟩ := pure_eq_ok.mp h
  -- Every step takes up room, so the repetition does not run out of steps before the end.
  have hstops := repeatWhile_stops rfl ?_ hroom hacc
  · rw [Bool.and_eq_false_iff] at hstops
    rcases hstops with hnone | hstop
    · exact .inl (by simpa using hnone)
    · exact .inr (by simpa using hstop)
  · intro body s body' s' hstep
    obtain ⟨st, s₁, hst, h⟩ := bind_eq_ok.mp hstep
    obtain ⟨rfl, rfl⟩ := pure_eq_ok.mp h
    exact room_lt_of_sound hsound hst

lemma program_sound (n : Nat) : Sound (program n) DerivesProgram := by
  refine (statements_sound (statement_sound n) n none).bind fun ws body hbody => ?_
  exact sound_pure (by simpa [DerivesProgram] using hbody)

/-- A program that is given room for all tokens leaves none. -/
lemma program_stops {n : Nat} {p : Program} (hroom : s.room ≤ n) (h : program n s = .ok p s') :
    s'.lookahead = none := by
  obtain ⟨body, s₁, hbody, h⟩ := bind_eq_ok.mp h
  obtain ⟨-, rfl⟩ := pure_eq_ok.mp h
  have hstops := statements_stops (statement_sound n) hroom hbody
  rwa [or_self, kind?_eq_none_iff] at hstops

end Scriptlet.Grammar
