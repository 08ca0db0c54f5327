/-
# Bounds that are large enough

The rules are given a bound on the tokens that are left, and a session knows such a bound itself
(`Session.room`).  What a rule does, whether it succeeds or fails, does not depend on the bound once
that is at least as large as the room of the session.  So the bounds only serve to make the rules
terminate.

Two rules that agree in all sessions with little room are related by `AgreeUpTo`.  A token that is
consumed takes up room, and so it is enough that what follows the token agrees in sessions with
less room.
-/
import Scriptlet.Proofs.Grammar.Completeness
import Scriptlet.Proofs.Grammar.Failure

namespace Scriptlet.Grammar

open Reading

/-- Two rules agree in all sessions whose room is at most `n`. -/
def AgreeUpTo {α : Type} (n : Nat) (p q : Reading α) : Prop := ∀ s : Session, s.room ≤ n → p s = q s

/-- A rule that asks for an identifier where there is no token. -/
def AtEnd {α : Type} (p : Reading α) : Prop :=
  ∀ s, s.lookahead = none → p s = .error ⟨.endOfInput Kind.identifier.label, s.position⟩ s

section Combinators

variable {α β : Type} {n m : Nat} {p q : Reading α} {f g : α → Reading β}
  {D : List Word → α → Prop}

/-! ## The end of the source -/

lemma AtEnd.bind (hp : AtEnd p) : AtEnd (p >>= f) :=
  fun s hl => bind_of_error (hp s hl) f

lemma atEnd_peek {f : Option Kind → Reading α} (h : AtEnd (f none)) : AtEnd (peek >>= f) := by
  intro s hl
  rw [peek_bind, kind?_eq_none_iff.mpr hl]
  exact h s hl

lemma atEnd_identifier : AtEnd (expect .identifier) :=
  fun _ hl => expect_eq_error_iff.mpr (.ended hl)

/-- Where there is no room, all that matters is what the rules do without a token. -/
lemma AtEnd.agreeUpTo (hp : AtEnd p) (hq : AtEnd q) : AgreeUpTo 0 p q := by
  intro s hroom
  have hl := lookahead_eq_none (Nat.le_zero.mp hroom)
  rw [hp s hl, hq s hl]

/-! ## Agreement -/

lemma AgreeUpTo.refl (p : Reading α) : AgreeUpTo n p p := fun _ _ => rfl

lemma AgreeUpTo.mono (h : AgreeUpTo n p q) (hm : m ≤ n) : AgreeUpTo m p q :=
  fun s hroom => h s (Nat.le_trans hroom hm)

/-- What follows need only agree in the sessions that the first rule leaves. -/
lemma AgreeUpTo.bind_of_ok (hp : AgreeUpTo n p q)
    (hf : ∀ s a s', s.room ≤ n → p s = .ok a s' → f a s' = g a s') :
    AgreeUpTo n (p >>= f) (q >>= g) := by
  intro s hroom
  have hpq := hp s hroom
  cases hs : p s with
  | ok a s' =>
    rw [Reading.bind_of_ok hs, Reading.bind_of_ok (hpq ▸ hs)]
    exact hf s a s' hroom hs
  | error e s' => rw [bind_of_error hs, bind_of_error (hpq ▸ hs)]

lemma AgreeUpTo.bind (hp : AgreeUpTo n p q) (hsound : Sound p D)
    (hf : ∀ ws a, D ws a → AgreeUpTo n (f a) (g a)) : AgreeUpTo n (p >>= f) (q >>= g) := by
  refine hp.bind_of_ok fun s a s' hroom hs => ?_
  obtain ⟨ws, hws, ha⟩ := hsound s a s' hs
  have hle := hws.room_add_length_le
  exact hf ws a ha s' (by omega)

/-- Behind a rule that consumes a token there is less room. -/
lemma AgreeUpTo.bind_succ (hp : AgreeUpTo (n + 1) p q) (hsound : Sound p fun ws _ => ws ≠ [])
    (hf : ∀ a, AgreeUpTo n (f a) (g a)) : AgreeUpTo (n + 1) (p >>= f) (q >>= g) := by
  refine hp.bind_of_ok fun s a s' hroom hs => ?_
  obtain ⟨ws, hws, hne⟩ := hsound s a s' hs
  have hle := hws.room_add_length_le
  have hpos := List.length_pos_iff.mpr hne
  exact hf a s' (by omega)

lemma agree_expect_bind {k : Kind} {f g : Token → Reading β}
    (hf : ∀ t, AgreeUpTo (n - 1) (f t) (g t)) :
    AgreeUpTo n (expect k >>= f) (expect k >>= g) := by
  cases n with
  | zero =>
    intro s hroom
    have hl := lookahead_eq_none (Nat.le_zero.mp hroom)
    have hexpect := expect_eq_error_iff.mpr (.ended (d := .token k) hl)
    rw [bind_of_error hexpect, bind_of_error hexpect]
  | succ n =>
    refine (AgreeUpTo.refl _).bind_succ (fun s t s' h => ?_) hf
    exact ⟨_, consumes_of_expect h, List.cons_ne_nil _ _⟩

lemma agree_peek {f g : Option Kind → Reading β} (h : ∀ k, AgreeUpTo n (f k) (g k)) :
    AgreeUpTo n (peek >>= f) (peek >>= g) :=
  fun s hroom => h s.kind? s hroom

/-- A repetition of steps that consume tokens, with a bound that leaves room for all of them. -/
lemma agree_repeatWhile {more : Option Kind → Bool} {step step' : α → Reading α} {N M : Nat}
    (hmore : more none = false) (hstep : ∀ a, AgreeUpTo n (step a) (step' a))
    (hsound : ∀ a, Sound (step a) fun ws _ => ws ≠ []) (hN : n ≤ N) (hM : n ≤ M) (a : α) :
    AgreeUpTo n (repeatWhile more step N a) (repeatWhile more step' M a) := by
  induction n generalizing N M a with
  | zero =>
    intro s hroom
    have hl := lookahead_eq_none (Nat.le_zero.mp hroom)
    have hstop : more s.kind? = false := by rw [kind?_eq_none_iff.mpr hl, hmore]
    rw [repeatWhile_of_not hstop, repeatWhile_of_not hstop]
  | succ n ih =>
    obtain ⟨N, rfl⟩ := Nat.exists_eq_add_of_le' hN
    obtain ⟨M, rfl⟩ := Nat.exists_eq_add_of_le' hM
    refine agree_peek fun k => ?_
    cases more k with
    | false => exact .refl _
    | true =>
      refine (hstep a).bind_succ (hsound a) fun b => ?_
      exact ih (fun a => (hstep a).mono (Nat.le_succ n)) (Nat.le_add_left n N)
        (Nat.le_add_left n M) b

end Combinators

/-! ## Operands -/

variable {n a b : Nat}

lemma primary_atEnd (inner : Reading Expr) : AtEnd (primary inner) := by
  refine atEnd_peek ?_
  dsimp only
  rw [map_eq_pure_bind, identifier, bind_assoc]
  exact atEnd_identifier.bind

lemma unary_atEnd (inner : Reading Expr) (n : Nat) : AtEnd (unary inner n) := by
  cases n with
  | zero => exact primary_atEnd inner
  | succ n => exact atEnd_peek (primary_atEnd inner)

section Expressions

variable {inner inner' : Reading Expr} (hsound : Sound inner (DerivesExpr .assignment))
  (hinner : AgreeUpTo n inner inner')

include hsound hinner

lemma primary_agree : AgreeUpTo (n + 1) (primary inner) (primary inner') := by
  refine agree_peek fun k => ?_
  rcases k with _ | k
  · exact .refl _
  · cases k with
    | openParen => exact agree_expect_bind fun _ => hinner.bind hsound fun _ _ _ => .refl _
    | _ => exact .refl _

lemma unary_agree {m : Nat} (hm : m ≤ n + 1) (ha : m ≤ a) (hb : m ≤ b) :
    AgreeUpTo m (unary inner a) (unary inner' b) := by
  induction m generalizing a b with
  | zero => exact (unary_atEnd inner a).agreeUpTo (unary_atEnd inner' b)
  | succ m ih =>
    obtain ⟨a, rfl⟩ := Nat.exists_eq_add_of_le' ha
    obtain ⟨b, rfl⟩ := Nat.exists_eq_add_of_le' hb
    have hoperand : AgreeUpTo m (unary inner (a + m)) (unary inner' (b + m)) :=
      ih (by omega) (by omega) (by omega)
    have hprimary := (primary_agree hsound hinner).mono hm
    refine agree_peek fun k => ?_
    rcases k with _ | k
    · exact hprimary
    · cases k with
      | additive | logicalNot =>
        exact agree_expect_bind fun _ => hoperand.bind (unary_sound hsound _) fun _ _ _ => .refl _
      | _ => exact hprimary

end Expressions

/-! ## Operators between operands -/

lemma chain_agree {k : Kind} {level : Level} {operand operand' : Reading Expr}
    (hlevel : level.operator? = some k)
    (hsound : Sound operand (DerivesExpr (category level.next)))
    (hoperand : AgreeUpTo n operand operand') (ha : n ≤ a) (hb : n ≤ b) :
    AgreeUpTo n (chain a level operand) (chain b level operand') := by
  simp only [chain, hlevel]
  refine hoperand.bind hsound fun _ first _ => ?_
  refine agree_repeatWhile rfl (fun left => ?_) (fun left => ?_) ha hb first
  · refine agree_expect_bind fun o => ?_
    exact (hoperand.mono (Nat.sub_le n 1)).bind hsound fun _ _ _ => .refl _
  · refine sound_expect_bind fun o => ?_
    exact hsound.bind fun ws right _ => sound_pure (by simp)

lemma chain_atEnd {operand : Reading Expr} (hoperand : AtEnd operand) (n : Nat) (level : Level) :
    AtEnd (chain n level operand) := by
  cases hlevel : level.operator? with
  | none => simpa only [chain, hlevel] using hoperand
  | some k =>
    simp only [chain, hlevel]
    exact hoperand.bind

lemma binary_atEnd (inner : Reading Expr) (n : Nat) (level : Level) :
    AtEnd (binary inner n level) := by
  rw [binary]
  induction level :: level.tighter with
  | nil => exact unary_atEnd inner n
  | cons level levels ih => exact chain_atEnd ih n level

lemma expression_atEnd (n : Nat) : AtEnd (expression n) := by
  cases n with
  | zero =>
    rw [expression, map_eq_pure_bind, identifier, bind_assoc]
    exact atEnd_identifier.bind
  | succ n => exact (binary_atEnd _ _ _).bind

section Chains

variable {inner inner' : Reading Expr} (hsound : Sound inner (DerivesExpr .assignment))
  (hinner : AgreeUpTo n inner inner')

include hsound hinner

lemma binary_agree (ha : n + 1 ≤ a) (hb : n + 1 ≤ b) (level : Level) :
    AgreeUpTo (n + 1) (binary inner a level) (binary inner' b level) := by
  refine level_induction
    (P := fun level => AgreeUpTo (n + 1) (binary inner a level) (binary inner' b level))
    ?_ ?_ level
  · exact unary_agree hsound hinner (Nat.le_refl _) ha hb
  · intro level k hlevel hnext
    rw [binary_of_operator? inner a hlevel, binary_of_operator? inner' b hlevel]
    exact chain_agree hlevel (binary_sound hsound a level.next) hnext ha hb

lemma assignment_agree (ha : n + 1 ≤ a) (hb : n + 1 ≤ b) :
    AgreeUpTo (n + 1) (assignment inner a) (assignment inner' b) := by
  refine (binary_agree hsound hinner ha hb .logicalOr).bind (binary_sound hsound a _)
    fun _ left _ => ?_
  refine agree_peek fun k => ?_
  rcases k with _ | k
  · exact .refl _
  · dsimp only
    split
    · refine agree_expect_bind fun o => ?_
      cases left with
      | ident x => exact hinner.bind hsound fun _ _ _ => .refl _
      | _ => exact .refl _
    · exact .refl _

end Chains

/-- **An expression does not depend on a bound that is large enough.** -/
lemma expression_agree (h : n ≤ a) : AgreeUpTo n (expression n) (expression a) := by
  induction n generalizing a with
  | zero => exact (expression_atEnd 0).agreeUpTo (expression_atEnd a)
  | succ n ih =>
    obtain ⟨a, rfl⟩ := Nat.exists_eq_add_of_le' h
    exact assignment_agree (expression_sound n) (ih (Nat.le_add_left n a)) (Nat.le_refl _) h

/-! ## Statements -/

lemma expressionStatement_agree (h : n ≤ a) :
    AgreeUpTo n (expressionStatement n) (expressionStatement a) :=
  (expression_agree h).bind (expression_sound n) fun _ _ _ => .refl _

lemma declaration_agree (h : n ≤ a) : AgreeUpTo n (declaration n) (declaration a) := by
  have hidentifier : Sound identifier fun _ _ => True :=
    sound_expect_bind fun _ => sound_pure trivial
  refine (AgreeUpTo.refl identifier).bind hidentifier fun _ x _ => ?_
  refine agree_peek fun k => ?_
  rcases k with _ | k
  · exact .refl _
  · cases k with
    | simpleAssign =>
      refine agree_expect_bind fun _ => ?_
      exact ((expression_agree h).mono (Nat.sub_le n 1)).bind (expression_sound n)
        fun _ _ _ => .refl _
    | _ => exact .refl _

lemma declarations_agree (h : n ≤ a) : AgreeUpTo (n + 1) (declarations n) (declarations a) := by
  have hdeclaration := declaration_agree h
  refine agree_expect_bind fun _ => ?_
  refine hdeclaration.bind (declaration_sound n) fun ws first hfirst => ?_
  refine AgreeUpTo.bind ?_ (sound_repeatWhile n (declarations_step_sound n) (.one hfirst))
    fun _ _ _ => .refl _
  refine agree_repeatWhile rfl (fun ds => ?_) (fun ds => ?_) (Nat.le_refl n) h #[first]
  · refine agree_expect_bind fun _ => ?_
    exact (hdeclaration.mono (Nat.sub_le n 1)).bind (declaration_sound n) fun _ _ _ => .refl _
  · refine sound_expect_bind fun _ => ?_
    exact (declaration_sound n).bind fun ws d _ => sound_pure (by simp)

section Nested

variable {inner inner' : Reading Stmt} (hsound : Sound inner DerivesStmt)
  (hinner : AgreeUpTo n inner inner')

include hsound hinner

lemma statements_agree (ha : n ≤ a) (hb : n ≤ b) (stop : Option Kind) :
    AgreeUpTo n (statements inner a stop) (statements inner' b stop) := by
  refine AgreeUpTo.bind ?_ (sound_repeatWhile a (statements_step_sound hsound) .nil)
    fun _ _ _ => .refl _
  refine agree_repeatWhile rfl (fun body => ?_) (fun body => ?_) ha hb #[]
  · exact hinner.bind hsound fun _ _ _ => .refl _
  · refine hsound.bind fun ws st hst => sound_pure ?_
    rw [List.append_nil]
    exact hst.ne_nil

lemma block_agree (ha : n ≤ a) (hb : n ≤ b) :
    AgreeUpTo (n + 1) (block inner a) (block inner' b) := by
  refine agree_expect_bind fun _ => ?_
  exact (statements_agree hsound hinner ha hb _).bind (statements_sound hsound a _)
    fun _ _ _ => .refl _

lemma conditional_agree (h : n ≤ a) :
    AgreeUpTo (n + 1) (conditional inner n) (conditional inner' a) := by
  have hinner' (i : Nat) := hinner.mono (Nat.sub_le n i)
  refine agree_expect_bind fun _ => ?_
  refine agree_expect_bind fun _ => ?_
  refine ((expression_agree h).mono (Nat.sub_le n 1)).bind (expression_sound n)
    fun _ test _ => ?_
  refine agree_expect_bind fun _ => ?_
  refine (hinner' 2).bind hsound fun _ consequent _ => ?_
  refine agree_peek fun k => ?_
  rcases k with _ | k
  · exact .refl _
  · cases k with
    | elseWord =>
      refine agree_expect_bind fun _ => ?_
      exact (hinner' 3).bind hsound fun _ _ _ => .refl _
    | _ => exact .refl _

end Nested

lemma statement_atEnd (n : Nat) : AtEnd (statement n) := by
  cases n with
  | zero => exact (expression_atEnd 0).bind
  | succ n => exact atEnd_peek (expression_atEnd (n + 1)).bind

/-- **A statement does not depend on a bound that is large enough.** -/
lemma statement_agree (h : n ≤ a) : AgreeUpTo n (statement n) (statement a) := by
  induction n generalizing a with
  | zero => exact (statement_atEnd 0).agreeUpTo (statement_atEnd a)
  | succ n ih =>
    obtain ⟨a, rfl⟩ := Nat.exists_eq_add_of_le' h
    have hsound := statement_sound n
    have hn := Nat.le_add_left n a
    have hexpression := expressionStatement_agree h
    refine agree_peek fun k => ?_
    rcases k with _ | k
    · exact hexpression
    · cases k with
      | semicolon => exact .refl _
      | ifWord => exact conditional_agree hsound (ih hn) hn
      | openCurly => exact block_agree hsound (ih hn) (Nat.le_refl n) hn
      | letWord => exact declarations_agree hn
      | _ => exact hexpression

/-- **A program does not depend on a bound that is large enough.** -/
theorem program_eq_of_room_le {s : Session} (h : s.room ≤ n) : program s.room s = program n s := by
  have hsound := statement_sound s.room
  have hbody := statements_agree hsound (statement_agree h) (Nat.le_refl s.room) h none
  exact hbody.bind (statements_sound hsound _ none) (fun _ _ _ => .refl _) s (Nat.le_refl _)

end Scriptlet.Grammar
