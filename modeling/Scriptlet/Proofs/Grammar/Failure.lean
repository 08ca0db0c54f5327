/-
# Where rules fail

A rule fails at the first token that it has no use for, and not before.  Whenever it fails, it has
consumed some tokens and then a demand was refused (`Refused`): a token of some kind was to come, a
number was not to be too large, or an operator was not to assign to what stands before it.  Unless
the refusal is a lexical error, the words consumed so far begin something that the grammar derives
(`Failure`): they can be completed by a few words of a fixed stock (`fillers`), the first of which
is the token that the error asks for.

Like soundness this holds for every bound that a rule is given.  A rule that is chosen by the
lookahead needs no completion for the token it begins with, so such rules are studied under the
lookahead they are chosen for (`FailsAt`).
-/
import Scriptlet.Proofs.Grammar.Soundness

namespace Scriptlet

namespace Reading

variable {α β : Type} {s s' : Session} {k : Kind} {t : Token} {e : Error}

lemma bind_eq_error {p : Reading α} {f : α → Reading β} :
    (p >>= f) s = .error e s' ↔
      p s = .error e s' ∨ ∃ a s₁, p s = .ok a s₁ ∧ f a s₁ = .error e s' := by
  simp only [bind, EStateM.bind]
  cases hp : p s with
  | ok a s₁ =>
    constructor
    · intro h
      exact .inr ⟨a, s₁, rfl, h⟩
    · rintro (h | ⟨b, s₂, hb, h⟩)
      · cases h
      · obtain ⟨rfl, rfl⟩ := EStateM.Result.ok.inj hb
        exact h
  | error e₁ s₁ => simp

lemma bind_of_error {p : Reading α} (h : p s = .error e s') (f : α → Reading β) :
    (p >>= f) s = .error e s' :=
  bind_eq_error.mpr (.inl h)

/-- All that scanning can fail with is a lexical error. -/
lemma phase_of_advance (h : advance s = .error e s') : e.cause.phase = .lexical := by
  obtain ⟨cursor, hnext, -⟩ := advance_eq_error_iff.mp h
  obtain ⟨-, ⟨text, hcause⟩, -⟩ := Cursor.refusal_of_next hnext
  rw [hcause, Cause.phase]

end Reading

/-- Words that begin with the token that a cause asks for, if it asks for one. -/
def Cause.MetBy (c : Cause) (us : List Word) : Prop :=
  ∀ wanted, c.expected? = some wanted → ∃ w vs, us = w :: vs ∧ w.kind.label = wanted

lemma Cause.MetBy.append {c : Cause} {us : List Word} (h : c.MetBy us) (vs : List Word) :
    c.MetBy (us ++ vs) := by
  intro wanted hwanted
  obtain ⟨w, us, rfl, hw⟩ := h wanted hwanted
  exact ⟨w, us ++ vs, rfl, hw⟩

namespace Grammar

open Reading

variable {α β : Type} {s s' s₁ : Session} {k : Kind} {e : Error} {ws us : List Word}

/-! ## Demands -/

/-- What a rule asks for at a token. -/
inductive Demand where
  /-- A token of the kind. -/
  | token (kind : Kind)
  /-- A number that is not beyond the largest double. -/
  | finite
  /-- No assignment operator of the kind, since nothing it could assign to stands before it. -/
  | assignable (operator : Kind) (hassign : operator.isAssignment)
deriving DecidableEq, Repr

namespace Demand

/-- The kind of the token that is consumed when a demand is met, or before it is refused. -/
def kind : Demand → Kind
  | token kind => kind
  | finite => .number
  | assignable operator _ => operator

/-- Why a token is refused after it is consumed. -/
def cause? : Demand → String → Option Cause
  | token _, _ => none
  | finite, digits => some (.tooLarge digits)
  | assignable _ _, _ => some .notAssignable

/-- A demand that refuses a token after it is consumed does not ask for another one. -/
lemma metBy_of_cause? {d : Demand} {text : String} {c : Cause} (h : d.cause? text = some c)
    (us : List Word) : c.MetBy us := by
  intro wanted hwanted
  cases d with
  | token => cases h
  | finite | assignable =>
    obtain rfl := Option.some.inj h
    cases hwanted

end Demand

/-- `Refused d s e s'`: at the lookahead of the session `s` the demand `d` is refused with the
error `e`, and the session is left as `s'`. -/
inductive Refused (d : Demand) (s : Session) : Error → Session → Prop
  /-- There is no token. -/
  | ended (hl : s.lookahead = none) : Refused d s ⟨.endOfInput d.kind.label, s.position⟩ s
  /-- There is a token of another kind. -/
  | mismatch {t : Token} (hl : s.lookahead = some t) (hk : t.kind ≠ d.kind) :
      Refused d s ⟨.unexpected t.value d.kind.label, t.span.start⟩ s
  /-- There is a lexical error behind the token. -/
  | lexical {t : Token} {e : Error} {s' : Session} (hl : s.lookahead = some t)
      (hk : t.kind = d.kind)
      (h : advance (s.consume t) = .error e s') : Refused d s e s'
  /-- The token was consumed, and turned out to be unfit. -/
  | late {t : Token} {c : Cause} {s' : Session} (h : expect d.kind s = .ok t s')
      (hc : d.cause? t.value = some c) : Refused d s ⟨c, t.span.start⟩ s'

/-- A token is refused if there is none, if it is of another kind, or if a lexical error comes up
behind it. -/
lemma expect_eq_error_iff : expect k s = .error e s' ↔ Refused (.token k) s e s' := by
  constructor
  · intro h
    unfold expect at h
    split at h
    · next hl =>
      obtain ⟨rfl, rfl⟩ := EStateM.Result.error.inj h
      exact .ended hl
    · next t hl =>
      split at h
      · next hk =>
        split at h
        · cases h
        · next hadvance =>
          obtain ⟨rfl, rfl⟩ := EStateM.Result.error.inj h
          exact .lexical hl hk hadvance
      · next hk =>
        obtain ⟨rfl, rfl⟩ := EStateM.Result.error.inj h
        rw [Session.position, hl]
        exact .mismatch hl hk
  · intro h
    unfold expect
    cases h with
    | ended hl =>
      split
      · rfl
      · next hu => simp [hl] at hu
    | @mismatch t hl hk =>
      split
      · next hu => simp [hl] at hu
      · next u hu =>
        obtain rfl : t = u := Option.some.inj (hl.symm.trans hu)
        have hk : t.kind ≠ k := hk
        have hposition : s.position = t.span.start := by rw [Session.position, hl]
        rw [if_neg hk, hposition]
        rfl
    | @lexical t _ _ hl hk h =>
      split
      · next hu => simp [hl] at hu
      · next u hu =>
        obtain rfl : t = u := Option.some.inj (hl.symm.trans hu)
        have hk : t.kind = k := hk
        rw [if_pos hk, h]
    | late _ hc => cases hc

/-- Where a token is refused, the error asks for a token of the kind, or is lexical and asks for
none. -/
lemma metBy_of_expect (h : expect k s = .error e s') (text : String) (us : List Word) :
    e.cause.MetBy (⟨k, text⟩ :: us) := by
  intro wanted hwanted
  refine ⟨⟨k, text⟩, us, rfl, ?_⟩
  cases expect_eq_error_iff.mp h with
  | ended | mismatch => exact Option.some.inj hwanted
  | lexical _ _ h =>
    have hphase := Cause.phase_of_expected? hwanted
    rw [phase_of_advance h] at hphase
    cases hphase
  | late _ hc => cases hc

/-- A token of the kind that the lookahead has is refused only for a lexical error. -/
lemma phase_of_expect (hkind : s.kind? = some k) (h : expect k s = .error e s') :
    e.cause.phase = .lexical := by
  cases expect_eq_error_iff.mp h with
  | ended hl =>
    rw [kind?_eq_none_iff.mpr hl] at hkind
    cases hkind
  | mismatch hl hk =>
    rw [Session.kind?, hl, Option.map_some] at hkind
    exact absurd (Option.some.inj hkind) hk
  | lexical _ _ h => exact phase_of_advance h
  | late _ hc => cases hc

/-! ## Failures -/

/-- The words that what a rule has begun is completed with. -/
def fillers : List Word :=
  [⟨.identifier, "x"⟩, ⟨.openParen, "("⟩, ⟨.closeParen, ")"⟩, ⟨.semicolon, ";"⟩,
    ⟨.closeCurly, "\x7d"⟩]

/-- Something is derived from fillers alone. -/
def Completable (D : List Word → α → Prop) : Prop := ∃ us a, us ⊆ fillers ∧ D us a

/-- How a rule for a category of the grammar fails: it has consumed words, a demand is refused at
the next one, and unless that is for a lexical error, fillers that meet what the error asks for
complete the words. -/
def Failure (D : List Word → α → Prop) (s : Session) (e : Error) (s' : Session) : Prop :=
  ∃ ws s₁ d, Consumes s ws s₁ ∧ Refused d s₁ e s' ∧
    (e.cause.phase = .syntactic → ∃ us a, us ⊆ fillers ∧ e.cause.MetBy us ∧ D (ws ++ us) a)

/-- With a lookahead of this kind, a rule fails only in the ways of a failure. -/
def FailsAt (k : Option Kind) (p : Reading α) (D : List Word → α → Prop) : Prop :=
  ∀ s e s', s.kind? = k → p s = .error e s' → Failure D s e s'

/-- A rule fails only in the ways of a failure. -/
def Fails (p : Reading α) (D : List Word → α → Prop) : Prop := ∀ k, FailsAt k p D

section Combinators

variable {p : Reading α} {D : List Word → α → Prop} {E : List Word → β → Prop} {o : Option Kind}

/-- What is derived later completes what is derived before. -/
lemma Failure.extend (h : Failure D s e s')
    (hext : ∀ ws a, D ws a → Completable fun us b => E (ws ++ us) b) : Failure E s e s' := by
  obtain ⟨ws, s₁, d, hws, hd, hsyntactic⟩ := h
  refine ⟨ws, s₁, d, hws, hd, fun hphase => ?_⟩
  obtain ⟨us, a, hus, hmet, ha⟩ := hsyntactic hphase
  obtain ⟨vs, b, hvs, hb⟩ := hext _ a ha
  refine ⟨us ++ vs, b, List.append_subset.mpr ⟨hus, hvs⟩, hmet.append vs, ?_⟩
  rwa [← List.append_assoc]

/-- A failure behind words that were consumed before. -/
lemma Failure.behind (hws : Consumes s ws s₁) (h : Failure (fun us b => E (ws ++ us) b) s₁ e s') :
    Failure E s e s' := by
  obtain ⟨vs, s₂, d, hvs, hd, hsyntactic⟩ := h
  refine ⟨ws ++ vs, s₂, d, hws.append hvs, hd, fun hphase => ?_⟩
  obtain ⟨us, b, hus, hmet, hb⟩ := hsyntactic hphase
  exact ⟨us, b, hus, hmet, by rwa [List.append_assoc]⟩

lemma fails_pure {a : α} : Fails (pure a) D := by
  intro k s e s' _ h
  cases h

lemma FailsAt.bind {f : α → Reading β} (hp : FailsAt o p D) (hsound : Sound p D)
    (hext : ∀ ws a, D ws a → Completable fun us b => E (ws ++ us) b)
    (hf : ∀ ws a, D ws a → Fails (f a) fun us b => E (ws ++ us) b) : FailsAt o (p >>= f) E := by
  intro s e s' hkind h
  rcases bind_eq_error.mp h with h | ⟨a, s₁, ha, h⟩
  · exact (hp s e s' hkind h).extend hext
  · obtain ⟨ws, hws, hD⟩ := hsound s a s₁ ha
    exact .behind hws (hf ws a hD s₁.kind? s₁ e s' rfl h)

lemma Fails.bind {f : α → Reading β} (hp : Fails p D) (hsound : Sound p D)
    (hext : ∀ ws a, D ws a → Completable fun us b => E (ws ++ us) b)
    (hf : ∀ ws a, D ws a → Fails (f a) fun us b => E (ws ++ us) b) : Fails (p >>= f) E :=
  fun k => (hp k).bind hsound hext hf

lemma Fails.mono {D' : List Word → α → Prop} (hp : Fails p D) (h : ∀ ws a, D ws a → D' ws a) :
    Fails p D' := by
  intro k s e s' hkind hs
  refine (hp k s e s' hkind hs).extend fun ws a ha => ?_
  exact ⟨[], a, List.nil_subset _, by simpa using h ws a ha⟩

/-- A rule that decides by the lookahead need only be studied with the lookahead it decides for. -/
lemma fails_peek {f : Option Kind → Reading β} (h : ∀ k, FailsAt k (f k) E) :
    Fails (peek >>= f) E := by
  intro k s e s' hkind hs
  rw [peek_bind] at hs
  exact h s.kind? s e s' rfl hs

/-- A rule that decides by the lookahead that another one has left. -/
lemma Fails.bind_peek {R : α → Option Kind → Prop} {f : α → Option Kind → Reading β}
    (hp : Fails p D) (hsound : Sound p D)
    (hext : ∀ ws a, D ws a → Completable fun us b => E (ws ++ us) b)
    (hR : ∀ s a s', p s = .ok a s' → R a s'.kind?)
    (hf : ∀ ws a k, D ws a → R a k → FailsAt k (f a k) fun us b => E (ws ++ us) b) :
    Fails (do let a ← p; f a (← peek)) E := by
  intro k s e s' hkind h
  rcases bind_eq_error.mp h with h | ⟨a, s₁, ha, h⟩
  · exact (hp k s e s' hkind h).extend hext
  · rw [peek_bind] at h
    obtain ⟨ws, hws, hD⟩ := hsound s a s₁ ha
    exact .behind hws (hf ws a s₁.kind? hD (hR s a s₁ ha) s₁ e s' rfl h)

/-- A token that the lookahead is known to be is refused only for a lexical error. -/
lemma failure_of_expect (hkind : s.kind? = some k) (h : expect k s = .error e s') :
    Failure E s e s' := by
  refine ⟨[], s, .token k, .nil s, expect_eq_error_iff.mp h, fun hphase => ?_⟩
  rw [phase_of_expect hkind h] at hphase
  cases hphase

/-- A token that the lookahead is known to be. -/
lemma failsAt_expect_bind {f : Token → Reading β}
    (hf : ∀ t, Fails (f t) fun us b => E (⟨k, t.value⟩ :: us) b) :
    FailsAt (some k) (expect k >>= f) E := by
  intro s e s' hkind h
  rcases bind_eq_error.mp h with h | ⟨t, s₁, ht, h⟩
  · exact failure_of_expect hkind h
  · exact .behind (consumes_of_expect ht) (hf t s₁.kind? s₁ e s' rfl h)

/-- A token that is asked for whatever the lookahead is. -/
lemma fails_expect_bind {f : Token → Reading β} (text : String)
    (hfiller : ⟨k, text⟩ ∈ fillers) (hext : Completable fun us b => E (⟨k, text⟩ :: us) b)
    (hf : ∀ t, Fails (f t) fun us b => E (⟨k, t.value⟩ :: us) b) :
    Fails (expect k >>= f) E := by
  intro o s e s' _ h
  rcases bind_eq_error.mp h with h | ⟨t, s₁, ht, h⟩
  · obtain ⟨us, b, hus, hb⟩ := hext
    refine ⟨[], s, .token k, .nil s, expect_eq_error_iff.mp h, fun _ => ?_⟩
    exact ⟨⟨k, text⟩ :: us, b, List.cons_subset.mpr ⟨hfiller, hus⟩, metBy_of_expect h text us, hb⟩
  · exact .behind (consumes_of_expect ht) (hf t s₁.kind? s₁ e s' rfl h)

/-- A token that the lookahead is known to be, and that is refused unless it is fit. -/
lemma failsAt_fit_bind {f : Token → Reading β} (d : Demand) (fit : String → Prop)
    (hext : Completable E)
    (hfit : ∀ t, fit t.value → Fails (f t) fun us b => E (⟨d.kind, t.value⟩ :: us) b)
    (hunfit : ∀ t, ¬fit t.value → ∃ c, d.cause? t.value = some c ∧
      f t = throw ⟨c, t.span.start⟩) :
    FailsAt (some d.kind) (expect d.kind >>= f) E := by
  intro s e s' hkind h
  rcases bind_eq_error.mp h with h | ⟨t, s₁, ht, h⟩
  · exact failure_of_expect hkind h
  · by_cases htfit : fit t.value
    · exact .behind (consumes_of_expect ht) (hfit t htfit s₁.kind? s₁ e s' rfl h)
    · obtain ⟨c, hc, hf⟩ := hunfit t htfit
      rw [hf] at h
      obtain ⟨rfl, rfl⟩ := EStateM.Result.error.inj h
      obtain ⟨us, b, hus, hb⟩ := hext
      refine ⟨[], s, d, .nil s, .late ht hc, fun _ => ?_⟩
      exact ⟨us, b, hus, d.metBy_of_cause? hc us, hb⟩

lemma fails_repeatWhile {more : Option Kind → Bool} {step : α → Reading α} {a : α} (n : Nat)
    (hsound : ∀ ws a, D ws a → Sound (step a) fun us b => D (ws ++ us) b)
    (hstep : ∀ ws a k, D ws a → more k → FailsAt k (step a) fun us b => D (ws ++ us) b)
    (ha : D ws a) : Fails (repeatWhile more step n a) fun us b => D (ws ++ us) b := by
  induction n generalizing ws a with
  | zero => exact fails_pure
  | succ n ih =>
    refine fails_peek fun k => ?_
    split
    · next hmore =>
      refine (hstep ws a k ha hmore).bind (hsound ws a ha) (fun us b hb => ?_) fun us b hb => ?_
      · exact ⟨[], b, List.nil_subset _, by simpa using hb⟩
      · refine (ih hb).mono fun vs c hc => ?_
        rwa [← List.append_assoc]
    · exact fails_pure k

end Combinators

/-! ## Operands -/

lemma fails_identifier_bind {f : String → Reading β} {E : List Word → β → Prop}
    (hext : Completable fun us b => E (⟨.identifier, "x"⟩ :: us) b)
    (hf : ∀ x, Fails (f x) fun us b => E (⟨.identifier, x⟩ :: us) b) :
    Fails (identifier >>= f) E := by
  have hbind : identifier >>= f = expect .identifier >>= fun t => f t.value := by
    rw [identifier, bind_assoc]
    rfl
  rw [hbind]
  exact fails_expect_bind "x" (by decide) hext fun t => hf t.value

/-- A name alone is an expression of every category. -/
lemma completable_primary : Completable (DerivesExpr .primary) :=
  ⟨[⟨.identifier, "x"⟩], _, by decide, .ident "x"⟩

lemma ident_fails : Fails (Expr.ident <$> identifier) (DerivesExpr .primary) := by
  rw [map_eq_pure_bind]
  exact fails_identifier_bind ⟨[], _, List.nil_subset _, .ident "x"⟩ fun x => fails_pure

lemma numeric_failsAt : FailsAt (some .number) numeric (DerivesExpr .primary) := by
  refine failsAt_fit_bind .finite (fun digits => (digitsNumber digits).isFinite)
    completable_primary (fun t hfinite => ?_) fun t hfinite => ?_
  · dsimp only
    rw [if_pos hfinite]
    exact fails_pure
  · exact ⟨.tooLarge t.value, rfl, if_neg hfinite⟩

lemma literal_failsAt (h : k.isLiteral) : FailsAt (some k) literal (DerivesExpr .primary) := by
  intro s e s' hkind hs
  rw [literal, peek_bind, hkind] at hs
  -- a single token each, and of the kind that the lookahead has
  cases k with
  | number => exact numeric_failsAt s e s' hkind hs
  | string | trueWord | falseWord | nullWord =>
    exact failsAt_expect_bind (fun t => fails_pure) s e s' hkind hs
  | _ => cases h

section Operands

variable {inner : Reading Expr} (hsound : Sound inner (DerivesExpr .assignment))
  (hinner : Fails inner (DerivesExpr .assignment))

include hsound hinner

lemma grouping_failsAt : FailsAt (some .openParen) (grouping inner) (DerivesExpr .primary) := by
  refine failsAt_expect_bind fun l => ?_
  have hclose (ws : List Word) (e : Expr) (he : DerivesExpr .assignment ws e) :
      DerivesExpr .primary (⟨.openParen, l.value⟩ :: (ws ++ [⟨.closeParen, ")"⟩])) e :=
    .paren l.value ")" he
  refine hinner.bind hsound (fun ws e he => ?_) fun ws e he => ?_
  · exact ⟨[⟨.closeParen, ")"⟩], e, by decide, hclose ws e he⟩
  · exact fails_expect_bind ")" (by decide) ⟨[], e, List.nil_subset _, hclose ws e he⟩
      fun r => fails_pure

lemma primary_fails : Fails (primary inner) (DerivesExpr .primary) := by
  refine fails_peek fun k => ?_
  split
  · exact grouping_failsAt hsound hinner
  · split
    · next h => exact literal_failsAt h
    · exact ident_fails _
  · exact ident_fails _

lemma unary_fails (n : Nat) : Fails (unary inner n) (DerivesExpr .unary) := by
  have hprimary : Fails (primary inner) (DerivesExpr .unary) :=
    (primary_fails hsound hinner).mono fun ws e he => .bare he
  induction n with
  | zero => exact hprimary
  | succ n ih =>
    have hsigned {k : Kind} (hk : k = .additive ∨ k = .logicalNot) :
        FailsAt (some k) (do
          let operator ← expect k
          return .unary operator.value (← unary inner n)) (DerivesExpr .unary) := by
      refine failsAt_expect_bind fun o => ?_
      refine ih.bind (unary_sound hsound n) (fun ws e he => ?_) fun ws e he => fails_pure
      exact ⟨[], _, List.nil_subset _, by simpa using .signed o.value hk he⟩
    refine fails_peek fun k => ?_
    split
    · exact hsigned (.inl rfl)
    · exact hsigned (.inr rfl)
    · exact hprimary _

end Operands

/-! ## Operators between operands -/

lemma chain_fails {level : Level} {operand : Reading Expr} (n : Nat)
    (hlevel : level.operator? = some k)
    (hsound : Sound operand (DerivesExpr (category level.next)))
    (hoperand : Fails operand (DerivesExpr (category level.next))) :
    Fails (chain n level operand) (DerivesExpr (category level)) := by
  have hrung := rung_of_operator? hlevel
  simp only [chain, hlevel]
  refine hoperand.bind hsound (fun ws e he => ?_) fun ws first hfirst => ?_
  · exact ⟨[], e, List.nil_subset _, by simpa using .single hrung he⟩
  · refine fails_repeatWhile n (chain_step_sound hlevel hsound) (fun ws left o hleft ho => ?_)
      (.single hrung hfirst)
    obtain rfl := beq_iff_eq.mp ho
    refine failsAt_expect_bind fun o => ?_
    refine hoperand.bind hsound (fun us right hright => ?_) fun us right hright => fails_pure
    exact ⟨[], _, List.nil_subset _, by simpa using .joined o.value hrung hleft hright⟩

section Chains

variable {inner : Reading Expr} (hsound : Sound inner (DerivesExpr .assignment))
  (hinner : Fails inner (DerivesExpr .assignment))

include hsound hinner

lemma binary_fails (n : Nat) (level : Level) :
    Fails (binary inner n level) (DerivesExpr (category level)) := by
  refine level_induction
    (P := fun level => Fails (binary inner n level) (DerivesExpr (category level))) ?_ ?_ level
  · exact unary_fails hsound hinner n
  · intro level k hlevel hnext
    rw [binary_of_operator? inner n hlevel]
    exact chain_fails n hlevel (binary_sound hsound n level.next) hnext

lemma assignment_fails (n : Nat) : Fails (assignment inner n) (DerivesExpr .assignment) := by
  have hplain (ws : List Word) (e : Expr) (he : DerivesExpr .logicalOr ws e) :
      Completable fun us e => DerivesExpr .assignment (ws ++ us) e :=
    ⟨[], e, List.nil_subset _, by simpa using .plain he⟩
  refine (binary_fails hsound hinner n .logicalOr).bind (binary_sound hsound n .logicalOr) hplain
    fun ws left hleft => ?_
  refine fails_peek fun o => ?_
  split
  · next k =>
    split
    · next hassign =>
      -- An operator behind anything but a name is refused, and then the left side stands alone.
      refine failsAt_fit_bind (.assignable k hassign) (fun _ => ∃ x, left = .ident x)
        (hplain ws left hleft) ?_ ?_
      · rintro t ⟨x, rfl⟩
        refine hinner.bind hsound (fun us e he => ?_) fun us e he => fails_pure
        have hk := eq_or_eq_of_isAssignment hassign
        exact ⟨[], _, List.nil_subset _, by simpa using .assign t.value hk hleft.target he⟩
      · intro t hleft
        refine ⟨.notAssignable, rfl, ?_⟩
        cases left with
        | ident x => exact absurd ⟨x, rfl⟩ hleft
        | _ => rfl
    · exact fails_pure _
  · exact fails_pure _

end Chains

/-- **An expression fails only where it could go on.** -/
lemma expression_fails (n : Nat) : Fails (expression n) (DerivesExpr .assignment) := by
  induction n with
  | zero => exact ident_fails.mono fun ws e he => (DerivesExpr.bare he).toAssignment
  | succ n ih => exact assignment_fails (expression_sound n) ih (n + 1)

/-! ## Statements -/

/-- An expression is completed to a statement by a semicolon. -/
lemma completable_semicolon (ws : List Word) (e : Expr) (he : DerivesExpr .assignment ws e) :
    Completable fun us st => DerivesStmt (ws ++ us) st :=
  ⟨[⟨.semicolon, ";"⟩], _, by decide, .expr ";" he⟩

lemma expressionStatement_fails (n : Nat) : Fails (expressionStatement n) DerivesStmt := by
  refine (expression_fails n).bind (expression_sound n) completable_semicolon fun ws e he => ?_
  exact fails_expect_bind ";" (by decide) ⟨[], _, List.nil_subset _, .expr ";" he⟩
    fun o => fails_pure

lemma declaration_fails (n : Nat) : Fails (declaration n) DerivesDeclaration := by
  refine fails_identifier_bind ⟨[], _, List.nil_subset _, .bare "x"⟩ fun x => ?_
  refine fails_peek fun k => ?_
  split
  · refine failsAt_expect_bind fun o => ?_
    refine (expression_fails n).bind (expression_sound n) (fun ws e he => ?_)
      fun ws e he => fails_pure
    exact ⟨[], _, List.nil_subset _, by simpa using .init x o.value he⟩
  · exact fails_pure _

lemma declarations_failsAt (n : Nat) : FailsAt (some .letWord) (declarations n) DerivesStmt := by
  refine failsAt_expect_bind fun l => ?_
  have hsemicolon (ws : List Word) (ds : List Declaration) (hds : DerivesDeclarations ws ds) :
      DerivesStmt (⟨.letWord, l.value⟩ :: (ws ++ [⟨.semicolon, ";"⟩])) (.declare ds) :=
    .declare l.value ";" hds
  refine (declaration_fails n).bind (declaration_sound n) (fun ws d hd => ?_) fun ws d hd => ?_
  · exact ⟨[⟨.semicolon, ";"⟩], _, by decide, hsemicolon ws [d] (.one hd)⟩
  have hstep (ws : List Word) (ds : Array Declaration) (k : Option Kind)
      (hds : DerivesDeclarations ws ds.toList) (hk : (k == some .comma) = true) :
      FailsAt k (do
        let _ ← expect .comma
        return ds.push (← declaration n))
      fun us ds => DerivesDeclarations (ws ++ us) ds.toList := by
    obtain rfl := beq_iff_eq.mp hk
    refine failsAt_expect_bind fun o => ?_
    refine (declaration_fails n).bind (declaration_sound n) (fun us d hd => ?_)
      fun us d hd => fails_pure
    exact ⟨[], ds.push d, List.nil_subset _, by simpa using hds.snoc o.value hd⟩
  refine (fails_repeatWhile n (declarations_step_sound n) hstep (.one hd)).bind
    (sound_repeatWhile n (declarations_step_sound n) (.one hd)) (fun us ds hds => ?_)
    fun us ds hds => ?_
  · refine ⟨[⟨.semicolon, ";"⟩], .declare ds.toList, by decide, ?_⟩
    simpa using hsemicolon _ _ hds
  · refine fails_expect_bind ";" (by decide) ⟨[], .declare ds.toList, List.nil_subset _, ?_⟩
      fun o => fails_pure
    simpa using hsemicolon _ _ hds

section Nested

variable {inner : Reading Stmt} (hsound : Sound inner DerivesStmt)
  (hinner : Fails inner DerivesStmt)

include hsound hinner

lemma statements_fails (n : Nat) (stop : Option Kind) :
    Fails (statements inner n stop) DerivesBody := by
  have hstep (ws : List Word) (body : Array Stmt) (k : Option Kind)
      (hbody : DerivesBody ws body.toList) (_ : (k.isSome && k != stop) = true) :
      FailsAt k (do return body.push (← inner))
        fun us body => DerivesBody (ws ++ us) body.toList := by
    refine (hinner k).bind hsound (fun us st hst => ?_) fun us st hst => fails_pure
    exact ⟨[], body.push st, List.nil_subset _, by simpa using hbody.snoc hst⟩
  refine (fails_repeatWhile n (statements_step_sound hsound) hstep .nil).bind
    (sound_repeatWhile n (statements_step_sound hsound) .nil) (fun ws body hbody => ?_)
    fun ws body hbody => fails_pure
  exact ⟨[], body.toList, List.nil_subset _, by simpa using hbody⟩

lemma block_failsAt (n : Nat) : FailsAt (some .openCurly) (block inner n) DerivesStmt := by
  refine failsAt_expect_bind fun l => ?_
  have hclose (ws : List Word) (body : List Stmt) (hbody : DerivesBody ws body) :
      DerivesStmt (⟨.openCurly, l.value⟩ :: (ws ++ [⟨.closeCurly, "\x7d"⟩])) (.block body) :=
    .block l.value "\x7d" hbody
  refine (statements_fails hsound hinner n _).bind (statements_sound hsound n _)
    (fun ws body hbody => ?_) fun ws body hbody => ?_
  · exact ⟨[⟨.closeCurly, "\x7d"⟩], _, by decide, hclose ws body hbody⟩
  · exact fails_expect_bind "\x7d" (by decide) ⟨[], _, List.nil_subset _, hclose ws body hbody⟩
      fun r => fails_pure

/-- A statement is completed to an `if` without `else` in front of it. -/
lemma conditional_failsAt (n : Nat) (hsettled : Settled inner) :
    FailsAt (some .ifWord) (conditional inner n) DerivesStmt := by
  refine failsAt_expect_bind fun i => ?_
  -- What an `if` guards when its words break off before that.
  have hguard (l : String) (ws : List Word) (e : Expr) (he : DerivesExpr .assignment ws e) :
      DerivesStmt (⟨.ifWord, i.value⟩ :: ⟨.openParen, l⟩ ::
        (ws ++ [⟨.closeParen, ")"⟩, ⟨.semicolon, ";"⟩])) (.ifThen e .empty) := by
    simpa using DerivesStmt.ifThen i.value l ")" he (.empty ";")
  refine fails_expect_bind "(" (by decide) ?_ fun l => ?_
  · exact ⟨[⟨.identifier, "x"⟩, ⟨.closeParen, ")"⟩, ⟨.semicolon, ";"⟩], _, by decide,
      hguard "(" _ _ (DerivesExpr.bare (.ident "x")).toAssignment⟩
  refine (expression_fails n).bind (expression_sound n) (fun ws e he => ?_) fun ws e he => ?_
  · exact ⟨[⟨.closeParen, ")"⟩, ⟨.semicolon, ";"⟩], _, by decide, hguard l.value ws e he⟩
  refine fails_expect_bind ")" (by decide) ?_ fun r => ?_
  · exact ⟨[⟨.semicolon, ";"⟩], _, by decide, hguard l.value ws e he⟩
  have hthen (us : List Word) (st : Stmt) (hst : DerivesStmt us st) :=
    DerivesStmt.ifThen i.value l.value r.value he hst
  refine hinner.bind_peek (R := StmtEnds) hsound (fun us st hst => ?_) hsettled
    fun us st k hst hk => ?_
  · exact ⟨[], _, List.nil_subset _, by simpa using hthen us st hst⟩
  split
  · -- The consequent left an `else` behind, so it had no place for it.
    have hclosed : st.endsOpen = false := by
      cases hopen : st.endsOpen with
      | false => rfl
      | true => exact absurd rfl (hk hopen)
    refine failsAt_expect_bind fun o => ?_
    refine hinner.bind hsound (fun vs st' hst' => ?_) fun vs st' hst' => fails_pure
    have hif := DerivesStmt.ifElse i.value l.value r.value o.value he hst hclosed hst'
    exact ⟨[], _, List.nil_subset _, by simpa using hif⟩
  · exact fails_pure _

end Nested

/-- **A statement fails only where it could go on.** -/
lemma statement_fails (n : Nat) : Fails (statement n) DerivesStmt := by
  induction n with
  | zero => exact expressionStatement_fails 0
  | succ n ih =>
    obtain ⟨hsound, hsettled⟩ := statement_sound_settled n
    refine fails_peek fun k => ?_
    split
    · exact failsAt_expect_bind fun o => fails_pure
    · exact conditional_failsAt hsound ih n hsettled
    · exact block_failsAt hsound ih n
    · exact declarations_failsAt n
    · exact expressionStatement_fails (n + 1) _

lemma program_fails (n : Nat) : Fails (program n) DerivesProgram := by
  refine (statements_fails (statement_sound n) (statement_fails n) n none).bind
    (statements_sound (statement_sound n) n none) (fun ws body hbody => ?_)
    fun ws body hbody => fails_pure
  exact ⟨[], ⟨body⟩, List.nil_subset _, by simpa [DerivesProgram] using hbody⟩

end Grammar

end Scriptlet
