/-
# What a rule looks at

A rule looks at the words it consumes and at the word behind them, and at nothing else: not at the
places of the tokens, not at the name of the source, and not at what comes further behind.  So in
another session that has the same words to consume and the same word behind them, the rule gives
the same result; and where it has failed because a demand was refused, it fails in every session in
which the same demand is refused behind the same words (`Determined`).

The error need not be the same: it carries the place of the token, and a token that was consumed
before it was found unfit may have a lexical error behind it.
-/
import Scriptlet.Proofs.Grammar.Failure

namespace Scriptlet

/-- The word of the lookahead. -/
def Session.word? (s : Session) : Option Word := s.lookahead.map Token.word

namespace Reading

variable {s s' s₁ s₁' : Session} {ws : List Word} {w : Word} {k : Kind} {t : Token}

lemma kind?_eq_of_word?_eq (h : s₁.word? = s.word?) : s₁.kind? = s.kind? := by
  have hkind (s : Session) : s.kind? = s.word?.map Word.kind := by
    rw [Session.kind?, Session.word?, Option.map_map]
    rfl
  rw [hkind, hkind, h]

lemma word?_of_expect (h : expect k s = .ok t s') : s.word? = some ⟨k, t.value⟩ := by
  obtain ⟨hl, rfl, -⟩ := expect_eq_ok_iff.mp h
  rw [Session.word?, hl]
  rfl

/-- Sessions with the same words to consume, and the same word behind them, have the same lookahead
but for its place. -/
lemma Consumes.word?_eq (h : Consumes s ws s') (h₁ : Consumes s₁ ws s₁')
    (hword : s₁'.word? = s'.word?) : s₁.word? = s.word? := by
  cases ws with
  | nil =>
    obtain rfl := consumes_nil_iff.mp h
    obtain rfl := consumes_nil_iff.mp h₁
    exact hword
  | cons w ws =>
    obtain ⟨t, s₂, ht, hvalue, -⟩ := consumes_cons_iff.mp h
    obtain ⟨u, s₃, hu, hvalue₁, -⟩ := consumes_cons_iff.mp h₁
    rw [word?_of_expect ht, word?_of_expect hu, hvalue, hvalue₁]

end Reading

namespace Grammar

open Reading

variable {α β : Type} {s s' : Session} {k : Kind} {o : Option Kind}

/-- A demand is refused at a token, or after the token is consumed. -/
lemma Refused.expect_or_late {d : Demand} {e : Error} (h : Refused d s e s') :
    expect d.kind s = .error e s' ∨ ∃ t c, expect d.kind s = .ok t s' ∧
      d.cause? t.value = some c ∧ e = ⟨c, t.span.start⟩ := by
  cases h with
  | ended hl => exact .inl (expect_eq_error_iff.mpr (.ended hl))
  | mismatch hl hk => exact .inl (expect_eq_error_iff.mpr (.mismatch hl hk))
  | lexical hl hk h => exact .inl (expect_eq_error_iff.mpr (.lexical hl hk h))
  | late h hc => exact .inr ⟨_, _, h, hc, rfl⟩

/-! ## Rules that look at words only -/

/-- With a lookahead of this kind, what a rule does is determined by the words it consumes and by
the word behind them. -/
structure DeterminedAt (o : Option Kind) (p : Reading α) : Prop where
  /-- Where it succeeds, it succeeds with the same result in every session with these words. -/
  ok : ∀ s a s', s.kind? = o → p s = .ok a s' → ∃ ws, Consumes s ws s' ∧
    ∀ s₁ s₁', Consumes s₁ ws s₁' → s₁'.word? = s'.word? → p s₁ = .ok a s₁'
  /-- Where it fails, it fails in every session in which the same demand is refused. -/
  error : ∀ s e s', s.kind? = o → p s = .error e s' → ∃ ws s₂ d, Consumes s ws s₂ ∧
    Refused d s₂ e s' ∧ ∀ s₁ s₃ e₁ s₁', Consumes s₁ ws s₃ → s₃.word? = s₂.word? →
      Refused d s₃ e₁ s₁' → p s₁ = .error e₁ s₁'

/-- What a rule does is determined by the words it consumes and by the word behind them. -/
def Determined (p : Reading α) : Prop := ∀ o, DeterminedAt o p

section Combinators

variable {p : Reading α}

lemma determined_pure {a : α} : Determined (pure a) := by
  refine fun o => ⟨fun s b s' _ h => ?_, fun s e s' _ h => by cases h⟩
  obtain ⟨rfl, rfl⟩ := pure_eq_ok.mp h
  refine ⟨[], .nil s, fun s₁ s₁' h₁ _ => ?_⟩
  obtain rfl := consumes_nil_iff.mp h₁
  rfl

lemma DeterminedAt.bind {f : α → Reading β} (hp : DeterminedAt o p) (hf : ∀ a, Determined (f a)) :
    DeterminedAt o (p >>= f) := by
  constructor
  · intro s b s' hkind h
    obtain ⟨a, s₂, ha, hb⟩ := bind_eq_ok.mp h
    obtain ⟨ws, hws, hpws⟩ := hp.ok s a s₂ hkind ha
    obtain ⟨us, hus, hfus⟩ := (hf a s₂.kind?).ok s₂ b s' rfl hb
    refine ⟨ws ++ us, hws.append hus, fun s₁ s₁' h₁ hword => ?_⟩
    obtain ⟨s₃, hws₁, hus₁⟩ := consumes_append_iff.mp h₁
    rw [bind_of_ok (hpws s₁ s₃ hws₁ (hus.word?_eq hus₁ hword))]
    exact hfus s₃ s₁' hus₁ hword
  · intro s e s' hkind h
    rcases bind_eq_error.mp h with h | ⟨a, s₂, ha, hb⟩
    · obtain ⟨ws, s₂, d, hws, hd, hpws⟩ := hp.error s e s' hkind h
      refine ⟨ws, s₂, d, hws, hd, fun s₁ s₃ e₁ s₁' hws₁ hword hd₁ => ?_⟩
      exact bind_of_error (hpws s₁ s₃ e₁ s₁' hws₁ hword hd₁) f
    · obtain ⟨ws, hws, hpws⟩ := hp.ok s a s₂ hkind ha
      obtain ⟨us, s₃, d, hus, hd, hfus⟩ := (hf a s₂.kind?).error s₂ e s' rfl hb
      refine ⟨ws ++ us, s₃, d, hws.append hus, hd, fun s₁ s₄ e₁ s₁' h₁ hword hd₁ => ?_⟩
      obtain ⟨s₅, hws₁, hus₁⟩ := consumes_append_iff.mp h₁
      rw [bind_of_ok (hpws s₁ s₅ hws₁ (hus.word?_eq hus₁ hword))]
      exact hfus s₅ s₄ e₁ s₁' hus₁ hword hd₁

lemma Determined.bind {f : α → Reading β} (hp : Determined p) (hf : ∀ a, Determined (f a)) :
    Determined (p >>= f) :=
  fun o => (hp o).bind hf

lemma determinedAt_peek {f : Option Kind → Reading β} (h : DeterminedAt o (f o)) :
    DeterminedAt o (peek >>= f) := by
  constructor
  · intro s b s' hkind hs
    rw [peek_bind, hkind] at hs
    obtain ⟨ws, hws, hfws⟩ := h.ok s b s' hkind hs
    refine ⟨ws, hws, fun s₁ s₁' hws₁ hword => ?_⟩
    rw [peek_bind, kind?_eq_of_word?_eq (hws.word?_eq hws₁ hword), hkind]
    exact hfws s₁ s₁' hws₁ hword
  · intro s e s' hkind hs
    rw [peek_bind, hkind] at hs
    obtain ⟨ws, s₂, d, hws, hd, hfws⟩ := h.error s e s' hkind hs
    refine ⟨ws, s₂, d, hws, hd, fun s₁ s₃ e₁ s₁' hws₁ hword hd₁ => ?_⟩
    rw [peek_bind, kind?_eq_of_word?_eq (hws.word?_eq hws₁ hword), hkind]
    exact hfws s₁ s₃ e₁ s₁' hws₁ hword hd₁

/-- A rule that decides by the lookahead need only be studied with the lookahead it decides for. -/
lemma determined_peek {f : Option Kind → Reading β} (h : ∀ k, DeterminedAt k (f k)) :
    Determined (peek >>= f) :=
  fun o => determinedAt_peek (h o)

section Fit

variable {f : Token → Reading β} (d : Demand) (fit : String → Prop)
  (hunfit : ∀ t, ¬fit t.value → ∃ c, d.cause? t.value = some c ∧ f t = throw ⟨c, t.span.start⟩)

include hunfit

/-- Where a token is found unfit, a token with the same text is as unfit in any other session. -/
lemma bind_of_unfit {t : Token} {s₁ s₁' : Session} {e : Error} (ht : expect d.kind s = .ok t s')
    (htfit : ¬fit t.value) (hword : s₁.word? = s.word?) (hd : Refused d s₁ e s₁') :
    (expect d.kind >>= f) s₁ = .error e s₁' := by
  rcases hd.expect_or_late with hexpect | ⟨u, c, hu, hc, rfl⟩
  · exact bind_of_error hexpect f
  · have hvalue : u.value = t.value := by
      rw [word?_of_expect ht, word?_of_expect hu] at hword
      exact congrArg Word.text (Option.some.inj hword)
    obtain ⟨c', hc', hthrow⟩ := hunfit u (hvalue ▸ htfit)
    obtain rfl := Option.some.inj (hc.symm.trans hc')
    rw [bind_of_ok hu, hthrow]
    rfl

/-- A token that is refused unless it is fit, where all that counts of it is its text. -/
lemma determined_fit_bind (hsame : ∀ t u : Token, t.value = u.value → fit t.value → f t = f u)
    (hfit : ∀ t, fit t.value → Determined (f t)) : Determined (expect d.kind >>= f) := by
  refine fun o => ⟨fun s b s' _ h => ?_, fun s e s' _ h => ?_⟩
  · obtain ⟨t, s₂, ht, hb⟩ := bind_eq_ok.mp h
    by_cases htfit : fit t.value
    · obtain ⟨us, hus, hfus⟩ := (hfit t htfit s₂.kind?).ok s₂ b s' rfl hb
      refine ⟨_, (consumes_of_expect ht).append hus, fun s₁ s₁' h₁ hword => ?_⟩
      obtain ⟨u, s₃, hu, hvalue, hus₁⟩ := consumes_cons_iff.mp h₁
      rw [bind_of_ok hu, ← hsame t u hvalue.symm htfit]
      exact hfus s₃ s₁' hus₁ hword
    · obtain ⟨c, -, hthrow⟩ := hunfit t htfit
      rw [hthrow] at hb
      cases hb
  rcases bind_eq_error.mp h with h | ⟨t, s₂, ht, hb⟩
  · refine ⟨[], s, .token d.kind, .nil s, expect_eq_error_iff.mp h, ?_⟩
    intro s₁ s₃ e₁ s₁' hnil _ hd₁
    obtain rfl := consumes_nil_iff.mp hnil
    exact bind_of_error (expect_eq_error_iff.mpr hd₁) f
  by_cases htfit : fit t.value
  · obtain ⟨us, s₃, d', hus, hd, hfus⟩ := (hfit t htfit s₂.kind?).error s₂ e s' rfl hb
    refine ⟨_, s₃, d', (consumes_of_expect ht).append hus, hd, ?_⟩
    intro s₁ s₄ e₁ s₁' h₁ hword hd₁
    obtain ⟨u, s₅, hu, hvalue, hus₁⟩ := consumes_cons_iff.mp h₁
    rw [bind_of_ok hu, ← hsame t u hvalue.symm htfit]
    exact hfus s₅ s₄ e₁ s₁' hus₁ hword hd₁
  · obtain ⟨c, hc, hthrow⟩ := hunfit t htfit
    rw [hthrow] at hb
    obtain ⟨rfl, rfl⟩ := EStateM.Result.error.inj hb
    refine ⟨[], s, d, .nil s, .late ht hc, fun s₁ s₃ e₁ s₁' hnil hword hd₁ => ?_⟩
    obtain rfl := consumes_nil_iff.mp hnil
    exact bind_of_unfit d fit hunfit ht htfit hword hd₁

end Fit

lemma determined_expect_bind {f : Token → Reading β}
    (hsame : ∀ t u : Token, t.value = u.value → f t = f u) (hf : ∀ t, Determined (f t)) :
    Determined (expect k >>= f) :=
  determined_fit_bind (.token k) (fun _ => True) (fun _ h => absurd trivial h)
    (fun t u h _ => hsame t u h) fun t _ => hf t

lemma determined_repeatWhile {more : Option Kind → Bool} {step : α → Reading α}
    (hstep : ∀ a, Determined (step a)) (n : Nat) (a : α) :
    Determined (repeatWhile more step n a) := by
  induction n generalizing a with
  | zero => exact determined_pure
  | succ n ih =>
    refine determined_peek fun k => ?_
    split
    · exact (hstep a).bind ih k
    · exact determined_pure k

end Combinators

/-! ## Expressions -/

lemma identifier_determined : Determined identifier :=
  determined_expect_bind (fun t u h => by rw [h]) fun _ => determined_pure

lemma ident_determined : Determined (Expr.ident <$> identifier) := by
  rw [map_eq_pure_bind]
  exact identifier_determined.bind fun _ => determined_pure

lemma numeric_determined : Determined numeric := by
  refine determined_fit_bind .finite (fun digits => (digitsNumber digits).isFinite)
    (fun t hfinite => ?_) (fun t u h hfinite => ?_) fun t hfinite => ?_
  · exact ⟨.tooLarge t.value, rfl, if_neg hfinite⟩
  · dsimp only
    rw [if_pos hfinite, if_pos (h ▸ hfinite), h]
  · dsimp only
    rw [if_pos hfinite]
    exact determined_pure

lemma literal_determined (h : k.isLiteral) : DeterminedAt (some k) literal := by
  refine determinedAt_peek ?_
  cases k with
  | number => exact numeric_determined _
  | string => exact determined_expect_bind (fun t u h => by rw [h]) (fun _ => determined_pure) _
  | trueWord | falseWord | nullWord =>
    exact determined_expect_bind (fun _ _ _ => rfl) (fun _ => determined_pure) _
  | _ => cases h

section Operands

variable {inner : Reading Expr} (hinner : Determined inner)

include hinner

lemma grouping_determined : Determined (grouping inner) := by
  refine determined_expect_bind (fun _ _ _ => rfl) fun _ => ?_
  refine hinner.bind fun e => ?_
  exact determined_expect_bind (fun _ _ _ => rfl) fun _ => determined_pure

lemma primary_determined : Determined (primary inner) := by
  refine determined_peek fun k => ?_
  split
  · exact grouping_determined hinner _
  · split
    · next h => exact literal_determined h
    · exact ident_determined _
  · exact ident_determined _

lemma unary_determined (n : Nat) : Determined (unary inner n) := by
  induction n with
  | zero => exact primary_determined hinner
  | succ n ih =>
    have hsigned (k : Kind) : Determined (do
        let operator ← expect k
        return Expr.unary operator.value (← unary inner n)) :=
      determined_expect_bind (fun t u h => by rw [h]) fun _ => ih.bind fun _ => determined_pure
    refine determined_peek fun k => ?_
    split
    · exact hsigned _ _
    · exact hsigned _ _
    · exact primary_determined hinner _

lemma binary_determined (n : Nat) (level : Level) : Determined (binary inner n level) := by
  rw [binary]
  induction level :: level.tighter with
  | nil => exact unary_determined hinner n
  | cons level levels ih =>
    rw [List.foldr_cons, chain]
    split
    · exact ih
    · refine ih.bind fun first => determined_repeatWhile (fun left => ?_) n first
      refine determined_expect_bind (fun t u h => by rw [h]) fun _ => ?_
      exact ih.bind fun _ => determined_pure

lemma assignment_determined (n : Nat) : Determined (assignment inner n) := by
  refine (binary_determined hinner n .logicalOr).bind fun left => ?_
  refine determined_peek fun k => ?_
  split
  · next k =>
    split
    · next hassign =>
      refine determined_fit_bind (.assignable k hassign) (fun _ => ∃ x, left = .ident x) ?_ ?_ ?_ _
      · intro t hleft
        refine ⟨.notAssignable, rfl, ?_⟩
        cases left with
        | ident x => exact absurd ⟨x, rfl⟩ hleft
        | _ => rfl
      · rintro t u h ⟨x, rfl⟩
        simp only [target, h]
      · rintro t ⟨x, rfl⟩
        exact hinner.bind fun _ => determined_pure
    · exact determined_pure _
  · exact determined_pure _

end Operands

lemma expression_determined (n : Nat) : Determined (expression n) := by
  induction n with
  | zero => exact ident_determined
  | succ n ih => exact assignment_determined ih (n + 1)

/-! ## Statements -/

lemma expressionStatement_determined (n : Nat) : Determined (expressionStatement n) := by
  refine (expression_determined n).bind fun e => ?_
  exact determined_expect_bind (fun _ _ _ => rfl) fun _ => determined_pure

lemma declaration_determined (n : Nat) : Determined (declaration n) := by
  refine identifier_determined.bind fun x => ?_
  refine determined_peek fun k => ?_
  split
  · refine determined_expect_bind (fun _ _ _ => rfl) (fun _ => ?_) _
    exact (expression_determined n).bind fun _ => determined_pure
  · exact determined_pure _

lemma declarations_determined (n : Nat) : Determined (declarations n) := by
  refine determined_expect_bind (fun _ _ _ => rfl) fun _ => ?_
  refine (declaration_determined n).bind fun first => ?_
  refine (determined_repeatWhile (fun ds => ?_) n #[first]).bind fun ds => ?_
  · refine determined_expect_bind (fun _ _ _ => rfl) fun _ => ?_
    exact (declaration_determined n).bind fun _ => determined_pure
  · exact determined_expect_bind (fun _ _ _ => rfl) fun _ => determined_pure

section Nested

variable {inner : Reading Stmt} (hinner : Determined inner)

include hinner

lemma statements_determined (n : Nat) (stop : Option Kind) :
    Determined (statements inner n stop) := by
  refine (determined_repeatWhile (fun body => ?_) n #[]).bind fun _ => determined_pure
  exact hinner.bind fun _ => determined_pure

lemma block_determined (n : Nat) : Determined (block inner n) := by
  refine determined_expect_bind (fun _ _ _ => rfl) fun _ => ?_
  refine (statements_determined hinner n _).bind fun body => ?_
  exact determined_expect_bind (fun _ _ _ => rfl) fun _ => determined_pure

lemma conditional_determined (n : Nat) : Determined (conditional inner n) := by
  refine determined_expect_bind (fun _ _ _ => rfl) fun _ => ?_
  refine determined_expect_bind (fun _ _ _ => rfl) fun _ => ?_
  refine (expression_determined n).bind fun test => ?_
  refine determined_expect_bind (fun _ _ _ => rfl) fun _ => ?_
  refine hinner.bind fun consequent => ?_
  refine determined_peek fun k => ?_
  split
  · refine determined_expect_bind (fun _ _ _ => rfl) (fun _ => ?_) _
    exact hinner.bind fun _ => determined_pure
  · exact determined_pure _

end Nested

lemma statement_determined (n : Nat) : Determined (statement n) := by
  induction n with
  | zero => exact expressionStatement_determined 0
  | succ n ih =>
    refine determined_peek fun k => ?_
    split
    · exact determined_expect_bind (fun _ _ _ => rfl) (fun _ => determined_pure) _
    · exact conditional_determined ih n _
    · exact block_determined ih n _
    · exact declarations_determined n _
    · exact expressionStatement_determined (n + 1) _

/-- **A program is determined by its words.** -/
lemma program_determined (n : Nat) : Determined (program n) :=
  (statements_determined (statement_determined n) n none).bind fun _ => determined_pure

end Grammar

end Scriptlet
