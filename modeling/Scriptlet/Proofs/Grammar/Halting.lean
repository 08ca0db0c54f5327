/-
# The grammar halts

The rules call each other in circles: through the levels of operators down to the parentheses,
where it all begins again, and through the statements in statements.  On each way round a token is
consumed, and between two tokens the calls only descend (`Rule.descent`).  So the depth of the calls
is bounded by the number of tokens that are left (`Session.ahead`).  Every round of a repetition
consumes a token, too, which bounds the rounds.

That an attempt within limits comes to an end, with the result of the bounded rule, is `Finishes`.
It is carried through the bodies of the rules from their calls, first to the rule itself
(`Rule.body_finishes`) and then, by induction on the depth, to all calls (`Rule.call_finishes`).
-/
import Scriptlet.Proofs.Grammar.Aftermath
import Scriptlet.Proofs.Grammar.Recursion

namespace Scriptlet

open Reading Grammar

variable {s s' : Session} {ws : List Word} {rounds depth : Nat}

/-! ## Progress -/

/-- How many tokens a session can still consume. -/
def Session.ahead (s : Session) : Nat := (leadingTokens s.pending).length

lemma Reading.Consumes.ahead_eq (h : Consumes s ws s') : s.ahead = ws.length + s'.ahead := by
  obtain ⟨ts, rfl, hts⟩ := h.exists_pending_eq
  rw [Session.ahead, hts, leadingTokens_append, List.length_append, List.length_map]
  rfl

/-- Where there is a lookahead, there is a token to consume. -/
lemma Session.lookahead_eq_none_of_ahead (h : s.ahead = 0) : s.lookahead = none := by
  rw [← head?_leadingTokens_pending, List.length_eq_zero_iff.mp h, List.head?_nil]

lemma ExprRule.progress (rule : ExprRule) : Sound rule.run fun ws _ => ws ≠ [] := by
  have hsound (n : Nat) := expression_sound n
  have hne {c : Category} (ws : List Word) (e : Expr) (h : DerivesExpr c ws e) : ws ≠ [] := h.ne_nil
  cases rule with
  | expression | assignment => exact fun s => (hsound s.room).mono hne s
  | binary level => exact fun s => (binary_sound (hsound s.room) s.room level).mono hne s
  | unary => exact fun s => (unary_sound (hsound s.room) s.room).mono hne s
  | primary => exact fun s => (primary_sound (hsound s.room)).mono hne s
  | grouping => exact fun s => (grouping_sound (hsound s.room)).mono hne s
  | literal => exact literal_sound.mono hne
  | numeric => exact numeric_sound.mono hne
  | text => exact quotedText_sound.mono hne

lemma StmtRule.progress (rule : StmtRule) : Sound rule.run fun ws _ => ws ≠ [] := by
  have hsound (n : Nat) := statement_sound n
  have hne (ws : List Word) (st : Stmt) (h : DerivesStmt ws st) : ws ≠ [] := h.ne_nil
  cases rule with
  | statement => exact fun s => (hsound s.room).mono hne s
  | empty => exact sound_expect_bind fun _ => sound_pure (List.cons_ne_nil _ _)
  | block => exact fun s => (block_sound (hsound s.room) s.room).mono hne s
  | conditional =>
    exact fun s => (conditional_sound (hsound s.room) s.room
      (statement_sound_settled s.room).2).mono hne s
  | declarations => exact fun s => (declarations_sound s.room).mono hne s
  | expression => exact fun s => (expressionStatement_sound s.room).mono hne s

/-- **Every rule that succeeds has consumed a token**, except for a program and for a list of
statements, which may be empty. -/
lemma Rule.progress (rule : Rule) :
    Sound rule.run fun ws _ => ws = [] → rule = .program ∨ ∃ stop, rule = .statements stop := by
  cases rule with
  | program => exact fun s => (program_sound s.room).mono (fun _ _ _ _ => .inl rfl) s
  | statements stop =>
    exact fun s => (statements_sound (statement_sound s.room) s.room stop).mono
      (fun _ _ _ _ => .inr ⟨stop, rfl⟩) s
  | statement rule => exact rule.progress.mono fun _ _ hne hnil => absurd hnil hne
  | declaration =>
    intro s
    refine (declaration_sound s.room).mono (fun ws d hd hnil => ?_) s
    cases hd <;> cases hnil
  | identifier => exact sound_expect_bind fun _ => sound_pure (fun hnil => by cases hnil)
  | expression rule => exact rule.progress.mono fun _ _ hne hnil => absurd hnil hne

lemma Rule.ahead_le {rule : Rule} {a : rule.Result} (h : rule.run s = .ok a s') :
    s'.ahead ≤ s.ahead := by
  obtain ⟨ws, hws, -⟩ := rule.progress s a s' h
  rw [hws.ahead_eq]
  exact Nat.le_add_left _ _

/-! ## Attempts that come to an end -/

/-- An attempt that comes to an end in a session, and does there what `p` does. -/
def Finishes {α : Type} (c : Attempt α) (p : Reading α) (s : Session) : Prop :=
  c s = some (p.runOn s)

section Finishing

variable {α β : Type} {c : Attempt α} {p : Reading α} {f : α → Attempt β} {g : α → Reading β}

lemma Attempt.bind_of_ok {a : α} (h : c s = some (.ok a, s')) (f : α → Attempt β) :
    (c >>= f) s = f a s' := by
  change Option.bind (c s) _ = _
  rw [h]
  rfl

lemma Attempt.bind_of_error {e : Error} (h : c s = some (.error e, s')) (f : α → Attempt β) :
    (c >>= f) s = some (.error e, s') := by
  change Option.bind (c s) _ = _
  rw [h]
  rfl

lemma Finishes.bind (h : Finishes c p s)
    (hf : ∀ a s', p s = .ok a s' → Finishes (f a) (g a) s') : Finishes (c >>= f) (p >>= g) s := by
  rw [Finishes] at h ⊢
  cases hs : p s with
  | ok a s' =>
    rw [runOn_of_ok hs] at h
    rw [Attempt.bind_of_ok h, runOn, Reading.bind_of_ok hs]
    exact hf a s' hs
  | error e s' =>
    rw [runOn_of_error hs] at h
    rw [Attempt.bind_of_error h, runOn_of_error (Reading.bind_of_error hs g)]

lemma Finishes.map (h : Finishes c p s) (f : α → β) : Finishes (f <$> c) (f <$> p) s := by
  rw [map_eq_pure_bind, map_eq_pure_bind]
  exact h.bind fun _ _ _ => rfl

lemma finishes_peek {f : Option Kind → Attempt β} {g : Option Kind → Reading β}
    (h : Finishes (f s.kind?) (g s.kind?) s) : Finishes (liftM peek >>= f) (peek >>= g) s :=
  h

/-- Behind a token that is consumed there are fewer tokens ahead. -/
lemma finishes_expect_bind {k : Kind} {f : Token → Attempt β} {g : Token → Reading β}
    (h : ∀ t s', s'.ahead < s.ahead → Finishes (f t) (g t) s') :
    Finishes (liftM (expect k) >>= f) (expect k >>= g) s := by
  have hlift : Finishes (liftM (expect k)) (expect k) s := rfl
  refine hlift.bind fun t s' ht => h t s' ?_
  rw [(consumes_of_expect ht).ahead_eq, List.length_singleton]
  omega

lemma Attempt.repeatWhile_of_not {more : Option Kind → Bool} {c : α → Attempt α} {n : Nat} {a : α}
    (h : more s.kind? = false) : Attempt.repeatWhile more c n a s = some (.ok a, s) := by
  cases n with
  | zero | succ n =>
    change (if more s.kind? then _ else pure a : Attempt α) s = _
    rw [h]
    rfl

/-- **A repetition of steps that consume tokens has at most as many rounds as there are tokens
ahead**, if its steps come to an end. -/
lemma repeatWhile_finishes {more : Option Kind → Bool} {c : α → Attempt α} {p : α → Reading α}
    {n m : Nat} (hmore : more none = false) (hsound : ∀ a, Sound (p a) fun ws _ => ws ≠ [])
    (hstep : ∀ a s', s'.ahead ≤ s.ahead → Finishes (c a) (p a) s') (hn : s.ahead ≤ n)
    (hm : s.room ≤ m) (a : α) :
    Finishes (Attempt.repeatWhile more c n a) (Reading.repeatWhile more p m a) s := by
  -- By induction on the rounds.  The bound `m` of the other repetition counts what is left in
  -- another way and is not used up at the same time, so it is general.
  induction n generalizing s m a with
  | zero =>
    have hl := Session.lookahead_eq_none_of_ahead (Nat.le_zero.mp hn)
    have hstop : more s.kind? = false := by rw [kind?_eq_none_iff.mpr hl, hmore]
    rw [Finishes, runOn_of_ok (repeatWhile_of_not hstop), Attempt.repeatWhile_of_not hstop]
  | succ n ih =>
    cases hgo : more s.kind? with
    | false =>
      rw [Finishes, runOn_of_ok (repeatWhile_of_not hgo), Attempt.repeatWhile_of_not hgo]
    | true =>
      cases m with
      | zero =>
        have hl := lookahead_eq_none (Nat.le_zero.mp hm)
        rw [kind?_eq_none_iff.mpr hl, hmore] at hgo
        cases hgo
      | succ m =>
        refine finishes_peek ?_
        rw [hgo]
        refine (hstep a s (Nat.le_refl _)).bind fun b s₁ hb => ?_
        obtain ⟨ws, hws, hne⟩ := hsound a s b s₁ hb
        have hahead := hws.ahead_eq
        have hroom := hws.room_add_length_le
        have hpos := List.length_pos_iff.mpr hne
        exact ih (fun a s' hs' => hstep a s' (by omega)) (by omega) (by omega) b

end Finishing

/-! ## The rules come to an end -/

/-- How many calls of rules can follow one another from a rule of expressions on before a token is
consumed. -/
def ExprRule.descent : ExprRule → Nat
  | literal | numeric | text | grouping => 0
  | primary => 1
  | unary => 2
  | binary level => 9 - level.rank
  | assignment => 10
  | expression => 11

/-- How many calls of rules can follow one another from a rule of statements on before a token is
consumed. -/
def StmtRule.descent : StmtRule → Nat
  | empty | block | conditional | declarations => 0
  | expression => 12
  | statement => 13

/-- How many calls of rules can follow one another from a rule on before a token is consumed. -/
def Rule.descent : Rule → Nat
  | identifier => 0
  | declaration => 1
  | expression rule => rule.descent
  | statement rule => rule.descent
  | statements _ => 14
  | program => 15

/-- The calls that a rule of descent `d` makes with `n` tokens ahead come to an end. -/
structure Recursion.CallsFinish (r : Recursion Attempt) (d n : Nat) : Prop where
  /-- Behind a token any rule may be called. -/
  behind : ∀ rule s, s.ahead < n → Finishes (r.call rule) rule.run s
  /-- Where no token was consumed, only rules of a smaller descent are called. -/
  below : ∀ rule s, s.ahead ≤ n → rule.descent < d → Finishes (r.call rule) rule.run s

/-- Repetitions that have a round for each token ahead come to an end. -/
lemma Recursion.repeatWhile_finishes {α : Type} {more : Option Kind → Bool} {c : α → Attempt α}
    {p : α → Reading α} (hmore : more none = false)
    (hsound : ∀ a, Sound (p a) fun ws _ => ws ≠ [])
    (hstep : ∀ a s', s'.ahead ≤ s.ahead → Finishes (c a) (p a) s') (hs : s.ahead ≤ rounds) (a : α) :
    Finishes ((limited rounds depth).repeatWhile more c a) (bounded.repeatWhile more p a) s := by
  have hfinishes := Scriptlet.repeatWhile_finishes hmore hsound hstep hs (Nat.le_refl s.room) a
  cases depth <;> exact hfinishes

section Bodies

variable (hs : s.ahead ≤ rounds)

include hs

lemma ExprRule.body_finishes (rule : ExprRule)
    (hcalls : (Recursion.limited rounds depth).CallsFinish rule.descent s.ahead) :
    Finishes (rule.body (.limited rounds depth)) (rule.body .bounded) s := by
  cases rule with
  | literal | numeric | text => rfl
  | expression => exact hcalls.below (.expression .assignment) s (Nat.le_refl _) (by decide)
  | assignment =>
    refine (hcalls.below (.expression (.binary .logicalOr)) s (Nat.le_refl _) (by decide)).bind
      fun left s₁ h₁ => ?_
    have hle := Rule.ahead_le h₁
    refine finishes_peek ?_
    rcases s₁.kind? with _ | k
    · rfl
    · by_cases hassign : k.isAssignment
      · simp only [if_pos hassign]
        refine finishes_expect_bind fun o s₂ hlt => ?_
        cases left with
        | ident x =>
          exact (hcalls.behind (.expression .assignment) s₂ (by omega)).bind fun _ _ _ => rfl
        | _ => rfl
      · simp only [if_neg hassign]
        rfl
  | binary level =>
    cases hlevel : level.operator? with
    | none =>
      obtain rfl : level = .unary := by cases level <;> first | rfl | cases hlevel
      exact hcalls.below (.expression .unary) s (Nat.le_refl _) (by decide)
    | some k =>
      have hdescent : (binary level.next).descent < (binary level).descent := by
        cases level <;> first | decide | cases hlevel
      have hsound := (binary level.next).progress
      simp only [body, hlevel]
      refine (hcalls.below (.expression (.binary level.next)) s (Nat.le_refl _) hdescent).bind
        fun first s₁ h₁ => ?_
      have hle := Rule.ahead_le h₁
      refine Recursion.repeatWhile_finishes rfl (fun left => ?_) (fun left s₂ h₂ => ?_)
        (Nat.le_trans hle hs) first
      · exact sound_expect_bind fun o => hsound.bind fun ws right _ => sound_pure (by simp)
      · refine finishes_expect_bind fun o s₃ hlt => ?_
        exact (hcalls.behind (.expression (.binary level.next)) s₃ (by omega)).bind
          fun _ _ _ => rfl
  | unary =>
    have hprimary := hcalls.below (.expression .primary) s (Nat.le_refl _) (by decide)
    refine finishes_peek ?_
    rcases s.kind? with _ | k
    · exact hprimary
    · cases k with
      | additive | logicalNot =>
        refine finishes_expect_bind fun o s₁ hlt => ?_
        exact (hcalls.behind (.expression .unary) s₁ hlt).bind fun _ _ _ => rfl
      | _ => exact hprimary
  | primary =>
    have hliteral := hcalls.below (.expression .literal) s (Nat.le_refl _) (by decide)
    have hident := (hcalls.below .identifier s (Nat.le_refl _) (by decide)).map Expr.ident
    refine finishes_peek ?_
    rcases s.kind? with _ | k
    · exact hident
    · cases k with
      | openParen => exact hcalls.below (.expression .grouping) s (Nat.le_refl _) (by decide)
      | number | string | trueWord | falseWord | nullWord => exact hliteral
      | _ => exact hident
  | grouping =>
    refine finishes_expect_bind fun _ s₁ hlt => ?_
    refine (hcalls.behind (.expression .expression) s₁ hlt).bind fun e s₂ _ => ?_
    exact finishes_expect_bind fun _ _ _ => rfl

lemma StmtRule.body_finishes (rule : StmtRule)
    (hcalls : (Recursion.limited rounds depth).CallsFinish rule.descent s.ahead) :
    Finishes (rule.body (.limited rounds depth)) (rule.body .bounded) s := by
  cases rule with
  | empty => rfl
  | statement =>
    have hrule (rule : StmtRule) (hrule : rule ≠ .statement) := hcalls.below (.statement rule) s
      (Nat.le_refl _) (by cases rule <;> first | decide | exact absurd rfl hrule)
    refine finishes_peek ?_
    rcases s.kind? with _ | k
    · exact hrule .expression (by decide)
    · cases k with
      | semicolon => exact hrule .empty (by decide)
      | ifWord => exact hrule .conditional (by decide)
      | openCurly => exact hrule .block (by decide)
      | letWord => exact hrule .declarations (by decide)
      | _ => exact hrule .expression (by decide)
  | block =>
    refine finishes_expect_bind fun _ s₁ hlt => ?_
    refine (hcalls.behind (.statements (some .closeCurly)) s₁ hlt).bind fun body s₂ _ => ?_
    exact finishes_expect_bind fun _ _ _ => rfl
  | conditional =>
    refine finishes_expect_bind fun _ s₁ h₁ => ?_
    refine finishes_expect_bind fun _ s₂ h₂ => ?_
    refine (hcalls.behind (.expression .expression) s₂ (by omega)).bind fun test s₃ h₃ => ?_
    have hle₃ := Rule.ahead_le h₃
    refine finishes_expect_bind fun _ s₄ h₄ => ?_
    refine (hcalls.behind (.statement .statement) s₄ (by omega)).bind fun consequent s₅ h₅ => ?_
    have hle₅ := Rule.ahead_le h₅
    refine finishes_peek ?_
    rcases s₅.kind? with _ | k
    · rfl
    · cases k with
      | elseWord =>
        refine finishes_expect_bind fun _ s₆ h₆ => ?_
        exact (hcalls.behind (.statement .statement) s₆ (by omega)).bind fun _ _ _ => rfl
      | _ => rfl
  | declarations =>
    have hsound := Rule.progress .declaration
    refine finishes_expect_bind fun _ s₁ h₁ => ?_
    refine (hcalls.behind .declaration s₁ h₁).bind fun first s₂ h₂ => ?_
    have hle₂ := Rule.ahead_le h₂
    refine Finishes.bind ?_ fun ds s₃ _ => finishes_expect_bind fun _ _ _ => rfl
    refine Recursion.repeatWhile_finishes rfl (fun ds => ?_) (fun ds s₃ h₃ => ?_) (by omega) _
    · exact sound_expect_bind fun _ => hsound.bind fun ws d _ => sound_pure (by simp)
    · refine finishes_expect_bind fun _ s₄ h₄ => ?_
      exact (hcalls.behind .declaration s₄ (by omega)).bind fun _ _ _ => rfl
  | expression =>
    refine (hcalls.below (.expression .expression) s (Nat.le_refl _) (by decide)).bind
      fun e s₁ _ => ?_
    exact finishes_expect_bind fun _ _ _ => rfl

/-- **A rule comes to an end if its calls do.** -/
lemma Rule.body_finishes (rule : Rule)
    (hcalls : (Recursion.limited rounds depth).CallsFinish rule.descent s.ahead) :
    Finishes (rule.body (.limited rounds depth)) (rule.body .bounded) s := by
  cases rule with
  | identifier => rfl
  | statement rule => exact rule.body_finishes hs hcalls
  | expression rule => exact rule.body_finishes hs hcalls
  | program =>
    exact (hcalls.below (.statements none) s (Nat.le_refl _) (by decide)).bind fun _ _ _ => rfl
  | statements stop =>
    have hsound := StmtRule.statement.progress
    refine Finishes.bind ?_ fun _ _ _ => rfl
    refine Recursion.repeatWhile_finishes rfl (fun body => ?_) (fun body s₁ h₁ => ?_) hs _
    · exact hsound.bind fun ws st hne => sound_pure (by simpa using hne)
    · exact (hcalls.below (.statement .statement) s₁ h₁ (Nat.lt_add_one 13)).bind fun _ _ _ => rfl
  | declaration =>
    refine (hcalls.below .identifier s (Nat.le_refl _) (by decide)).bind fun name s₁ h₁ => ?_
    have hle₁ := Rule.ahead_le h₁
    refine finishes_peek ?_
    rcases s₁.kind? with _ | k
    · rfl
    · cases k with
      | simpleAssign =>
        refine finishes_expect_bind fun _ s₂ h₂ => ?_
        exact (hcalls.behind (.expression .assignment) s₂ (by omega)).bind fun _ _ _ => rfl
      | _ => rfl

end Bodies

lemma Rule.descent_lt (rule : Rule) : rule.descent < 16 := by
  cases rule with
  | program | statements | declaration | identifier => simp [descent]
  | statement rule => cases rule <;> decide
  | expression rule => cases rule <;> simp [descent, ExprRule.descent]; omega

/-- **Every rule comes to an end**, in repetitions of at most as many rounds as there are tokens
ahead and in calls that are nested at most sixteen deep for each token. -/
theorem Rule.call_finishes (rule : Rule) (hs : s.ahead ≤ rounds)
    (hdepth : rule.descent + 16 * s.ahead < depth) :
    Finishes ((Recursion.limited rounds depth).call rule) rule.run s := by
  -- By induction on the depth: a call either has a token less ahead, which pays for any descent, or
  -- as many tokens and a smaller descent.
  induction depth generalizing rule s with
  | zero => exact absurd hdepth (Nat.not_lt_zero _)
  | succ depth ih =>
    rw [rule.run_eq_body]
    refine rule.body_finishes hs ⟨fun rule' s' hlt => ?_, fun rule' s' hle hlt => ?_⟩
    · have := rule'.descent_lt
      exact ih rule' (by omega) (by omega)
    · exact ih rule' (by omega) (by omega)

/-! ## Any history -/

/-- A parse comes to an end, within limits that are told by the tokens of the source. -/
lemma parse_finishes {file : Option String} (hfile : s.file = file.getD defaultFile)
    (source : String) (hs : (scannedTokens source file).length ≤ rounds)
    (hdepth : 16 * ((scannedTokens source file).length + 1) ≤ depth) :
    Finishes ((Recursion.limited rounds depth).parse source) (Reading.parse source) s := by
  have hload : Finishes (liftM (load source)) (load source) s := rfl
  refine hload.bind fun u s₁ h₁ => ?_
  have hpending := pending_of_advance h₁
  have hahead : s₁.ahead = (scannedTokens source file).length := by
    rw [Session.ahead, hpending, scannedTokens, ← hfile]
  have hprogram :
      Finishes ((Recursion.limited rounds depth).call .program) (Rule.run .program) s₁ :=
    Rule.call_finishes .program (by rwa [hahead]) (by rw [hahead, Rule.descent]; omega)
  exact hprogram.bind fun p s₂ _ => rfl

/-- What a rule that succeeds leaves to read is an end of what there was to read. -/
lemma Rule.remaining_suffix {rule : Rule} {a : rule.Result} {name : String}
    (hs : s.Coherent name) (h : rule.run s = .ok a s') :
    s'.remaining <:+ s.remaining ∧
      (s'.remaining = s.remaining → rule = .program ∨ ∃ stop, rule = .statements stop) := by
  obtain ⟨ws, hws, hprogress⟩ := rule.progress s a s' h
  obtain ⟨ts, rfl, hts⟩ := hws.exists_remaining_eq hs
  rw [hts]
  refine ⟨List.suffix_append _ _, fun heq => hprogress ?_⟩
  have hnil : ts.map Except.ok = ([] : List (Except Error Token)) :=
    List.self_eq_append_left.mp heq
  rw [List.map_eq_nil_iff.mp hnil, List.map_nil]

/-- Statements that are read end where no token is left, or in front of a token that is to stop
them. -/
lemma Rule.statements_stop {stop : Option Kind} {body : List Stmt}
    (h : (Rule.statements stop).run s = .ok body s') : s'.lookahead = none ∨ s'.kind? = stop := by
  rw [← kind?_eq_none_iff]
  exact statements_stops (statement_sound s.room) (Nat.le_refl s.room) h

lemma Reading.eq_ok_of_runOn {α : Type} {p : Reading α} {a : α} (h : p.runOn s = (.ok a, s')) :
    p s = .ok a s' := by
  cases hs : p s with
  | ok b s₁ =>
    rw [runOn_of_ok hs] at h
    obtain ⟨hb, rfl⟩ := Prod.mk.inj h
    rw [Except.ok.inj hb]
  | error e s₁ =>
    rw [runOn_of_error hs] at h
    cases (Prod.mk.inj h).1

/-- **The grammar makes progress and halts.**  Whatever was asked of a session before, every rule
comes to an end in it: the recursion of the grammar stays within limits, which for the rounds of
each repetition is the number of tokens that are left, and for the depth of the calls sixteen times
as much and sixteen more.  A rule that succeeds leaves an end of what was left to read, and not all
of it unless it is a program or a list of statements; and a list of statements goes on until no token
is left or the next one is to stop it.  So a parse comes to an end for every source, within limits
that are told by its tokens. -/
theorem rules_progress_and_halt (file : Option String) (calls : List Call) :
    let s := (Session.start file).after calls
    (∀ (rule : Rule) (rounds depth : Nat), (leadingTokens s.remaining).length ≤ rounds →
      16 * ((leadingTokens s.remaining).length + 1) ≤ depth →
      (Recursion.limited rounds depth).call rule s = some (rule.run.runOn s)) ∧
    (∀ (rule : Rule) (a : rule.Result) (s' : Session), rule.run.runOn s = (.ok a, s') →
      s'.remaining <:+ s.remaining ∧
        (s'.remaining = s.remaining → rule = .program ∨ ∃ stop, rule = .statements stop)) ∧
    (∀ (stop : Option Kind) (body : List Stmt) (s' : Session),
      (Rule.statements stop).run.runOn s = (.ok body, s') →
      s'.lookahead = none ∨ s'.kind? = stop) ∧
    ∀ (source : String) (rounds depth : Nat), (scannedTokens source file).length ≤ rounds →
      16 * ((scannedTokens source file).length + 1) ≤ depth →
      (Recursion.limited rounds depth).parse source s = some ((Reading.parse source).runOn s) := by
  intro s
  have hs : s.Coherent (file.getD defaultFile) := (coherent_start file).after calls
  refine ⟨fun rule rounds depth hrounds hdepth => ?_,
    fun rule a s' h => Rule.remaining_suffix hs (eq_ok_of_runOn h),
    fun stop body s' h => Rule.statements_stop (eq_ok_of_runOn h),
    fun source rounds depth => parse_finishes hs.file_eq source⟩
  rw [hs.remaining_eq, ← Session.ahead] at hrounds hdepth
  have hdescent := rule.descent_lt
  exact rule.call_finishes hrounds (by omega)

/-- The parse of `a = ; b;` fails in front of the first semicolon.  From there on a statement is
read, and leaves the other two tokens; a list of statements that is to stop at a semicolon stops at
once; and another source may be parsed. -/
theorem rules_progress_and_halt_after_error :
    let s := (Session.start none).after [.parse "a = ; b;"]
    (leadingTokens s.remaining).length = 3 ∧
    (Recursion.limited 3 64).call (.statement .statement) s =
      some (StmtRule.statement.run.runOn s) ∧
    (∃ s', StmtRule.statement.run.runOn s = (.ok .empty, s') ∧ s'.remaining <:+ s.remaining ∧
      s'.remaining ≠ s.remaining) ∧
    (∃ s', (Rule.statements (some .semicolon)).run.runOn s = (.ok [], s') ∧
      (s'.lookahead = none ∨ s'.kind? = some .semicolon)) ∧
    (scannedTokens "b;" none).length = 2 ∧
    (Recursion.limited 2 48).parse "b;" s = some ((Reading.parse "b;").runOn s) := by
  have hleft : (leadingTokens ((Session.start none).after [.parse "a = ; b;"]).remaining).length =
      3 := by cbv
  have htokens : (scannedTokens "b;" none).length = 2 := by cbv
  have hempty : (StmtRule.statement.run.runOn
      ((Session.start none).after [.parse "a = ; b;"])).1 = .ok .empty := by cbv
  have hnone : ((Rule.statements (some .semicolon)).run.runOn
      ((Session.start none).after [.parse "a = ; b;"])).1 = .ok ([] : List Stmt) := by cbv
  obtain ⟨hhalt, hprogress, hstop, hparse⟩ :=
    rules_progress_and_halt none [.parse "a = ; b;"]
  generalize (Session.start none).after [.parse "a = ; b;"] = s at *
  refine ⟨hleft, hhalt (.statement .statement) 3 64 (by rw [hleft]) (by rw [hleft]), ?_, ?_,
    htokens, hparse "b;" 2 48 (by rw [htokens]) (by rw [htokens])⟩
  · have hrun : StmtRule.statement.run.runOn s = (.ok .empty, _) := Prod.ext hempty rfl
    obtain ⟨hsuffix, hproper⟩ := hprogress (.statement .statement) .empty _ hrun
    refine ⟨_, hrun, hsuffix, fun heq => ?_⟩
    rcases hproper heq with h | ⟨stop, h⟩ <;> cases h
  · have hrun : (Rule.statements (some .semicolon)).run.runOn s = (.ok [], _) :=
      Prod.ext hnone rfl
    exact ⟨_, hrun, hstop (some .semicolon) [] _ hrun⟩

end Scriptlet
