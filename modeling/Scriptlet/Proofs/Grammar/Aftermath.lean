/-
# What a failure leaves behind

A rule that fails leaves a session in which other rules may be asked for, and so it matters what it
leaves.  Wherever in its recursion a rule fails, it is a demand that is refused at some token
(`Stopped`), and nothing is done to the session after that.  So what is left depends on the cause
alone (`Error.Leaves`): in front of the token that is not wanted, behind the token that turned out
to be unfit, or at the end of the source.

Since consuming is all that a rule does, what is left to read after a syntax error is an end of what
there was to read before.
-/
import Scriptlet.Proofs.Grammar.Determinacy
import Scriptlet.Proofs.Grammar.Fault
import Scriptlet.Proofs.Grammar.Reuse

namespace Scriptlet

open Reading Grammar

variable {file : String} {s s' s₁ : Session} {e : Error} {t : Token} {k : Kind} {ws : List Word}

/-! ## What is left to read -/

/-- What a session has left to read: the lookahead, and all that the source holds from the cursor
on. -/
def Session.remaining (s : Session) : List (Except Error Token) :=
  s.lookahead.toList.map .ok ++ (s.cursor.drain s.file).1

/-- In a coherent session the source holds no more where there is no lookahead. -/
lemma Session.Coherent.remaining_eq (h : s.Coherent file) : s.remaining = s.pending := by
  cases hl : s.lookahead with
  | none =>
    have hnil := h.isAt.rest_eq_nil (Nat.le_of_eq (h.ended hl).symm)
    simp [remaining, pending, hl, Cursor.drain_of_rest_nil hnil]
  | some t => simp [remaining, pending, hl]

/-- What tokens are consumed comes off what is left to read. -/
lemma Reading.Consumes.exists_remaining_eq (h : Consumes s ws s') (hs : s.Coherent file) :
    ∃ ts : List Token, ts.map Token.word = ws ∧ s.remaining = ts.map .ok ++ s'.remaining := by
  have hs' := (hs.reaches h.reaches).1
  rw [hs.remaining_eq, hs'.remaining_eq]
  exact h.exists_pending_eq

/-- `s'.IsBehind t s`: on the way from the session `s` to `s'` the token `t` was consumed last, and
nothing was scanned since but the lookahead. -/
structure Session.IsBehind (s' : Session) (t : Token) (s : Session) : Prop where
  /-- The token is the last of those that were left to read before and are no more. -/
  consumed : ∃ ts : List Token, s.remaining = ts.map .ok ++ .ok t :: s'.remaining
  /-- The lookahead is what a scan from the end of the token yields, and the cursor is behind it. -/
  scanned : (⟨s'.file, s'.source, t.span.stop.offset⟩ : Scanner).next? =
    some (s'.lookahead.map .ok, ⟨s'.file, s'.source, s'.cursor.offset⟩)
  /-- There is no lookahead exactly if only blanks are behind the token. -/
  ended_iff : s'.lookahead = none ↔
    BlankBetween s'.source t.span.stop.offset (Text.bytes s'.source)

/-- How a session `s` in which a request fails is left as `s'`, by the cause of the error. -/
def Error.Leaves (e : Error) (request : Request) (s s' : Session) : Prop :=
  match e.cause with
  | .unexpected text _ =>
    ∃ t, s'.lookahead = some t ∧ t.value = text ∧ t.span.start = e.position
  | .endOfInput _ =>
    s'.lookahead = none ∧ e.position = s'.position ∧
      s'.position.offset = Text.bytes s'.source
  | .unrecognised _ =>
    s'.lookahead = none ∧ s'.cursor.offset = Text.bytes s'.source ∧
      e.position.offset < Text.bytes s'.source
  | .notAssignable =>
    ∃ t, t.kind.isAssignment ∧ t.span.start = e.position ∧ s'.IsBehind t s
  | .tooLarge digits =>
    ∃ t, t.kind = .number ∧ t.value = digits ∧ t.span.start = e.position ∧ s'.IsBehind t s
  | .notLiteral _ => request = .rule (.expression .literal) ∧ s' = s

/-! ## Scanning -/

namespace Reading

/-- What scanning makes the lookahead is what the scan yields. -/
lemma next_of_advance {u : Unit} (h : advance s = .ok u s') :
    s.cursor.next s.file = (s'.lookahead.map .ok, s'.cursor) := by
  obtain ⟨t?, cursor, hnext, rfl⟩ := advance_eq_ok_iff.mp h
  exact hnext

/-- At a lexical error the source is scanned to its end, and the error is before that. -/
lemma leaves_of_advance_error (h : advance s = .error e s') :
    (∃ text, e.cause = .unrecognised text) ∧ s'.source = s.source ∧
      s'.lookahead = s.lookahead ∧ e.position.offset < s'.cursor.offset := by
  obtain ⟨cursor, hnext, rfl⟩ := advance_eq_error_iff.mp h
  obtain ⟨-, hcause, hlt⟩ := Cursor.refusal_of_next hnext
  exact ⟨hcause, rfl, rfl, hlt⟩

/-- **A token that was consumed last** is directly before what is left to read. -/
lemma isBehind_of_expect (hs : s.Coherent file) (hws : Consumes s ws s₁)
    (ht : expect k s₁ = .ok t s') : s'.IsBehind t s := by
  have hs₁ := (hs.reaches hws.reaches).1
  have hs' := (hs₁.reaches (reaches_of_expect (runOn_of_ok ht))).1
  obtain ⟨hl, -, hadvance⟩ := expect_eq_ok_iff.mp ht
  have hnext : s₁.cursor.next s₁.file = (s'.lookahead.map .ok, s'.cursor) :=
    next_of_advance (s := s₁.consume t) hadvance
  have hsource := (consumes_of_expect ht).source_eq
  have hstop : t.span.stop.offset = s₁.cursor.offset :=
    congrArg Position.offset (hs₁.endsAt t hl).stop_eq
  have hbytes := hs₁.isAt.bytes_eq
  refine ⟨?_, ?_, ?_⟩
  · obtain ⟨ts, -, hts⟩ := hws.exists_pending_eq
    refine ⟨ts, ?_⟩
    rw [hs.remaining_eq, hs'.remaining_eq, hts, pending_of_expect ht]
  · have hscan := Scanner.next?_of_isAt file hs₁.isAt
    rw [← hs₁.file_eq, hnext] at hscan
    rw [hstop, hsource, hs'.file_eq, ← hs₁.file_eq]
    exact hscan
  · rw [hstop, hsource, hbytes]
    constructor
    · intro hnone
      have hstep := Cursor.next_step s₁.file s₁.cursor
      have hitem : none = (s₁.cursor.next s₁.file).1 := by rw [hnext, hnone]; rfl
      generalize s₁.cursor.next s₁.file = result at hitem hstep
      cases hstep with
      | done hblank => exact hs₁.isAt.blankBetween (List.append_nil _).symm hblank
      | token | refusal => cases hitem
    · rintro ⟨-, bs, hslice, hbs⟩
      -- The text from the cursor on is all that a scan still has.
      rw [hs₁.isAt.slice (List.append_nil _).symm] at hslice
      obtain rfl := Option.some.inj hslice
      rw [Cursor.next_of_blank s₁.file hbs] at hnext
      exact Option.map_eq_none_iff.mp (congrArg Prod.fst hnext).symm

end Reading

/-! ## Where a rule stops -/

/-- `Stopped s e s'`: tokens were consumed from the session `s` on, and then a demand was refused
with the error `e`, which left `s'`. -/
def Stopped (s : Session) (e : Error) (s' : Session) : Prop :=
  ∃ ws s₁ d, Consumes s ws s₁ ∧ Refused d s₁ e s'

namespace Stopped

/-- **What a refused demand leaves.** -/
lemma leaves (h : Stopped s e s') (hs : s.Coherent file) (request : Request) :
    e.Leaves request s s' ∧ s'.source = s.source ∧
      (e.cause.phase = .syntactic → s'.remaining <:+ s.remaining) := by
  obtain ⟨ws, s₁, d, hws, hd⟩ := h
  have hs₁ := (hs.reaches hws.reaches).1
  have hs' := (hs₁.reaches (reaches_of_refused hd)).1
  have hsource := hws.source_eq
  have hsuffix : s₁.remaining <:+ s.remaining := by
    obtain ⟨ts, -, hts⟩ := hws.exists_remaining_eq hs
    rw [hts]
    exact List.suffix_append _ _
  cases hd with
  | ended hl =>
    refine ⟨⟨hl, rfl, ?_⟩, hsource, fun _ => hsuffix⟩
    rw [Session.position, hl]
    exact hs₁.ended hl
  | mismatch hl hk => exact ⟨⟨_, hl, rfl, rfl⟩, hsource, fun _ => hsuffix⟩
  | lexical hl hk hadvance =>
    obtain ⟨⟨text, hcause⟩, hkept, hnone, hlt⟩ := leaves_of_advance_error hadvance
    rw [Session.consume_lookahead] at hnone
    have hend := hs'.ended hnone
    refine ⟨?_, hkept.trans hsource, fun hphase => ?_⟩
    · rw [Error.Leaves, hcause]
      exact ⟨hnone, hend, hend ▸ hlt⟩
    · rw [hcause] at hphase
      cases hphase
  | @late t c _ ht hc =>
    have hbehind := isBehind_of_expect hs hws ht
    have hkind := kind_eq_of_expect ht
    refine ⟨?_, (consumes_of_expect ht).source_eq.trans hsource, fun _ => ?_⟩
    · cases d with
      | token => cases hc
      | finite =>
        obtain rfl := Option.some.inj hc
        exact ⟨t, hkind, rfl, rfl, hbehind⟩
      | assignable k hassign =>
        obtain rfl := Option.some.inj hc
        exact ⟨t, hkind ▸ hassign, rfl, hbehind⟩
    · obtain ⟨ts, hts⟩ := hbehind.consumed
      exact ⟨ts.map .ok ++ [.ok t], by rw [hts, List.append_assoc]; rfl⟩

end Stopped

/-- A rule that looks at words only stops where a demand is refused. -/
lemma Grammar.Determined.stopped {α : Type} {p : Reading α} (hp : Determined p)
    (h : p s = .error e s') : Stopped s e s' := by
  obtain ⟨ws, s₁, d, hws, hd, -⟩ := (hp s.kind?).error s e s' rfl h
  exact ⟨ws, s₁, d, hws, hd⟩

/-- A literal that is asked for where there is none: nothing is consumed. -/
lemma literal_stopped (h : literal s = .error e s') :
    Stopped s e s' ∨ (∃ text, e.cause = .notLiteral text) ∧ s' = s := by
  by_cases hliteral : ∃ k, s.kind? = some k ∧ k.isLiteral
  · obtain ⟨k, hkind, hk⟩ := hliteral
    obtain ⟨ws, s₁, d, hws, hd, -⟩ := (literal_determined hk).error s e s' hkind h
    exact .inl ⟨ws, s₁, d, hws, hd⟩
  · right
    have hthrow : literal s = (do
        let s ← get
        throw ⟨.notLiteral ((s.lookahead.map (·.value)).getD ""), s.position⟩ : Reading Expr) s := by
      refine peek_bind_of ?_
      cases hkind : s.kind? with
      | none => rfl
      | some k => cases k <;> first | rfl | exact absurd ⟨_, hkind, rfl⟩ hliteral
    rw [h] at hthrow
    obtain ⟨rfl, rfl⟩ := EStateM.Result.error.inj hthrow
    exact ⟨⟨_, rfl⟩, rfl⟩

lemma ExprRule.stopped (rule : ExprRule) (h : rule.run s = .error e s') :
    Stopped s e s' ∨ (∃ text, e.cause = .notLiteral text) ∧ rule = .literal ∧ s' = s := by
  have hinner := expression_determined s.room
  cases rule with
  | expression | assignment => exact .inl (hinner.stopped h)
  | binary level => exact .inl ((binary_determined hinner s.room level).stopped h)
  | unary => exact .inl ((unary_determined hinner s.room).stopped h)
  | primary => exact .inl ((primary_determined hinner).stopped h)
  | grouping => exact .inl ((grouping_determined hinner).stopped h)
  | literal =>
    rcases literal_stopped h with hstopped | ⟨hcause, hs⟩
    · exact .inl hstopped
    · exact .inr ⟨hcause, rfl, hs⟩
  | numeric => exact .inl (numeric_determined.stopped h)
  | text =>
    have htext : Determined quotedText :=
      determined_expect_bind (fun t u ht => by rw [ht]) fun _ => determined_pure
    exact .inl (htext.stopped h)

lemma StmtRule.stopped (rule : StmtRule) (h : rule.run s = .error e s') : Stopped s e s' := by
  have hinner := statement_determined s.room
  cases rule with
  | statement => exact hinner.stopped h
  | empty =>
    have hempty : Determined emptyStatement :=
      determined_expect_bind (fun _ _ _ => rfl) fun _ => determined_pure
    exact hempty.stopped h
  | block => exact (block_determined hinner s.room).stopped h
  | conditional => exact (conditional_determined hinner s.room).stopped h
  | declarations => exact (declarations_determined s.room).stopped h
  | expression => exact (expressionStatement_determined s.room).stopped h

/-- **Every request that fails stops where a demand is refused**, except that a literal may be asked
for where there is none. -/
lemma Request.stopped (request : Request) (h : (Call.request request).run s = .error e s') :
    Stopped s e s' ∨ (∃ text, e.cause = .notLiteral text) ∧
      request = .rule (.expression .literal) ∧ s' = s := by
  cases request with
  | expect k => exact .inl ⟨[], s, .token k, .nil s, expect_eq_error_iff.mp h⟩
  | rule r =>
    cases r with
    | program => exact .inl ((program_determined s.room).stopped h)
    | statements stop =>
      exact .inl ((statements_determined (statement_determined s.room) s.room stop).stopped h)
    | statement rule => exact .inl (rule.stopped h)
    | declaration => exact .inl ((declaration_determined s.room).stopped h)
    | identifier => exact .inl (identifier_determined.stopped h)
    | expression rule =>
      rcases rule.stopped h with hstopped | ⟨hcause, rfl, hs⟩
      · exact .inl hstopped
      · exact .inr ⟨hcause, rfl, hs⟩

/-! ## What is left after any history -/

/-- **What a failing request leaves.**  Whatever was asked of a session before, a request that fails
in it leaves it as the cause tells.  An unexpected token is the lookahead; at the end of the source
there is none, and the position is the end; at a lexical error all of the source is scanned.  Where
an assignment operator or a number was found unfit, it is consumed, and the lookahead is the token
behind it, if there is one.  That there is no literal is told only when a literal is asked for, and
changes nothing.  The source stays the same, and what is left to read after a syntax error is an end
of what there was to read before. -/
theorem request_error_leaves (file : Option String) (calls : List Call) (request : Request)
    (e : Error) (s' : Session)
    (h : (Call.request request).run.runOn ((Session.start file).after calls) = (.error e, s')) :
    e.Leaves request ((Session.start file).after calls) s' ∧
      s'.source = ((Session.start file).after calls).source ∧
      (e.cause.phase = .syntactic →
        s'.remaining <:+ ((Session.start file).after calls).remaining) := by
  have hcoherent := (coherent_start file).after calls
  generalize (Session.start file).after calls = s at h hcoherent
  have hrun : (Call.request request).run s = .error e s' := by
    rw [runOn] at h
    split at h
    · cases h
    · next hs =>
      obtain ⟨he, rfl⟩ := Prod.mk.inj h
      rw [hs, Except.error.inj he]
  rcases request.stopped hrun with hstopped | ⟨⟨text, hcause⟩, hrequest, rfl⟩
  · exact hstopped.leaves hcoherent request
  · refine ⟨?_, rfl, fun _ => List.suffix_refl _⟩
    rw [Error.Leaves, hcause]
    exact ⟨hrequest, rfl⟩

/-- In `let null = y;` the parse fails at `null`.  An expression that is asked for then begins there,
and fails behind the operator, which cannot assign to `null`. -/
theorem request_error_leaves_assignment :
    ∃ s', (Call.request (.rule (.expression .assignment))).run.runOn
        ((Session.start none).after [.parse "let null = y;"]) =
          (.error ⟨.notAssignable, ⟨9, "shell"⟩⟩, s') ∧
      (∃ t, t.kind.isAssignment ∧ t.span.start = ⟨9, "shell"⟩ ∧
        s'.IsBehind t ((Session.start none).after [.parse "let null = y;"])) ∧
      s'.lookahead.map Token.word = some ⟨.identifier, "y"⟩ := by
  have herror : ((Call.request (.rule (.expression .assignment))).run.runOn
      ((Session.start none).after [.parse "let null = y;"])).1 =
        .error ⟨.notAssignable, ⟨9, "shell"⟩⟩ := by cbv
  have hlookahead : (((Call.request (.rule (.expression .assignment))).run.runOn
      ((Session.start none).after [.parse "let null = y;"])).2.lookahead.map Token.word) =
        some ⟨.identifier, "y"⟩ := by cbv
  have hleaves := fun s' => request_error_leaves none [.parse "let null = y;"]
    (.rule (.expression .assignment)) ⟨.notAssignable, ⟨9, "shell"⟩⟩ s'
  generalize (Session.start none).after [.parse "let null = y;"] = s at *
  generalize (Call.request (.rule (.expression .assignment))).run.runOn s = result at *
  obtain ⟨outcome, s'⟩ := result
  obtain rfl : outcome = .error ⟨.notAssignable, ⟨9, "shell"⟩⟩ := herror
  exact ⟨s', rfl, (hleaves s' rfl).1, hlookahead⟩

end Scriptlet
