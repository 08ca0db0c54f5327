/-
# Sessions stay coherent

A session keeps a source, a cursor and a lookahead, which change at different moments, and a rule
may fail between any two of them.  Nevertheless they fit together in every session that is reached,
whatever was asked of it before and whether or not it succeeded (`Session.Coherent`): the cursor is
at a place of the source, the lookahead is the token that ends there, and without a lookahead the
source is scanned to its end.

Every rule changes a session only by consuming tokens, also when it fails (`ConsumesOnly`).  So it
is enough that consuming a token keeps a session coherent.
-/
import Mathlib.Logic.Relation
import Scriptlet.Grammar.Parse
import Scriptlet.Proofs.Grammar.Failure
import Scriptlet.Proofs.Token.FreeCursor

namespace Scriptlet

open Reading Grammar

/-! ## Coherence -/

/-- A token that ends at a byte of a source and is what a scan from its own beginning yields. -/
structure Token.EndsAt (t : Token) (source file : String) (offset : Nat) : Prop where
  stop_eq : t.span.stop = ⟨offset, file⟩
  slice_eq : Text.slice? t.span.start.offset t.span.stop.offset source.toList = some t.value.toList
  next?_eq : (⟨file, source, t.span.start.offset⟩ : Scanner).next? =
    some (some (.ok t), ⟨file, source, offset⟩)

/-- A source is cut at byte offsets in two places only: a scan begins behind a token that was
consumed, and the quotes are cut off a quoted text that was consumed.  An event is safe if the
slices that are taken there exist. -/
def Event.Safe (source file : String) : Event → Prop
  | parsing .. => (⟨file, source, 0⟩ : Scanner).next?.isSome
  | consumed t =>
    (⟨file, source, t.span.stop.offset⟩ : Scanner).next?.isSome ∧
      (t.kind = .string → ∃ inner,
        Text.slice? 1 (Text.bytes t.value - 1) t.value.toList = some inner ∧
          unquote t.value = String.ofList (Text.trim inner))
  | scanned _ | parsed _ => True

/-- A session whose parts fit together. -/
structure Session.Coherent (s : Session) (file : String) : Prop where
  /-- The sources have the name that the session began with. -/
  file_eq : s.file = file
  /-- The cursor is not behind the end of the source. -/
  cursor_le : s.cursor.offset ≤ Text.bytes s.source
  /-- The cursor is between two characters, and what it still has is the rest of the source. -/
  from?_eq : Text.from? s.cursor.offset s.source.toList = some s.cursor.rest
  /-- The lookahead ends at the cursor. -/
  endsAt : ∀ t, s.lookahead = some t → t.EndsAt s.source file s.cursor.offset
  /-- Without a lookahead, all of the source is scanned. -/
  ended : s.lookahead = none → s.cursor.offset = Text.bytes s.source
  /-- No slice was taken that does not exist. -/
  safe : ∀ event ∈ s.log, event.Safe s.source file

variable {source file : String} {s s' : Session}

/-- A quoted text can be cut behind its first byte and before its last one. -/
lemma slice?_of_spells {value : String} (h : Kind.Spells .string value) :
    ∃ inner, Text.slice? 1 (Text.bytes value - 1) value.toList = some inner ∧
      unquote value = String.ofList (Text.trim inner) := by
  obtain ⟨q, inner, hq, -, hvalue⟩ := h
  have hsize : q.utf8Size = 1 := by rcases hq with rfl | rfl <;> rfl
  refine ⟨inner, Text.slice?_eq_some_iff.mpr ⟨[q], [q], ?_, ?_, ?_⟩, ?_⟩
  · rw [hvalue]
    rfl
  · simp [hsize]
  · simp [Text.bytes, hvalue, hsize]
    omega
  · rw [unquote, hvalue, List.cons_append, List.tail_cons, List.dropLast_concat]

lemma Cursor.spells_of_next {c d : Cursor} {t : Token} (h : c.next file = (some (.ok t), d)) :
    t.kind.Spells t.value := by
  have hstep := next_step file c
  rw [h] at hstep
  cases hstep with
  | token bs x hbs hrest hx => exact spells_of_lexeme? hx

namespace Token.EndsAt

variable {t : Token} {offset : Nat}

lemma start_le (h : t.EndsAt source file offset) : t.span.start.offset ≤ offset := by
  obtain ⟨pre, post, -, hpre, hstop⟩ := Text.slice?_eq_some_iff.mp h.slice_eq
  have hoffset : t.span.stop.offset = offset := congrArg Position.offset h.stop_eq
  omega

lemma spells (h : t.EndsAt source file offset) : t.kind.Spells t.value := by
  have hnext := h.next?_eq
  rw [Scanner.next?] at hnext
  split at hnext
  · cases hnext
  · obtain ⟨c, -, hc⟩ := Option.map_eq_some_iff.mp hnext
    have hitem : (c.next file).1 = some (.ok t) := congrArg Prod.fst hc
    exact Cursor.spells_of_next (Prod.ext hitem rfl)

end Token.EndsAt

/-! ## Scanning and consuming -/

/-- Whatever scanning from a place of the source comes to, it leaves a coherent session, and its
position is not before the place.  The lookahead was taken out, since an error would leave it. -/
lemma coherent_advance (hfile : s.file = file) (hat : s.cursor.IsAt s.source)
    (hl : s.lookahead = none) (hsafe : ∀ event ∈ s.log, event.Safe s.source file) :
    (advance.runOn s).2.Coherent file ∧
      s.cursor.offset ≤ (advance.runOn s).2.position.offset := by
  subst hfile
  have hfinish : Text.bytes s.source = s.cursor.finish.offset := hat.bytes_eq
  have hatFinish : s.cursor.finish.IsAt s.source := hat.move (List.append_nil _).symm
  -- Where there is no token, the cursor comes to the end of the source.
  have hended : { s with cursor := s.cursor.finish, lookahead := none }.Coherent s.file ∧
      s.cursor.offset ≤ s.cursor.finish.offset :=
    ⟨⟨rfl, Nat.le_of_eq hfinish.symm, Cursor.isAt_iff.mp hatFinish, fun t ht => (by cases ht),
      fun _ => hfinish.symm, hsafe⟩, Nat.le_add_right _ _⟩
  have hstep := Cursor.next_step s.file s.cursor
  generalize hnext : s.cursor.next s.file = result at hstep
  cases hstep with
  | done =>
    rw [runOn, advance_eq_ok_iff.mpr ⟨none, _, hnext, rfl⟩]
    simpa [Session.position] using hended
  | refusal =>
    rw [runOn, advance_eq_error_iff.mpr ⟨_, hnext, rfl⟩]
    simpa [Session.position, hl] using hended
  | token bs x hbs hrest hx =>
    have hatToken := hat.move hrest
    have hatBehind := hatToken.move rfl
    have hstands : (x.token s.file _).StandsIn s.source s.file := hatToken.standsIn rfl hx
    have hscan := Scanner.next?_of_isAt s.file hatToken
    have hblank : Text.Blank [] := fun _ hc => absurd hc List.not_mem_nil
    rw [Cursor.next_of_lexeme s.file hblank rfl hx] at hscan
    rw [runOn, advance_eq_ok_iff.mpr ⟨some _, _, hnext, rfl⟩]
    refine ⟨⟨rfl, hstands.stop_le, Cursor.isAt_iff.mp hatBehind, ?_, ?_, ?_⟩, ?_⟩
    · intro t ht
      obtain rfl := Option.some.inj ht
      exact ⟨rfl, hstands.slice_eq, hscan⟩
    · intro hnone
      cases hnone
    · intro event hevent
      rcases Array.mem_append.mp hevent with hevent | hevent
      · exact hsafe event hevent
      · obtain rfl : event = _ := by simpa using hevent
        trivial
    · exact Nat.le_add_right _ _

lemma Session.Coherent.isAt (h : s.Coherent file) : s.cursor.IsAt s.source :=
  Cursor.isAt_iff.mpr h.from?_eq

/-- **Consuming a token keeps a session coherent**, also where it fails, and does not move its
position back. -/
lemma Session.Coherent.expect (h : s.Coherent file) (k : Kind) :
    ((Reading.expect k).runOn s).2.Coherent file ∧
      s.position.offset ≤ ((Reading.expect k).runOn s).2.position.offset := by
  have hconsume {t : Token} (hl : s.lookahead = some t) :
      (advance.runOn (s.consume t)).2.Coherent file ∧
        s.position.offset ≤ (advance.runOn (s.consume t)).2.position.offset := by
    have hends := h.endsAt t hl
    have hsafe : ∀ event ∈ s.log.push (.consumed t), event.Safe s.source file := by
      intro event hevent
      rcases Array.mem_push.mp hevent with hevent | rfl
      · exact h.safe event hevent
      · have hstop : t.span.stop.offset = s.cursor.offset :=
          congrArg Position.offset hends.stop_eq
        rw [Event.Safe, hstop, Scanner.next?_of_isAt file h.isAt]
        exact ⟨rfl, fun hk => slice?_of_spells (hk ▸ hends.spells)⟩
    have hcoherent := coherent_advance (s := s.consume t) h.file_eq h.isAt rfl hsafe
    refine ⟨hcoherent.1, Nat.le_trans ?_ hcoherent.2⟩
    rw [position, hl]
    exact hends.start_le
  rw [runOn]
  cases hs : Reading.expect k s with
  | ok t s' =>
    obtain ⟨hl, -, hadvance⟩ := expect_eq_ok_iff.mp hs
    have hcoherent := hconsume hl
    rwa [runOn, hadvance] at hcoherent
  | error e s' =>
    cases expect_eq_error_iff.mp hs with
    | ended | mismatch => exact ⟨h, Nat.le_refl _⟩
    | lexical hl _ hadvance =>
      have hcoherent := hconsume hl
      rwa [runOn, hadvance] at hcoherent
    | late _ hc => cases hc

/-! ## Rules -/

/-- `s.Reaches s'`: by consuming tokens, with or without success, the session `s` becomes `s'`. -/
def Session.Reaches : Session → Session → Prop :=
  Relation.ReflTransGen fun s s' => ∃ k, s' = ((expect k).runOn s).2

lemma Session.Coherent.reaches (h : s.Coherent file) (hreaches : s.Reaches s') :
    s'.Coherent file ∧ s.position.offset ≤ s'.position.offset := by
  induction hreaches with
  | refl => exact ⟨h, Nat.le_refl _⟩
  | tail _ hstep ih =>
    obtain ⟨k, rfl⟩ := hstep
    obtain ⟨hcoherent, hle⟩ := ih.1.expect k
    exact ⟨hcoherent, Nat.le_trans ih.2 hle⟩

namespace Reading

variable {α β : Type} {k : Kind} {p : Reading α} {D : List Word → α → Prop}

lemma runOn_of_ok {a : α} (h : p s = .ok a s') : p.runOn s = (.ok a, s') := by
  rw [runOn, h]

lemma runOn_of_error {e : Error} (h : p s = .error e s') : p.runOn s = (.error e, s') := by
  rw [runOn, h]

lemma reaches_of_expect {x : Except Error Token} (h : (expect k).runOn s = (x, s')) :
    s.Reaches s' :=
  .single ⟨k, by rw [h]⟩

lemma Consumes.reaches {ws : List Word} (h : Consumes s ws s') : s.Reaches s' := by
  induction h with
  | nil => exact .refl
  | cons hexpect _ ih => exact (reaches_of_expect (runOn_of_ok hexpect)).trans ih

lemma reaches_of_refused {d : Demand} {e : Error} (h : Refused d s e s') : s.Reaches s' := by
  cases h with
  | ended | mismatch => exact .refl
  | lexical hl hk hadvance =>
    have hexpect := expect_eq_error_iff.mpr (.lexical (d := .token d.kind) hl hk hadvance)
    exact reaches_of_expect (runOn_of_error hexpect)
  | late hexpect _ => exact reaches_of_expect (runOn_of_ok hexpect)

lemma reaches_of_failure {e : Error} (h : Failure D s e s') : s.Reaches s' := by
  obtain ⟨ws, s₁, d, hws, hd, -⟩ := h
  exact hws.reaches.trans (reaches_of_refused hd)

/-- A rule that changes a session only by consuming tokens, whether or not it succeeds. -/
def ConsumesOnly (p : Reading α) : Prop := ∀ s : Session, s.Reaches (p.runOn s).2

lemma reaches_of_sound (hsound : Sound p D)
    (hfails : ∀ e s', p s = .error e s' → s.Reaches s') : s.Reaches (p.runOn s).2 := by
  cases hs : p s with
  | ok a s' =>
    obtain ⟨ws, hws, -⟩ := hsound s a s' hs
    rw [runOn_of_ok hs]
    exact hws.reaches
  | error e s' =>
    rw [runOn_of_error hs]
    exact hfails e s' hs

lemma consumesOnly_of_fails (hsound : Sound p D) (hfails : Fails p D) : ConsumesOnly p := by
  intro s
  exact reaches_of_sound hsound fun e s' h => reaches_of_failure (hfails s.kind? s e s' rfl h)

/-- A rule that begins with a token of some kind.  At any other token it fails at once. -/
lemma consumesOnly_of_failsAt {f : Token → Reading β} {E : List Word → β → Prop}
    (hsound : Sound (expect k >>= f) E) (hfails : FailsAt (some k) (expect k >>= f) E) :
    ConsumesOnly (expect k >>= f) := by
  intro s
  refine reaches_of_sound hsound fun e s' h => ?_
  by_cases hkind : s.kind? = some k
  · exact reaches_of_failure (hfails s e s' hkind h)
  · rcases bind_eq_error.mp h with h | ⟨t, s₁, ht, -⟩
    · exact reaches_of_refused (expect_eq_error_iff.mp h)
    · exact absurd (kind?_of_expect ht) hkind

/-- A rule that reads a single token. -/
lemma consumesOnly_expect (k : Kind) (f : Token → α) :
    ConsumesOnly (do return f (← expect k)) :=
  consumesOnly_of_failsAt (E := fun _ _ => True) (sound_expect_bind fun _ => sound_pure trivial)
    (failsAt_expect_bind fun _ => fails_pure)

lemma consumesOnly_withRoom {p : Nat → Reading α} (h : ∀ n, ConsumesOnly (p n)) :
    ConsumesOnly (withRoom p) :=
  fun s => h s.room s

end Reading

lemma literal_consumesOnly : ConsumesOnly literal := by
  intro s
  refine reaches_of_sound literal_sound fun e s' h => ?_
  cases hkind : s.kind? with
  | none =>
    rw [literal, peek_bind, hkind] at h
    obtain ⟨-, rfl⟩ := EStateM.Result.error.inj h
    exact .refl
  | some k =>
    by_cases hliteral : k.isLiteral
    · exact reaches_of_failure (literal_failsAt hliteral s e s' hkind h)
    · rw [literal, peek_bind, hkind] at h
      cases k with
      | number | string | trueWord | falseWord | nullWord => exact absurd rfl hliteral
      | _ =>
        obtain ⟨-, rfl⟩ := EStateM.Result.error.inj h
        exact .refl

lemma ExprRule.consumesOnly (rule : ExprRule) : ConsumesOnly rule.run := by
  have hsound (n : Nat) := expression_sound n
  have hfails (n : Nat) := expression_fails n
  cases rule with
  | expression | assignment =>
    exact consumesOnly_withRoom fun n => consumesOnly_of_fails (hsound n) (hfails n)
  | binary level =>
    exact consumesOnly_withRoom fun n => consumesOnly_of_fails (binary_sound (hsound n) n level)
      (binary_fails (hsound n) (hfails n) n level)
  | unary =>
    exact consumesOnly_withRoom fun n => consumesOnly_of_fails (unary_sound (hsound n) n)
      (unary_fails (hsound n) (hfails n) n)
  | primary =>
    exact consumesOnly_withRoom fun n => consumesOnly_of_fails (primary_sound (hsound n))
      (primary_fails (hsound n) (hfails n))
  | grouping =>
    exact consumesOnly_withRoom fun n => consumesOnly_of_failsAt (grouping_sound (hsound n))
      (grouping_failsAt (hsound n) (hfails n))
  | literal => exact literal_consumesOnly
  | numeric => exact consumesOnly_of_failsAt numeric_sound numeric_failsAt
  | text => exact consumesOnly_expect .string _

lemma StmtRule.consumesOnly (rule : StmtRule) : ConsumesOnly rule.run := by
  have hsound (n : Nat) := statement_sound n
  have hfails (n : Nat) := statement_fails n
  cases rule with
  | statement => exact consumesOnly_withRoom fun n => consumesOnly_of_fails (hsound n) (hfails n)
  | empty => exact consumesOnly_expect .semicolon _
  | block =>
    exact consumesOnly_withRoom fun n => consumesOnly_of_failsAt (block_sound (hsound n) n)
      (block_failsAt (hsound n) (hfails n) n)
  | conditional =>
    have hsettled (n : Nat) := (statement_sound_settled n).2
    exact consumesOnly_withRoom fun n => consumesOnly_of_failsAt
      (conditional_sound (hsound n) n (hsettled n))
      (conditional_failsAt (hsound n) (hfails n) n (hsettled n))
  | declarations =>
    exact consumesOnly_withRoom fun n => consumesOnly_of_failsAt (declarations_sound n)
      (declarations_failsAt n)
  | expression =>
    exact consumesOnly_withRoom fun n => consumesOnly_of_fails (expressionStatement_sound n)
      (expressionStatement_fails n)

/-- **Every rule changes a session only by consuming tokens.** -/
lemma Rule.consumesOnly (rule : Rule) : ConsumesOnly rule.run := by
  cases rule with
  | program =>
    exact consumesOnly_withRoom fun n => consumesOnly_of_fails (program_sound n) (program_fails n)
  | statements stop =>
    exact consumesOnly_withRoom fun n => consumesOnly_of_fails
      (statements_sound (statement_sound n) n stop)
      (statements_fails (statement_sound n) (statement_fails n) n stop)
  | statement rule => exact rule.consumesOnly
  | declaration =>
    exact consumesOnly_withRoom fun n => consumesOnly_of_fails (declaration_sound n)
      (declaration_fails n)
  | identifier => exact consumesOnly_expect .identifier _
  | expression rule => exact rule.consumesOnly

/-! ## Calls -/

/-- What can be asked of a session between two parses. -/
inductive Request where
  /-- To consume a token of the kind. -/
  | expect (kind : Kind)
  /-- To read by a rule. -/
  | rule (rule : Rule)
deriving DecidableEq, Repr

/-- What can be asked of a session. -/
inductive Call where
  /-- To read a source from its beginning. -/
  | parse (source : String)
  | request (request : Request)
deriving DecidableEq, Repr

/-- The session that a request leaves, whether or not it succeeds. -/
def Request.leaves (request : Request) (s : Session) : Session :=
  match request with
  | expect kind => ((Reading.expect kind).runOn s).2
  | rule r => (r.run.runOn s).2

/-- The session that a call leaves, whether or not it succeeds. -/
def Call.leaves (call : Call) (s : Session) : Session :=
  match call with
  | parse source => ((Reading.parse source).runOn s).2
  | request r => r.leaves s

/-- The session that calls leave, one after the other. -/
def Session.after (s : Session) (calls : List Call) : Session :=
  calls.foldl (fun s call => call.leaves s) s

/-- The session that requests leave, one after the other. -/
def Session.afterRequests (s : Session) (requests : List Request) : Session :=
  requests.foldl (fun s request => request.leaves s) s

lemma Request.reaches (request : Request) (s : Session) : s.Reaches (request.leaves s) := by
  cases request with
  | expect kind => exact reaches_of_expect rfl
  | rule r => exact r.consumesOnly s

lemma Session.reaches_afterRequests (s : Session) (requests : List Request) :
    s.Reaches (s.afterRequests requests) := by
  induction requests generalizing s with
  | nil => exact .refl
  | cons request requests ih => exact (request.reaches s).trans (ih (request.leaves s))

lemma coherent_bind {α β : Type} {p : Reading α} {f : α → Reading β}
    (hp : (p.runOn s).2.Coherent file)
    (hf : ∀ a s₁, s₁.Coherent file → ((f a).runOn s₁).2.Coherent file) :
    ((p >>= f).runOn s).2.Coherent file := by
  cases hs : p s with
  | ok a s₁ =>
    rw [runOn_of_ok hs] at hp
    rw [runOn, bind_of_ok hs]
    exact hf a s₁ hp
  | error e s₁ =>
    rw [runOn_of_error hs] at hp
    rwa [runOn_of_error (bind_of_error hs f)]

lemma coherent_note {event : Event} (h : s.Coherent file) (hevent : event.Safe s.source file) :
    ((note event).runOn s).2.Coherent file := by
  refine ⟨h.file_eq, h.cursor_le, h.from?_eq, h.endsAt, h.ended, ?_⟩
  intro event' hmem
  rcases Array.mem_push.mp hmem with hmem | rfl
  · exact h.safe event' hmem
  · exact hevent

/-- A source is loaded anew, whatever the session held before but its name. -/
lemma coherent_load (source : String) (h : s.file = file) :
    ((load source).runOn s).2.Coherent file := by
  refine (coherent_advance (s := ⟨s.file, source, .start source.toList, none,
    #[.parsing (Text.size source.toList) s.file]⟩) h (Cursor.isAt_start source) rfl ?_).1
  intro event hevent
  obtain rfl := Array.mem_singleton.mp hevent
  have hscan := Scanner.next?_of_isAt file (Cursor.isAt_start source)
  exact Option.isSome_of_eq_some hscan

lemma coherent_parse (source : String) (h : s.file = file) :
    ((Reading.parse source).runOn s).2.Coherent file := by
  refine coherent_bind (coherent_load source h) fun _ s₁ hs₁ => ?_
  refine coherent_bind ?_ fun p s₂ hs₂ => ?_
  · exact (hs₁.reaches (Rule.consumesOnly .program s₁)).1
  · exact coherent_bind (coherent_note hs₂ trivial) fun _ s₃ hs₃ => hs₃

lemma coherent_start (file : Option String) :
    (Session.start file).Coherent (file.getD defaultFile) := by
  refine ⟨rfl, Nat.zero_le _, rfl, ?_, fun _ => rfl, ?_⟩
  · intro t ht
    cases ht
  · intro event hevent
    exact absurd hevent (Array.not_mem_empty event)

lemma Session.Coherent.after (h : s.Coherent file) (calls : List Call) :
    (s.after calls).Coherent file := by
  induction calls generalizing s with
  | nil => exact h
  | cons call calls ih =>
    cases call with
    | parse source => exact ih (coherent_parse source h.file_eq)
    | request r => exact ih (h.reaches (r.reaches s)).1

/-- **Sessions stay coherent.**  Whatever is asked of a session one after the other, each time with
or without success, it stays coherent, and between two parses its position does not move back. -/
theorem coherent_after (file : Option String) (calls : List Call) :
    ((Session.start file).after calls).Coherent (file.getD "shell") ∧
      ∀ requests : List Request,
        ((Session.start file).after calls).position.offset ≤
          (((Session.start file).after calls).afterRequests requests).position.offset := by
  have hcoherent := (coherent_start file).after calls
  refine ⟨hcoherent, fun requests => ?_⟩
  exact (hcoherent.reaches (Session.reaches_afterRequests _ requests)).2

end Scriptlet
