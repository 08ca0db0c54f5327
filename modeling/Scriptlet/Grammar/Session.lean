/-
# Sessions

A session reads sources one after the other, a token at a time.  It holds the source of the
latest parse, a cursor in it, and the token before the cursor that was scanned but not yet
consumed: the lookahead, on which every decision of the grammar is based.

A step of a session succeeds or fails, and leaves a session in either case.  What was consumed
before a failure stays consumed.
-/
import Scriptlet.Grammar.Event
import Scriptlet.Token.Scanner

namespace Scriptlet

/-- The state of a session. -/
structure Session where
  /-- The name of the sources. -/
  file : String
  /-- The source of the latest parse. -/
  source : String
  /-- The place up to which the source has been scanned. -/
  cursor : Cursor
  /-- The token that was scanned last, unless it is consumed. -/
  lookahead : Option Token
  /-- What has been noted since the latest parse began. -/
  log : Array Event
deriving DecidableEq, Repr

namespace Session

/-- A session before its first parse. -/
def start (file : Option String) : Session :=
  ⟨file.getD defaultFile, "", .start [], none, #[]⟩

/-- The kind of the lookahead. -/
def kind? (s : Session) : Option Kind := s.lookahead.map (·.kind)

/-- The place of the lookahead, or the place of the cursor if there is none. -/
def position (s : Session) : Position :=
  match s.lookahead with
  | some t => t.span.start
  | none => ⟨s.cursor.offset, s.file⟩

/-- The session in which the lookahead `t` is taken out, and noted as consumed. -/
def consume (s : Session) (t : Token) : Session :=
  { s with lookahead := none, log := s.log.push (.consumed t) }

@[simp] theorem consume_source (s : Session) (t : Token) : (s.consume t).source = s.source := rfl

@[simp] theorem consume_lookahead (s : Session) (t : Token) : (s.consume t).lookahead = none := rfl

/-- A bound on the number of tokens a session can still consume.  Every token consumed lowers
it, and where it is zero there is no lookahead. -/
def room (s : Session) : Nat :=
  match s.lookahead with
  | some _ => s.cursor.rest.length + 1
  | none => 0

end Session

/-- A step of a session. -/
abbrev Reading := EStateM Error Session

namespace Reading

/-- What a step gives in a session, and the session it leaves. -/
def runOn {α : Type} (p : Reading α) (s : Session) : Except Error α × Session :=
  match p s with
  | .ok a s => (.ok a, s)
  | .error e s => (.error e, s)

/-- Notes an event. -/
def note (e : Event) : Reading Unit := modify fun s => { s with log := s.log.push e }

/-- The kind of the lookahead. -/
def peek : Reading (Option Kind) := return (← get).kind?

/-- Scans the next token and makes it the lookahead.  At the end of the source there is none, and an
error leaves the lookahead as it is. -/
def advance : Reading Unit := fun s =>
  match s.cursor.next s.file with
  | (none, cursor) => .ok () { s with cursor, lookahead := none }
  | (some (.ok t), cursor) =>
    .ok () { s with cursor, lookahead := some t, log := s.log.push (.scanned t) }
  | (some (.error e), cursor) => .error e { s with cursor }

/-- Begins to read a source: its first token becomes the lookahead. -/
def load (source : String) : Reading Unit := fun s =>
  let cs := source.toList
  -- The lookahead is cleared first, so that an error does not leave the one of another source.
  advance { s with
    source, cursor := .start cs, lookahead := none, log := #[.parsing (Text.size cs) s.file] }

/-- Consumes the lookahead, which has to be of the given kind, and scans the token behind it. -/
def expect (kind : Kind) : Reading Token := fun s =>
  match s.lookahead with
  | none => .error ⟨.endOfInput kind.label, s.position⟩ s
  | some t =>
    if t.kind = kind then
      match advance (s.consume t) with
      | .ok () s => .ok t s
      | .error e s => .error e s
    else .error ⟨.unexpected t.value kind.label, s.position⟩ s

/-- Repeats a step while the kind of the lookahead allows it, at most `n` times.  Each step is
given what the one before it gave. -/
def repeatWhile {α : Type} (more : Option Kind → Bool) (step : α → Reading α) :
    Nat → α → Reading α
  | 0, a => return a
  | n + 1, a => do
    if more (← peek) then repeatWhile more step n (← step a) else return a

/-- A step that is told how many tokens it can consume at most. -/
def withRoom {α : Type} (p : Nat → Reading α) : Reading α := fun s => p s.room s

/-! ## What scanning and consuming do -/

/-- **Scanning succeeds** where the source holds a token or nothing more, and all it changes is the
cursor, the lookahead and the log. -/
theorem advance_eq_ok_iff {s s' : Session} :
    advance s = .ok () s' ↔ ∃ t? cursor, s.cursor.next s.file = (t?.map .ok, cursor) ∧
      s' = { s with
        cursor, lookahead := t?, log := s.log ++ (t?.map Event.scanned).toArray } := by
  unfold advance
  constructor
  · intro h
    split at h
    · next cursor hnext =>
      cases h
      exact ⟨none, cursor, hnext, by simp⟩
    · next t cursor hnext =>
      cases h
      exact ⟨some t, cursor, hnext, by simp⟩
    · cases h
  · rintro ⟨_ | t, cursor, hnext, rfl⟩ <;> simp [hnext]

/-- **Scanning fails** where the source holds an error, and all it changes is the cursor. -/
theorem advance_eq_error_iff {s s' : Session} {e : Error} :
    advance s = .error e s' ↔
      ∃ cursor, s.cursor.next s.file = (some (.error e), cursor) ∧ s' = { s with cursor } := by
  unfold advance
  constructor
  · intro h
    split at h
    · cases h
    · cases h
    · next cursor hnext =>
      cases h
      exact ⟨cursor, hnext, rfl⟩
  · rintro ⟨cursor, hnext, rfl⟩
    simp [hnext]

/-- A token is consumed if it is the lookahead and of the right kind, and the token behind it is
scanned. -/
theorem expect_eq_ok_iff {s s' : Session} {kind : Kind} {t : Token} :
    expect kind s = .ok t s' ↔
      s.lookahead = some t ∧ t.kind = kind ∧ advance (s.consume t) = .ok () s' := by
  unfold expect
  constructor
  · intro h
    split at h
    · cases h
    · next u hu =>
      split at h
      · next hk =>
        split at h
        · next hadvance =>
          obtain ⟨rfl, rfl⟩ := EStateM.Result.ok.inj h
          exact ⟨hu, hk, hadvance⟩
        · cases h
      · cases h
  · rintro ⟨hl, rfl, hadvance⟩
    simp [hl, hadvance]

/-! ## Room

The room of a session bounds every repetition in the grammar: a step that consumes a token leaves
less of it, and a session without room has no lookahead. -/

/-- Where there is no room there is no lookahead. -/
theorem lookahead_eq_none {s : Session} (h : s.room = 0) : s.lookahead = none := by
  cases hl : s.lookahead with
  | none => rfl
  | some t => simp [Session.room, hl] at h

/-- Scanning leaves no more room than there is text. -/
theorem room_advance_le {s s' : Session} {u : Unit} (h : advance s = .ok u s') :
    s'.room ≤ s.cursor.rest.length := by
  obtain ⟨_ | t, cursor, hnext, rfl⟩ := advance_eq_ok_iff.mp h
  · exact Nat.zero_le _
  · exact Cursor.length_rest_next_lt hnext

/-- **Consuming a token leaves less room.** -/
theorem room_expect_lt {s s' : Session} {kind : Kind} {t : Token}
    (h : expect kind s = .ok t s') : s'.room < s.room := by
  obtain ⟨hl, -, hadvance⟩ := expect_eq_ok_iff.mp h
  have hroom : s.room = s.cursor.rest.length + 1 := by simp [Session.room, hl]
  have hle := room_advance_le hadvance
  rw [hroom]
  exact Nat.lt_succ_of_le hle

end Reading

end Scriptlet
