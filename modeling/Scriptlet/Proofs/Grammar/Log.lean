/-
# The log shows one token of lookahead

A parse scans every token of a source once, and consumes it before it scans the next one.  So it is
never more than one token ahead, and the log tells how far it came: behind the line that opens it
there are two lines for each token that was consumed, and one for the lookahead if there is one.

`Session.HasLogged` is the invariant of a session that is being read.  Since a rule changes a session
only by consuming tokens, it is enough that consuming a token keeps the invariant; how the log ends
then depends only on how the last demand was refused.
-/
import Scriptlet.Proofs.Grammar.Fault

namespace Scriptlet

open Reading Grammar

variable {source : String} {file : Option String} {e : Error} {s s' : Session} {k : Kind}
  {t : Token} {ts : List Token} {ws : List Word} {first : Event}

/-! ## What a session has noted -/

/-- What is noted of a token that is scanned and then consumed. -/
def Token.events (t : Token) : List Event := [.scanned t, .consumed t]

/-- A session whose log begins with `first` and that has consumed the tokens `ts` since then: each of
them was consumed before the next one was scanned, and the lookahead was scanned last. -/
def Session.HasLogged (s : Session) (first : Event) (ts : List Token) : Prop :=
  s.log.toList = first :: ts.flatMap Token.events ++ (s.lookahead.map Event.scanned).toList

lemma log_of_advance {u : Unit} (h : advance s = .ok u s') :
    s'.log.toList = s.log.toList ++ (s'.lookahead.map Event.scanned).toList := by
  obtain ⟨t?, cursor, -, rfl⟩ := advance_eq_ok_iff.mp h
  simp

lemma log_of_advance_error (h : advance s = .error e s') :
    s'.log = s.log ∧ s'.lookahead = s.lookahead := by
  obtain ⟨cursor, -, rfl⟩ := advance_eq_error_iff.mp h
  exact ⟨rfl, rfl⟩

namespace Session.HasLogged

/-- The lookahead was scanned last, so that noting its consumption completes its two lines. -/
lemma log_consume (h : s.HasLogged first ts) (hl : s.lookahead = some t) :
    (s.consume t).log.toList = first :: (ts ++ [t]).flatMap Token.events := by
  rw [HasLogged, hl] at h
  simp [consume, h, Token.events]

/-- **Consuming a token adds its two lines to the log.** -/
lemma expect (h : s.HasLogged first ts) (hexpect : Reading.expect k s = .ok t s') :
    s'.HasLogged first (ts ++ [t]) := by
  obtain ⟨hl, -, hadvance⟩ := expect_eq_ok_iff.mp hexpect
  have hlog := log_of_advance hadvance
  rw [h.log_consume hl] at hlog
  exact hlog

lemma lexical (h : s.HasLogged first ts) (hl : s.lookahead = some t)
    (hadvance : advance (s.consume t) = .error e s') : s'.HasLogged first (ts ++ [t]) := by
  obtain ⟨hlog, hnone⟩ := log_of_advance_error hadvance
  rw [HasLogged, hlog, hnone, h.log_consume hl]
  simp

/-- Tokens that are consumed one after the other are noted one after the other. -/
lemma consumes (h : s.HasLogged first ts) (hws : Consumes s ws s') :
    ∃ us : List Token, s.pending = us.map .ok ++ s'.pending ∧ s'.HasLogged first (ts ++ us) := by
  induction hws generalizing ts with
  | nil => exact ⟨[], rfl, by rwa [List.append_nil]⟩
  | @cons _ _ _ t _ hexpect _ ih =>
    obtain ⟨us, hpending, hlogged⟩ := ih (h.expect hexpect)
    refine ⟨t :: us, ?_, ?_⟩
    · rw [pending_of_expect hexpect, hpending, List.map_cons, List.cons_append]
    · rwa [List.append_assoc] at hlogged

end Session.HasLogged

/-! ## The lines of the log -/

/-- The line for a token that is scanned, with its kind, its text and its place. -/
def scannedLine (t : Token) : String :=
  "TRACE scanned " ++ t.kind.label ++ " (" ++ t.value ++ ")" ++ " at " ++
    toString t.span.start.offset

/-- The line for a token that is consumed, with its kind and its text. -/
def consumedLine (t : Token) : String :=
  "TRACE consumed " ++ t.kind.label ++ " (" ++ t.value ++ ")"

/-- The lines for a token that is scanned and then consumed. -/
def tokenLines (t : Token) : List String := [scannedLine t, consumedLine t]

/-- The line that opens the log. -/
def openingLine (source : String) (file : Option String) : String :=
  "DEBUG parsing " ++ toString (Text.bytes source) ++ " bytes from " ++ file.getD "shell"

/-- How the log of a parse with this result ends, where `ts` are the tokens of the source, `k` of them
were consumed, and `last` are the lines behind those of the consumed tokens. -/
def LogEnds (ts : List Token) (k : Nat) (last : List String) : Except Error Program → Prop
  | .ok p =>
    k = ts.length ∧ last = ["DEBUG parsed " ++ toString p.body.length ++ " top-level statements"]
  | .error e =>
    match e.cause with
    | .unexpected text _ =>
      ∃ t, ts[k]? = some t ∧ t.value = text ∧ t.span.start = e.position ∧ last = [scannedLine t]
    | .notAssignable =>
      (∃ t, (ts.take k).getLast? = some t ∧ t.span.start = e.position) ∧
        last = (ts[k]?.map scannedLine).toList
    | .tooLarge digits =>
      (∃ t, (ts.take k).getLast? = some t ∧ t.value = digits ∧ t.span.start = e.position) ∧
        last = (ts[k]?.map scannedLine).toList
    | .unrecognised _ | .endOfInput _ => k = ts.length ∧ last = []
    | .notLiteral _ => False

lemma line_scanned (t : Token) : (Event.scanned t).line = scannedLine t := by
  show _ = "TRACE scanned " ++ t.kind.label ++ " (" ++ t.value ++ ")" ++ " at " ++
    toString t.span.start.offset
  simp only [Event.line, Event.severity, Event.message, Token.describe_eq, ← String.append_assoc]
  rfl

lemma line_consumed (t : Token) : (Event.consumed t).line = consumedLine t := by
  show _ = "TRACE consumed " ++ t.kind.label ++ " (" ++ t.value ++ ")"
  simp only [Event.line, Event.severity, Event.message, Token.describe_eq, ← String.append_assoc]
  rfl

lemma lines_events (ts : List Token) :
    (ts.flatMap Token.events).map Event.line = ts.flatMap tokenLines := by
  rw [List.map_flatMap]
  simp only [Token.events, List.map_cons, List.map_nil, line_scanned, line_consumed]
  rfl

/-- The event that opens the log. -/
def openingEvent (source : String) (file : Option String) : Event :=
  .parsing (Text.bytes source) (file.getD defaultFile)

lemma line_openingEvent (source : String) (file : Option String) :
    (openingEvent source file).line = openingLine source file := by
  show _ = "DEBUG parsing " ++ toString (Text.bytes source) ++ " bytes from " ++ file.getD "shell"
  simp only [openingEvent, Event.line, Event.severity, Event.message, defaultFile,
    ← String.append_assoc]
  rfl

/-- The lines of a session's log. -/
lemma Session.HasLogged.lines (h : s.HasLogged (openingEvent source file) ts) :
    s.log.toList.map Event.line =
      openingLine source file :: ts.flatMap tokenLines ++
        (s.lookahead.map scannedLine).toList := by
  rw [h, List.map_append, List.map_cons, line_openingEvent, lines_events]
  cases s.lookahead with
  | none => rfl
  | some t => simp [line_scanned]

/-! ## The course of a parse -/

/-- All that a parse can come to, with the log it leaves. -/
inductive Course (source : String) (file : Option String) :
    Except Error Program → List Event → Prop
  /-- There is a lexical error before the first token. -/
  | unloaded {e : Error} {s : Session} (hload : load source (.start file) = .error e s) :
      Course source file (.error e) s.log.toList
  | refused {e : Error} {s s' : Session} (hload : load source (.start file) = .ok () s)
      (hprogram : program s.room s = .error e s') : Course source file (.error e) s'.log.toList
  | read {p : Program} {s s' : Session} (hload : load source (.start file) = .ok () s)
      (hprogram : program s.room s = .ok p s') :
      Course source file (.ok p) (s'.log.toList ++ [.parsed p.body.length])

lemma parse_course (source : String) (file : Option String) :
    Course source file (parse source file) (parseLog source file) := by
  rw [parse, parseLog]
  cases hload : load source (.start file) with
  | error e s =>
    have hrun : Reading.parse source (.start file) = .error e s := bind_of_error hload _
    rw [runOn_of_error hrun]
    exact .unloaded hload
  | ok u s =>
    cases hprogram : program s.room s with
    | error e s' =>
      have hroom : withRoom program s = .error e s' := hprogram
      have hrun : Reading.parse source (.start file) = .error e s' :=
        (bind_of_ok hload _).trans (bind_of_error hroom _)
      rw [runOn_of_error hrun]
      exact .refused hload hprogram
    | ok p s' =>
      have hroom : withRoom program s = .ok p s' := hprogram
      have hrun : Reading.parse source (.start file) =
          .ok p { s' with log := s'.log.push (.parsed p.body.length) } :=
        (bind_of_ok hload _).trans (bind_of_ok hroom _)
      rw [runOn_of_ok hrun]
      simpa using Course.read hload hprogram

/-- When a source is loaded, nothing is consumed and the first token is scanned. -/
lemma hasLogged_of_load (h : load source (.start file) = .ok () s) :
    s.HasLogged (openingEvent source file) [] :=
  log_of_advance h

/-- The log of a parse that has consumed the tokens `ts` and ends in the session `s`. -/
lemma exists_lines {items : List (Except Error Token)} {result : Except Error Program}
    {events : List Event} {last : List String}
    (hlogged : s.HasLogged (openingEvent source file) ts)
    (hscan : scan source file = ts.map .ok ++ items)
    (hevents : events.map Event.line = s.log.toList.map Event.line ++ last)
    (hends : LogEnds (ts ++ leadingTokens items) ts.length
      ((s.lookahead.map scannedLine).toList ++ last) result) :
    ∃ k last, k ≤ (scannedTokens source file).length ∧
      events.map Event.line = openingLine source file ::
        ((scannedTokens source file).take k).flatMap tokenLines ++ last ∧
      LogEnds (scannedTokens source file) k last result := by
  have htokens : scannedTokens source file = ts ++ leadingTokens items := by
    rw [← leadingTokens_append, ← hscan]
    rfl
  refine ⟨ts.length, _, ?_, ?_, htokens ▸ hends⟩
  · rw [htokens, List.length_append]
    exact Nat.le_add_right _ _
  · rw [hevents, hlogged.lines, htokens, List.take_left, List.append_assoc]

/-- With a lexical error all tokens are consumed, and nothing more is scanned. -/
lemma logEnds_of_lexical (ts : List Token) (hphase : e.cause.phase = .lexical) :
    LogEnds ts ts.length [] (.error e) := by
  unfold LogEnds
  dsimp only
  split <;> simp_all [Cause.phase]

/-- How the log ends where a demand is refused. -/
lemma exists_lines_of_refused {s₁ : Session} {d : Demand}
    (hload : load source (.start file) = .ok () s) (hws : Consumes s ws s₁)
    (hd : Refused d s₁ e s') :
    ∃ k last, k ≤ (scannedTokens source file).length ∧
      s'.log.toList.map Event.line = openingLine source file ::
        ((scannedTokens source file).take k).flatMap tokenLines ++ last ∧
      LogEnds (scannedTokens source file) k last (.error e) := by
  obtain ⟨ts, hpending, hlogged⟩ := (hasLogged_of_load hload).consumes hws
  have hscan : scan source file = ts.map .ok ++ s₁.pending :=
    (pending_of_load hload).symm.trans hpending
  rw [List.nil_append] at hlogged
  -- Where the token was consumed that is refused, it is the last one that was.
  have hbehind {t : Token} {items : List (Except Error Token)}
      (hpending : s₁.pending = .ok t :: items) :
      scan source file = (ts ++ [t]).map .ok ++ items := by
    rw [hscan, hpending]
    simp
  cases hd with
  | ended hl =>
    refine exists_lines hlogged hscan (List.append_nil _).symm ?_
    simp [LogEnds, hl, pending_eq_nil_iff.mpr hl, leadingTokens]
  | @mismatch t hl hk =>
    refine exists_lines hlogged hscan (List.append_nil _).symm ⟨t, ?_, rfl, rfl, ?_⟩
    · simp [Session.pending, hl, leadingTokens]
    · simp [hl]
  | @lexical t _ _ hl hk hadvance =>
    have hdrain : (s₁.cursor.drain s₁.file).1 = [.error e] :=
      drain_of_advance_error (s := s₁.consume t) hadvance
    have hpending : s₁.pending = [.ok t, .error e] := by
      simp [Session.pending, hl, hdrain]
    refine exists_lines (hlogged.lexical hl hadvance) (hbehind hpending)
      (List.append_nil _).symm ?_
    have hends := logEnds_of_lexical (ts ++ [t]) (phase_of_advance hadvance)
    simpa [leadingTokens, (log_of_advance_error hadvance).2] using hends
  | @late t c _ hexpect hc =>
    refine exists_lines (hlogged.expect hexpect) (hbehind (pending_of_expect hexpect))
      (List.append_nil _).symm ?_
    have hnext : (ts ++ [t] ++ leadingTokens s'.pending)[(ts ++ [t]).length]? = s'.lookahead := by
      rw [List.getElem?_append_right (Nat.le_refl _), Nat.sub_self, ← List.head?_eq_getElem?,
        head?_leadingTokens_pending]
    have hlast : ((ts ++ [t] ++ leadingTokens s'.pending).take (ts ++ [t]).length).getLast? =
        some t := by
      rw [List.take_left, List.getLast?_concat]
    cases d with
    | token => cases hc
    | finite =>
      obtain rfl := Option.some.inj hc
      exact ⟨⟨t, hlast, rfl, rfl⟩, by rw [hnext, List.append_nil]⟩
    | assignable =>
      obtain rfl := Option.some.inj hc
      exact ⟨⟨t, hlast, rfl⟩, by rw [hnext, List.append_nil]⟩

/-- **The log shows one token of lookahead.**  Behind the opening line it has two lines for each of
the first `k` tokens of the source in turn, that the token was scanned and that it was consumed.
If the source is parsed, these are all its tokens, and the last line counts the statements.  If not,
there is at most one more line, for a token that was scanned but not consumed: the unexpected one;
or the one behind a token that was found unfit, where there is one; whereas at a lexical error and
at the end of the source all tokens are consumed. -/
theorem parseLog_lines (source : String) (file : Option String) :
    ∃ k last, k ≤ (scannedTokens source file).length ∧
      (parseLog source file).map Event.line = openingLine source file ::
        ((scannedTokens source file).take k).flatMap tokenLines ++ last ∧
      LogEnds (scannedTokens source file) k last (parse source file) := by
  have hcourse := parse_course source file
  generalize parse source file = result, parseLog source file = events at hcourse
  cases hcourse with
  | @unloaded e s hload =>
    obtain ⟨hlog, hl⟩ := log_of_advance_error hload
    have hlogged : s.HasLogged (openingEvent source file) [] := by
      rw [Session.HasLogged, hlog, hl]
      rfl
    have hscan : scan source file = [].map .ok ++ [.error e] := drain_of_advance_error hload
    refine exists_lines hlogged hscan (List.append_nil _).symm ?_
    simpa [hl, leadingTokens] using logEnds_of_lexical [] (phase_of_advance hload)
  | @refused e s s' hload hprogram =>
    obtain ⟨ws, s₁, d, hws, hd, -⟩ := program_fails s.room s.kind? s e s' rfl hprogram
    exact exists_lines_of_refused hload hws hd
  | @read p s s' hload hprogram =>
    obtain ⟨ws, hws, -⟩ := program_sound s.room s p s' hprogram
    have hl := program_stops (Nat.le_refl s.room) hprogram
    obtain ⟨ts, hscan, hlogged⟩ := (hasLogged_of_load hload).consumes hws
    rw [pending_of_load hload, pending_eq_nil_iff.mpr hl] at hscan
    have hparsed : (Event.parsed p.body.length).line =
        "DEBUG parsed " ++ toString p.body.length ++ " top-level statements" := by
      simp only [Event.line, Event.severity, Event.message, ← String.append_assoc]
      rfl
    refine exists_lines hlogged hscan List.map_append ?_
    simp [LogEnds, hl, leadingTokens, hparsed]

end Scriptlet
