/-
# Errors and the scan of the source

A parse scans a source token by token and stops at its first error, whereas `tokenize` scans all of
it.  Here the error of a parse is located in the scan of the whole source (`Fault`): it is the
lexical error at the end of the scan, the source ends where a token was wanted, or it is at one of
the tokens.  That the two ways of scanning agree on their errors follows, since all tokens come
before the lexical error.
-/
import Scriptlet.Proofs.Grammar.Acceptance
import Scriptlet.Proofs.Grammar.Coherence

namespace Scriptlet

open Reading Grammar

variable {source : String} {file : Option String} {e : Error} {s s' : Session} {ws : List Word}

/-- All that a source holds: its tokens, and an error behind them if there is one. -/
def scan (source : String) (file : Option String) : List (Except Error Token) :=
  ((Cursor.start source.toList).drain (file.getD defaultFile)).1

/-! ## The end of a scan -/

namespace Reading

/-- Behind a lexical error nothing more is scanned. -/
lemma drain_of_advance_error (h : advance s = .error e s') :
    (s.cursor.drain s.file).1 = [.error e] := by
  obtain ⟨cursor, hnext, -⟩ := advance_eq_error_iff.mp h
  obtain ⟨rfl, -⟩ := Cursor.refusal_of_next hnext
  rw [Cursor.drain_of_next_some hnext, Cursor.drain_of_rest_nil rfl]

lemma source_of_advance {u : Unit} (h : advance s = .ok u s') : s'.source = s.source := by
  obtain ⟨t?, cursor, -, rfl⟩ := advance_eq_ok_iff.mp h
  rfl

lemma Consumes.source_eq (h : Consumes s ws s') : s'.source = s.source := by
  induction h with
  | nil => rfl
  | cons hexpect _ ih =>
    obtain ⟨-, -, hadvance⟩ := expect_eq_ok_iff.mp hexpect
    rw [ih, source_of_advance hadvance, Session.consume_source]

/-- The lookahead is the next token of the scan. -/
lemma head?_leadingTokens_pending (s : Session) :
    (leadingTokens s.pending).head? = s.lookahead := by
  cases hl : s.lookahead <;> simp [Session.pending, hl, leadingTokens]

/-- Where a loaded source is read to its end, the position is the end of the source. -/
lemma position_of_load {s₁ : Session} (hload : load source (.start file) = .ok () s)
    (hws : Consumes s ws s₁) (hl : s₁.lookahead = none) :
    s₁.position = ⟨Text.bytes source, file.getD defaultFile⟩ := by
  have hcoherent : s.Coherent (file.getD defaultFile) := by
    have hloaded := coherent_load (s := .start file) source rfl
    rwa [runOn_of_ok hload] at hloaded
  have hcoherent₁ := (hcoherent.reaches hws.reaches).1
  have hsource : s₁.source = source := hws.source_eq.trans (source_of_advance hload)
  rw [Session.position, hl]
  simp only [hcoherent₁.ended hl, hcoherent₁.file_eq, hsource]

end Reading

/-! ## Faults -/

/-- Where in the scan of a source an error is that comes up behind the words `ws`. -/
inductive Fault (source : String) (file : Option String) (ws : List Word) (e : Error) : Prop
  /-- It ends the scan. -/
  | lexical {ts : List Token} (hscan : scan source file = ts.map .ok ++ [.error e])
      (hphase : e.cause.phase = .lexical)
  /-- It is the end of the source, right behind the words. -/
  | ended {ts : List Token} {wanted : String} (hscan : scan source file = ts.map .ok)
      (hts : ts.map Token.word = ws)
      (he : e = ⟨.endOfInput wanted, ⟨Text.bytes source, file.getD defaultFile⟩⟩)
  /-- It is at the token right behind the words. -/
  | misplaced {ts : List Token} {t : Token} {items : List (Except Error Token)}
      (hscan : scan source file = ts.map .ok ++ .ok t :: items) (hts : ts.map Token.word = ws)
      (hphase : e.cause.phase = .syntactic) (hcause : ∀ wanted, e.cause ≠ .endOfInput wanted)
      (hposition : e.position = t.span.start)

/-- A demand that is refused behind the words `ws` is a fault there. -/
lemma fault_of_refused {s₁ : Session} {d : Demand}
    (hload : load source (.start file) = .ok () s) (hws : Consumes s ws s₁)
    (hd : Refused d s₁ e s') : Fault source file ws e := by
  obtain ⟨ts, hts, hpending⟩ := hws.exists_pending_eq
  rw [pending_of_load hload] at hpending
  -- The lookahead is the item of the scan behind the words.
  have hscan {t : Token} (hl : s₁.lookahead = some t) :
      scan source file = ts.map .ok ++ .ok t :: (s₁.cursor.drain s₁.file).1 := by
    rw [Session.pending, hl] at hpending
    exact hpending
  cases hd with
  | ended hl =>
    rw [pending_eq_nil_iff.mpr hl, List.append_nil] at hpending
    exact .ended hpending hts (by rw [position_of_load hload hws hl])
  | mismatch hl hk => exact .misplaced (hscan hl) hts rfl (by simp) rfl
  | @lexical t _ _ hl hk hadvance =>
    have hdrain : (s₁.cursor.drain s₁.file).1 = [.error e] :=
      drain_of_advance_error (s := s₁.consume t) hadvance
    have hlast : scan source file = (ts ++ [t]).map .ok ++ [.error e] := by
      rw [hscan hl, hdrain]
      simp
    exact .lexical hlast (phase_of_advance hadvance)
  | late hexpect hc =>
    obtain ⟨hl, -, -⟩ := expect_eq_ok_iff.mp hexpect
    cases d with
    | token => cases hc
    | finite | assignable =>
      obtain rfl := Option.some.inj hc
      exact .misplaced (hscan hl) hts rfl (by simp) rfl

/-- A parse fails if the source cannot be loaded or no program is read. -/
lemma parse_eq_error_iff_program :
    parse source file = .error e ↔ (∃ s, load source (.start file) = .error e s) ∨
      ∃ s s', load source (.start file) = .ok () s ∧ program s.room s = .error e s' := by
  have herror : parse source file = .error e ↔
      ∃ s', Reading.parse source (.start file) = .error e s' := by
    rw [parse, runOn]
    cases Reading.parse source (.start file) <;> simp
  rw [herror]
  constructor
  · rintro ⟨s', h⟩
    rcases bind_eq_error.mp h with hload | ⟨u, s, hload, h⟩
    · exact .inl ⟨s', hload⟩
    · rcases bind_eq_error.mp h with hprogram | ⟨p, s₁, -, h⟩
      · exact .inr ⟨s, s', hload, hprogram⟩
      · cases h
  · rintro (⟨s, hload⟩ | ⟨s, s', hload, hprogram⟩)
    · exact ⟨s, bind_of_error hload _⟩
    · have hroom : withRoom program s = .error e s' := hprogram
      exact ⟨s', (bind_of_ok hload _).trans (bind_of_error hroom _)⟩

/-- **Every error of a parse is a fault of the source**, and unless it is lexical, the words before
it are completed to a program by fillers that meet what the error asks for. -/
theorem exists_fault_of_parse (h : parse source file = .error e) :
    ∃ ws, Fault source file ws e ∧ (e.cause.phase = .syntactic →
      ∃ us p, us ⊆ fillers ∧ e.cause.MetBy us ∧ DerivesProgram (ws ++ us) p) := by
  rcases parse_eq_error_iff_program.mp h with ⟨s, hload⟩ | ⟨s, s', hload, hprogram⟩
  · have hscan : scan source file = [].map .ok ++ [.error e] := drain_of_advance_error hload
    have hphase := phase_of_advance hload
    refine ⟨[], .lexical hscan hphase, fun hsyntactic => ?_⟩
    rw [hphase] at hsyntactic
    cases hsyntactic
  · obtain ⟨ws, s₁, d, hws, hd, hsyntactic⟩ := program_fails s.room s.kind? s e s' rfl hprogram
    exact ⟨ws, fault_of_refused hload hws hd, hsyntactic⟩

/-- A parse that misses a token where the source ends fails at its end. -/
lemma position_of_endOfInput {wanted : String} (h : parse source file = .error e)
    (hcause : e.cause = .endOfInput wanted) :
    e.position = ⟨Text.bytes source, file.getD defaultFile⟩ := by
  obtain ⟨ws, hfault, -⟩ := exists_fault_of_parse h
  cases hfault with
  | lexical _ hphase =>
    rw [hcause] at hphase
    cases hphase
  | ended _ _ he => rw [he]
  | misplaced _ _ _ hmisplaced => exact absurd hcause (hmisplaced wanted)

/-! ## Agreement with the scan -/

lemma tokenize_of_scan_error {ts : List Token}
    (h : scan source file = ts.map .ok ++ [.error e]) : tokenize source file = .error e := by
  rw [tokenize, ← scan, h]
  exact mapM_id_append_error ts e []

lemma Tiled.le {name : String} {a b : Nat} {ts : List Token} (h : Tiled source name a ts b) :
    a ≤ b := by
  induction ts generalizing a with
  | nil => exact BlankBetween.le h
  | cons t ts ih =>
    obtain ⟨hblank, ht, hts⟩ := h
    calc
      a ≤ t.span.start.offset := hblank.le
      _ ≤ t.span.stop.offset := Nat.le_of_lt ht.start_lt_stop
      _ ≤ b := ih hts

/-- Tokens that tile a source up to a byte all begin before it. -/
lemma Tiled.start_lt {name : String} {a b : Nat} {ts : List Token}
    (h : Tiled source name a ts b) : ∀ t ∈ ts, t.span.start.offset < b := by
  induction ts generalizing a with
  | nil => simp
  | cons t ts ih =>
    obtain ⟨-, ht, hts⟩ := h
    exact List.forall_mem_cons.mpr ⟨Nat.lt_of_lt_of_le ht.start_lt_stop hts.le, ih hts⟩

/-- The error that a scan fails with is behind all of its tokens. -/
lemma scan_of_tokenize_error (h : tokenize source file = .error e) :
    ∃ ts : List Token, scan source file = ts.map .ok ++ [.error e] ∧
      ∀ t ∈ ts, t.span.start.offset < e.position.offset := by
  have hscan := Cursor.tiles_drain (file.getD defaultFile) _ (Cursor.isAt_start source)
  cases hscan with
  | whole hitems _ =>
    rw [tokenize_eq_ok_iff.mpr hitems] at h
    cases h
  | upTo e' hitems _ htiled =>
    have htokenize := tokenize_of_scan_error hitems
    rw [h] at htokenize
    obtain rfl := Except.error.inj htokenize
    exact ⟨_, hitems, htiled.start_lt⟩

/-- A source is not parsed unless all of it is scanned. -/
lemma exists_tokenize_of_parse {p : Program} (h : parse source file = .ok p) :
    ∃ ts, tokenize source file = .ok ts := by
  obtain ⟨ws, hscans, -⟩ := parse_eq_ok_iff_scans.mp h
  obtain ⟨ts, hts, -⟩ := exists_tokenize_iff_scans.mpr hscans
  exact ⟨ts, hts⟩

lemma tokenize_of_lexical (h : parse source file = .error e) (hphase : e.cause.phase = .lexical) :
    tokenize source file = .error e := by
  obtain ⟨ws, hfault, -⟩ := exists_fault_of_parse h
  cases hfault with
  | lexical hscan _ => exact tokenize_of_scan_error hscan
  | ended _ _ he =>
    rw [he] at hphase
    cases hphase
  | misplaced _ _ hsyntactic =>
    rw [hsyntactic] at hphase
    cases hphase

lemma parse_of_tokenize_error (h : tokenize source file = .error e) :
    ∃ e', parse source file = .error e' ∧ (e' = e ∨ e'.cause.phase = .syntactic ∧
      (∀ wanted, e'.cause ≠ .endOfInput wanted) ∧ e'.position.offset < e.position.offset) := by
  obtain ⟨ts, hts, hlt⟩ := scan_of_tokenize_error h
  cases hparse : parse source file with
  | ok p =>
    obtain ⟨ts', hts'⟩ := exists_tokenize_of_parse hparse
    rw [h] at hts'
    cases hts'
  | error e' =>
    refine ⟨e', rfl, ?_⟩
    obtain ⟨ws, hfault, -⟩ := exists_fault_of_parse hparse
    cases hfault with
    | lexical hscan _ =>
      rw [tokenize_of_scan_error hscan] at h
      exact .inl (Except.error.inj h)
    | ended hscan _ _ =>
      rw [tokenize_eq_ok_iff.mpr hscan] at h
      cases h
    | @misplaced us t items hscan _ hphase hcause hposition =>
      refine .inr ⟨hphase, hcause, ?_⟩
      -- The token is not the error that ends the scan, so it is one of those before it.
      have hmem : Except.ok t ∈ ts.map Except.ok ++ [Except.error e] := by
        rw [← hts, hscan]
        simp
      rw [hposition]
      exact hlt t (by simpa using hmem)

/-- **Parsing and scanning agree on errors.**  A parse fails with a lexical error only if the scan
of the source fails with the very same one.  If the scan of the source fails, the parse fails with
the same error or with a syntax error at a token before it.  If the scan succeeds, the parse
succeeds or fails with a syntax error. -/
theorem parse_agrees_with_tokenize (source : String) (file : Option String) :
    (∀ e, parse source file = .error e → e.cause.phase = .lexical →
      tokenize source file = .error e) ∧
    (∀ e, tokenize source file = .error e → ∃ e', parse source file = .error e' ∧
      (e' = e ∨ e'.cause.phase = .syntactic ∧ (∀ wanted, e'.cause ≠ .endOfInput wanted) ∧
        e'.position.offset < e.position.offset)) ∧
    (∀ ts, tokenize source file = .ok ts → (∃ p, parse source file = .ok p) ∨
      ∃ e, parse source file = .error e ∧ e.cause.phase = .syntactic) := by
  refine ⟨fun e => tokenize_of_lexical, fun e => parse_of_tokenize_error, fun ts hts => ?_⟩
  cases hparse : parse source file with
  | ok p => exact .inl ⟨p, rfl⟩
  | error e =>
    refine .inr ⟨e, rfl, ?_⟩
    cases hphase : e.cause.phase with
    | syntactic => rfl
    | lexical =>
      rw [tokenize_of_lexical hparse hphase] at hts
      cases hts

/-- The character `#` begins no token.  It is the error of a parse that gets there, and of a scan
also where the parse has failed before.  Without it only the grammar can be at fault. -/
theorem parse_agrees_with_tokenize_hash :
    (parse "a #" none = .error ⟨.unrecognised "#", ⟨2, "shell"⟩⟩ ∧
      tokenize "a #" none = .error ⟨.unrecognised "#", ⟨2, "shell"⟩⟩) ∧
    (tokenize "a b #" none = .error ⟨.unrecognised "#", ⟨4, "shell"⟩⟩ ∧
      ∃ e', parse "a b #" none = .error e' ∧ (e' = ⟨.unrecognised "#", ⟨4, "shell"⟩⟩ ∨
        e'.cause.phase = .syntactic ∧ (∀ wanted, e'.cause ≠ .endOfInput wanted) ∧
          e'.position.offset < 4)) ∧
    (tokenize "a" none = .ok [⟨.identifier, "a", ⟨⟨0, "shell"⟩, ⟨1, "shell"⟩⟩⟩] ∧
      ((∃ p, parse "a" none = .ok p) ∨
        ∃ e, parse "a" none = .error e ∧ e.cause.phase = .syntactic)) := by
  have hlexical : parse "a #" none = .error ⟨.unrecognised "#", ⟨2, "shell"⟩⟩ := by cbv
  have hscan : tokenize "a b #" none = .error ⟨.unrecognised "#", ⟨4, "shell"⟩⟩ := by cbv
  have hname : tokenize "a" none =
      .ok [⟨.identifier, "a", ⟨⟨0, "shell"⟩, ⟨1, "shell"⟩⟩⟩] := by cbv
  exact ⟨⟨hlexical, (parse_agrees_with_tokenize _ _).1 _ hlexical rfl⟩,
    ⟨hscan, (parse_agrees_with_tokenize _ _).2.1 _ hscan⟩,
    ⟨hname, (parse_agrees_with_tokenize _ _).2.2 _ hname⟩⟩

end Scriptlet
