/-
# Errors that are overtaken

Where no program begins with the tokens before a lexical error, one of these tokens is impossible,
and the error to report is at this token.  The parse reports it, unless the token is the last one
before the lexical error and is judged only after it is consumed: to consume it is to scan what
stands behind it, so the lexical error comes first.

What the parse would have reported is seen from the source that is cut off in front of the lexical
error.  Either its tokens can be completed to a program, or one of them is refused in every source
with the same words up to it, and so in the uncut one.
-/
import Scriptlet.Proofs.Grammar.FirstError
import Scriptlet.Proofs.Token.Join

namespace Scriptlet

open Reading Grammar

variable {source source' : String} {file file' : Option String} {e : Error} {ts us : List Token}

/-! ## Tokens that begin no program -/

/-- The error of a cause that is found in one of the tokens before a lexical error. -/
lemma Cause.errorAt_tokens (c : Cause) (t : Token) (rest : List Token) (e : Error) :
    c.errorAt t (rest.map .ok ++ [.error e]) =
      if c.isLate ∧ rest = [] then e else ⟨c, t.span.start⟩ := by
  cases rest with
  | nil => simp [errorAt]
  | cons u rest => simp [errorAt]

/-- What a source without lexical errors fails at: its tokens lack only a completion by fillers, or
one of them is refused in every source with the same words up to it. -/
lemma ended_or_misplaced (h : parse source file = .error e)
    (hscan : scan source file = ts.map .ok) :
    ((∃ wanted, e.cause = .endOfInput wanted) ∧
      ∃ ws p, ws ⊆ fillers ∧ DerivesProgram (ts.map Token.word ++ ws) p) ∨
    ∃ init t rest, ts = init ++ t :: rest ∧ e.cause.phase = .syntactic ∧
      e.position = t.span.start ∧
      ∀ source' file' (init' : List Token) t' items,
        scan source' file' = init'.map .ok ++ .ok t' :: items →
        init'.map Token.word = init.map Token.word → t'.word = t.word →
        parse source' file' = .error (e.cause.errorAt t' items) := by
  have hok : .error e ∉ scan source file := by simp [hscan]
  rcases parse_eq_error_iff_program.mp h with ⟨s, hload⟩ | ⟨s, s', hload, hprogram⟩
  · have hlexical : scan source file = [.error e] := drain_of_advance_error hload
    exact absurd (by simp [hlexical]) hok
  obtain ⟨ws, s₂, d, hws, hd, hcompletion⟩ := program_fails s.room s.kind? s e s' rfl hprogram
  cases fault_of_refused hload hws hd with
  | lexical hlexical => exact absurd (by simp [hlexical]) hok
  | @ended ts' wanted hscan' hts he =>
    subst he
    obtain rfl : ts' = ts :=
      (List.map_inj_right fun _ _ => Except.ok.inj).mp (hscan'.symm.trans hscan)
    obtain ⟨us, p, hus, -, hp⟩ := hcompletion rfl
    exact .inl ⟨⟨wanted, rfl⟩, us, p, hus, hts ▸ hp⟩
  | @misplaced init t items hscan' hts hphase _ hposition =>
    -- The place of the token in the scan is its place among `ts`.
    obtain ⟨init', tail, rfl, hinit, htail⟩ := List.map_eq_append_iff.mp (hscan.symm.trans hscan')
    obtain ⟨u, rest, rfl, hu, -⟩ := List.map_eq_cons_iff.mp htail
    obtain rfl := (List.map_inj_right fun _ _ => Except.ok.inj).mp hinit
    obtain rfl := Except.ok.inj hu
    refine .inr ⟨_, _, rest, rfl, hphase, hposition, ?_⟩
    intro source' file' init' t' items' hscan₁ hinit' ht'
    refine parse_elsewhere hprogram hws hd hphase hscan₁ (hinit'.trans hts) ?_
    rw [ht']
    exact word?_of_scan hload hws hscan' hts

/-- **No program begins with the words of a source that fails**, other than at its end. -/
lemma not_prefix_of_parse_error (h : parse source file = .error e)
    (hscan : scan source file = ts.map .ok) (hcause : ∀ wanted, e.cause ≠ .endOfInput wanted)
    {p : Program} (hparse : parse source' file' = .ok p)
    (hus : tokenize source' file' = .ok us) : ¬ts.map Token.word <+: us.map Token.word := by
  intro hbegins
  rcases ended_or_misplaced h hscan with
    ⟨⟨wanted, hwanted⟩, -⟩ | ⟨init, t, rest, rfl, -, -, helsewhere⟩
  · exact hcause wanted hwanted
  obtain ⟨ws, hws⟩ := hbegins
  rw [List.map_append, List.map_cons, List.append_assoc, List.cons_append] at hws
  obtain ⟨init', tail, rfl, hinit', htail⟩ := List.map_eq_append_iff.mp hws.symm
  obtain ⟨t', rest', rfl, ht', -⟩ := List.map_eq_cons_iff.mp htail
  have hscan' : scan source' file' = init'.map .ok ++ .ok t' :: rest'.map .ok := by
    rw [scan, tokenize_eq_ok_iff.mp hus, List.map_append, List.map_cons]
  rw [helsewhere source' file' init' t' _ hscan' hinit' ht'] at hparse
  cases hparse

/-- Tokens that lack only a completion by fillers begin a source that is parsed, if any text that
begins with a blank may be written behind them. -/
lemma exists_parse_of_fillers {pre : List Char} {ws : List Word} {p : Program}
    (hpre : ∀ text, (∀ c, text.head? = some c → Text.isBlank c) →
      scan (String.ofList (pre ++ text)) file = ts.map .ok ++
        ((⟨Text.size pre, text⟩ : Cursor).drain (file.getD defaultFile)).1)
    (hws : ws ⊆ fillers) (hp : DerivesProgram (ts.map Token.word ++ ws) p) :
    ∃ source us, parse source file = .ok p ∧ tokenize source file = .ok us ∧ ts <+: us := by
  obtain ⟨text, hblank, htext⟩ := exists_scans_fillers hws
  obtain ⟨us, hus, rfl⟩ := exists_drain_of_scans (c := ⟨Text.size pre, text⟩)
    (file.getD defaultFile) htext
  have hscan := hpre text hblank
  rw [hus, ← List.map_append] at hscan
  have htokens := tokenize_eq_ok_iff.mpr hscan
  refine ⟨_, ts ++ us, parse_of_derives ?_ hp, htokens, List.prefix_append ts us⟩
  exact exists_tokenize_iff_scans.mp ⟨_, htokens, List.map_append⟩

/-! ## The error that is reported -/

/-- **The first error wins, unless it is overtaken.**  If a scan fails behind tokens with which no
source begins that is parsed, then one of these tokens is impossible: the source that is cut off in
front of the lexical error fails at it.  The parse of the whole source fails there for the same
cause, unless the cause is found only after the token is consumed and the lexical error is directly
behind it. -/
theorem first_error_unless_overtaken (source : String) (file : Option String) (ts : List Token)
    (e : Error) (hscan : scan source file = ts.map .ok ++ [.error e])
    (hts : ∀ source' p us, parse source' file = .ok p → tokenize source' file = .ok us →
      ¬ts <+: us) :
    ∃ pre c init t rest, Text.upTo? e.position.offset source.toList = some pre ∧
      ts = init ++ t :: rest ∧ c.phase = .syntactic ∧
      parse (String.ofList pre) file = .error ⟨c, t.span.start⟩ ∧
      parse source file =
        .error (if c.isLate ∧ rest = [] then e else ⟨c, t.span.start⟩) := by
  obtain ⟨pre, post, hrest, hoffset, hcut⟩ := Cursor.exists_cut_error hscan
  have hcut' (text : List Char) (htext : ∀ c, text.head? = some c → Text.isBlank c) :
      scan (String.ofList (pre ++ text)) file = ts.map .ok ++
        ((⟨Text.size pre, text⟩ : Cursor).drain (file.getD defaultFile)).1 := by
    simpa [scan, Cursor.start] using hcut text htext
  have hpre : scan (String.ofList pre) file = ts.map .ok := by
    simpa [Cursor.drain_of_rest_nil] using hcut' [] (by simp)
  have hupTo : Text.upTo? e.position.offset source.toList = some pre :=
    Text.upTo?_eq_some_iff.mpr ⟨post, hrest, by simpa [Cursor.start] using hoffset⟩
  -- The cut-off source holds just the tokens `ts`, and it cannot fail for want of another one.
  cases hparse : parse (String.ofList pre) file with
  | ok p => exact absurd (List.prefix_refl ts) (hts _ p ts hparse (tokenize_eq_ok_iff.mpr hpre))
  | error e' =>
    rcases ended_or_misplaced hparse hpre with
      ⟨-, ws, p, hws, hp⟩ | ⟨init, t, rest, rfl, hphase, hposition, helsewhere⟩
    · obtain ⟨source', us, hparse', hus, hbegins⟩ := exists_parse_of_fillers hcut' hws hp
      exact absurd hbegins (hts source' p us hparse' hus)
    · have hscan' : scan source file = init.map .ok ++ .ok t :: (rest.map .ok ++ [.error e]) := by
        simpa using hscan
      have herror := helsewhere source file init t _ hscan' rfl rfl
      rw [Cause.errorAt_tokens] at herror
      refine ⟨pre, e'.cause, init, t, rest, hupTo, rfl, hphase, ?_, herror⟩
      rw [hparse, ← hposition]

/-- In `null = a @` the operator is refused after it is consumed, and this is reported: what is
directly behind it is a name. -/
theorem first_error_unless_overtaken_assignment :
    scan "null = a @" none =
      (scannedTokens "null = a @" none).map .ok ++ [.error ⟨.unrecognised "@", ⟨9, "shell"⟩⟩] ∧
    (∃ pre c init t rest, Text.upTo? 9 "null = a @".toList = some pre ∧
      scannedTokens "null = a @" none = init ++ t :: rest ∧ c.phase = .syntactic ∧
      parse (String.ofList pre) none = .error ⟨c, t.span.start⟩ ∧
      parse "null = a @" none = .error
        (if c.isLate ∧ rest = [] then ⟨.unrecognised "@", ⟨9, "shell"⟩⟩ else ⟨c, t.span.start⟩)) ∧
    parse "null = a @" none = .error ⟨.notAssignable, ⟨5, "shell"⟩⟩ := by
  have hscan : scan "null = a @" none =
      (scannedTokens "null = a @" none).map .ok ++
        [.error ⟨.unrecognised "@", ⟨9, "shell"⟩⟩] := by cbv
  have hcut : parse "null = a" none = .error ⟨.notAssignable, ⟨5, "shell"⟩⟩ := by cbv
  have htokens : scan "null = a" none = (scannedTokens "null = a @" none).map .ok := by cbv
  refine ⟨hscan, first_error_unless_overtaken _ none _ _ hscan ?_, by cbv⟩
  intro source' p us hparse hus hbegins
  exact not_prefix_of_parse_error hcut htokens (by simp) hparse hus (hbegins.map Token.word)

/-- In `null = @` the operator is refused after it is consumed, and this is not reported: the
lexical error directly behind it comes first, although no program begins with `null =`. -/
theorem first_error_overtaken :
    scan "null = @" none =
      [.ok ⟨.nullWord, "null", ⟨⟨0, "shell"⟩, ⟨4, "shell"⟩⟩⟩,
        .ok ⟨.simpleAssign, "=", ⟨⟨5, "shell"⟩, ⟨6, "shell"⟩⟩⟩,
        .error ⟨.unrecognised "@", ⟨7, "shell"⟩⟩] ∧
    (∀ source file p us, parse source file = .ok p → tokenize source file = .ok us →
      ¬[⟨.nullWord, "null"⟩, ⟨.simpleAssign, "="⟩] <+: us.map Token.word) ∧
    parse "null = @" none = .error ⟨.unrecognised "@", ⟨7, "shell"⟩⟩ := by
  have hcut : parse "null =" none = .error ⟨.notAssignable, ⟨5, "shell"⟩⟩ := by cbv
  have htokens : scan "null =" none =
      [⟨.nullWord, "null", ⟨⟨0, "shell"⟩, ⟨4, "shell"⟩⟩⟩,
        ⟨.simpleAssign, "=", ⟨⟨5, "shell"⟩, ⟨6, "shell"⟩⟩⟩].map .ok := by cbv
  refine ⟨by cbv, ?_, by cbv⟩
  intro source file p us hparse hus
  exact not_prefix_of_parse_error hcut htokens (by simp) hparse hus

end Scriptlet
