/-
# Programs one behind the other

A program ends with a semicolon or a closing bracket, or it is empty.  Neither of the two marks goes
on into what stands behind it, and so behind a complete program a source is scanned as if it began
there.  The grammar begins anew there as well, except that an `else` may belong to an `if` of the
program before.

It follows that complete programs may be written one behind the other or between curly brackets, and
that the error of a source stays the same behind a complete program.
-/
import Scriptlet.Proofs.Grammar.FirstError
import Scriptlet.Proofs.Grammar.Parallel
import Scriptlet.Proofs.Token.Join

namespace Scriptlet

open Reading Grammar

variable {source source' : String} {file : Option String} {p q : Program} {e e' : Error}
  {s s' s₁ : Session} {ws us : List Word} {ts : List Token}

/-! ## Behind a complete program -/

/-- A mark that ends a statement is read the same whatever stands behind it. -/
lemma lexeme?_of_endsStmt {w : Word} (hw : endsStmt w.kind) (hspells : w.kind.Spells w.text)
    (cs : List Char) : lexeme? (w.text.toList ++ cs) = some ⟨w.kind, w.text.toList, cs⟩ := by
  obtain ⟨k, o⟩ := w
  cases k with
  | semicolon | closeCurly =>
    obtain rfl := List.mem_singleton.mp hspells
    rfl
  | _ => cases hw

/-- The scan of a text of a program goes on into the text behind it. -/
lemma drain_behind_program {name : String} {c : Cursor} (h : (c.drain name).1 = ts.map .ok)
    (hp : DerivesProgram (ts.map Token.word) p) (cs : List Char) :
    ((⟨c.offset, c.rest ++ cs⟩ : Cursor).drain name).1 =
      ts.map .ok ++ ((⟨c.offset + Text.size c.rest, cs⟩ : Cursor).drain name).1 := by
  refine Cursor.drain_append h fun t ht => ?_
  have hlast : (ts.map Token.word).getLast? = some t.word := by rw [List.getLast?_map, ht]; rfl
  exact lexeme?_of_endsStmt (DerivesBody.ends hp hlast)
    ((scans_of_drain h).spells _ (List.mem_of_getLast? hlast)) cs

/-- Behind the words of a program come the words of the text behind it. -/
lemma Scans.append_of_derives {cs ds : List Char} (hws : Scans cs ws) (hp : DerivesProgram ws p)
    (hus : Scans ds us) : Scans (cs ++ ds) (ws ++ us) := by
  obtain ⟨ts, hts, rfl⟩ := exists_drain_of_scans (c := ⟨0, cs⟩) defaultFile hws
  obtain ⟨vs, hvs, rfl⟩ := exists_drain_of_scans (c := ⟨0 + Text.size cs, ds⟩) defaultFile hus
  have hdrain := drain_behind_program hts hp ds
  rw [hvs, ← List.map_append] at hdrain
  rw [← List.map_append]
  exact scans_of_drain hdrain

/-- **Behind a complete program a source is scanned as if it began there.** -/
theorem scan_behind_program (h : parse source file = .ok p) (source' : String) :
    ∃ ts : List Token, scan source file = ts.map .ok ∧ DerivesProgram (ts.map Token.word) p ∧
      scan (source ++ source') file =
        ts.map .ok ++ (scan source' file).map (shiftItem (Text.bytes source)) := by
  obtain ⟨ws, hscans, hp⟩ := derives_of_parse h
  obtain ⟨ts, hts, rfl⟩ :=
    exists_drain_of_scans (c := .start source.toList) (file.getD defaultFile) hscans
  have hdrain := drain_behind_program hts hp source'.toList
  have hshift := Cursor.drain_shift (file.getD defaultFile) (Text.bytes source)
    (.start source'.toList)
  refine ⟨ts, hts, hp, ?_⟩
  rw [scan, scan, String.toList_append, ← hshift]
  exact hdrain

/-! ## A program in front of an error -/

/-- What has been read before does not matter to where a repetition of statements fails. -/
lemma repeatWhile_error_of_error {more : Option Kind → Bool} {inner : Reading Stmt} {m : Nat}
    {acc : Array Stmt} (acc' : Array Stmt)
    (h : repeatWhile more (fun body => do return body.push (← inner)) m acc s = .error e s') :
    repeatWhile more (fun body => do return body.push (← inner)) m acc' s = .error e s' := by
  induction m generalizing acc acc' s with
  | zero => cases h
  | succ m ih =>
    cases hmore : more s.kind? with
    | false =>
      rw [repeatWhile_of_not hmore] at h
      cases h
    | true =>
      rw [repeatWhile, peek_bind, hmore] at h
      rcases bind_eq_error.mp h with h | ⟨body, s₁, hbody, h⟩
      · rw [repeatWhile, peek_bind, hmore]
        rcases bind_eq_error.mp h with h | ⟨_, _, _, h⟩
        · exact bind_of_error (bind_of_error h _) _
        · cases h
      · obtain ⟨st, s₂, hst, hbody⟩ := bind_eq_ok.mp hbody
        obtain ⟨-, rfl⟩ := pure_eq_ok.mp hbody
        rw [repeatWhile_of_more hmore (bind_of_ok hst _)]
        exact ih _ h

/-- Behind the words of a program, a program fails as it does without them. -/
lemma program_error_behind {n : Nat} (hp : DerivesProgram ws p) (hws : Consumes s ws s₁)
    (helse : s₁.kind? ≠ some .elseWord) (hroom : s.room ≤ n)
    (h : program n s₁ = .error e s') : program n s = .error e s' := by
  have hloop : repeatWhile (fun k => k.isSome && k != none) (fun body => do
      return body.push (← statement n)) n #[] s₁ = .error e s' := by
    rcases bind_eq_error.mp h with h | ⟨_, _, _, h⟩
    · rcases bind_eq_error.mp h with h | ⟨_, _, _, h⟩
      · exact h
      · cases h
    · cases h
  obtain ⟨m, hm, hreach⟩ :=
    statements_reach (statement_complete n) (.inl rfl) hp hws helse hroom hroom #[]
  -- The bound that is left behind the words is as good as the one that was given.
  have hagree : AgreeUpTo s₁.room
      (repeatWhile (fun k => k.isSome && k != none) (fun body => do
        return body.push (← statement n)) n #[])
      (repeatWhile (fun k => k.isSome && k != none) (fun body => do
        return body.push (← statement n)) m #[]) := by
    have hle := hws.room_add_length_le
    refine agree_repeatWhile rfl (fun body => .refl _) (fun body => ?_) (by omega) hm #[]
    exact (statement_sound n).bind fun us st hst => sound_pure (by simpa using hst.ne_nil)
  rw [hagree s₁ (Nat.le_refl _)] at hloop
  have hloop' := repeatWhile_error_of_error (#[] ++ p.body.toArray) hloop
  rw [← hreach] at hloop'
  exact bind_of_error (bind_of_error hloop' _) _

/-- A lexical error right behind a complete program is the error of the source: at a token of the
program the parse would fail without the lexical error, too. -/
lemma parse_error_of_lexical_behind (h : parse source file = .ok p)
    (hscan : scan source file = ts.map .ok)
    (hscan' : scan source' file = ts.map .ok ++ [.error e]) : parse source' file = .error e := by
  obtain ⟨e', he', rfl | ⟨hphase, hcause, -⟩⟩ :=
    parse_of_tokenize_error (tokenize_of_scan_error hscan')
  · exact he'
  rcases parse_eq_error_iff_program.mp he' with ⟨s, hload⟩ | ⟨s, s', hload, hprogram⟩
  · rw [phase_of_advance hload] at hphase
    cases hphase
  obtain ⟨ws, s₁, d, hws, hd, -⟩ := program_fails s.room s.kind? s e' s' rfl hprogram
  cases fault_of_refused hload hws hd with
  | lexical _ hlexical =>
    rw [hlexical] at hphase
    cases hphase
  | ended _ _ he => exact absurd (by rw [he]) (hcause _)
  | @misplaced us t items hmisplaced hus =>
    obtain ⟨items', hitems'⟩ : ∃ items', scan source file = us.map .ok ++ .ok t :: items' := by
      rw [hscan]
      rcases List.append_eq_append_iff.mp (hscan'.symm.trans hmisplaced) with
        ⟨vs, -, hvs⟩ | ⟨vs, hvs, hitems⟩
      · cases vs <;> simp at hvs
      · cases vs with
        | nil => simp at hitems
        | cons item vs =>
          obtain ⟨rfl, -⟩ := List.cons.inj hitems
          exact ⟨vs, hvs⟩
    have hfails := parse_elsewhere hprogram hws hd hphase hitems' hus
      (word?_of_scan hload hws hmisplaced hus)
    rw [h] at hfails
    cases hfails

/-- The kind of the first token of a source is the kind of the lookahead once it is loaded. -/
lemma kind?_of_load (h : load source (.start file) = .ok () s) :
    s.kind? = (scannedTokens source file).head?.map Token.kind := by
  rw [scannedTokens, ← pending_of_load h, head?_leadingTokens_pending, Session.kind?]

/-- Items of a scan match those that stand `k` bytes further on. -/
lemma forall₂_shiftItem (k : Nat) (items : List (Except Error Token)) :
    List.Forall₂ (Matches fun a b => b = a.shift k) items (items.map (shiftItem k)) := by
  rw [List.forall₂_map_right_iff, List.forall₂_same]
  rintro (e | t) -
  · exact .error rfl rfl
  · exact .token rfl rfl

/-- Where the errors of a source and of the source behind another text correspond, the second one
is the first one moved. -/
lemma Error.Matches.eq_shift
    (h : e.Matches (fun a b => b = a.shift (Text.bytes source)) e')
    (he : parse source' file = .error e) (he' : parse (source ++ source') file = .error e') :
    e' = e.shift (Text.bytes source) := by
  have hposition : e'.position = e.position.shift (Text.bytes source) := by
    rcases h.position with ⟨wanted, hcause⟩ | hposition
    · rw [position_of_endOfInput he hcause,
        position_of_endOfInput he' (h.cause_eq.trans hcause)]
      simp [Position.shift, Text.bytes, Nat.add_comm]
    · exact hposition
  rw [Error.shift, ← h.cause_eq, ← hposition]

/-- A source behind a complete program: the program can be consumed, and the session that is left is
parallel to one that has loaded the source alone. -/
lemma exists_parallel_behind {t : Session} (h : parse source file = .ok p)
    (hload : load source' (.start file) = .ok () t) :
    ∃ ws s s₁, DerivesProgram ws p ∧ load (source ++ source') (.start file) = .ok () s ∧
      Consumes s ws s₁ ∧ Parallel (fun a b => b = a.shift (Text.bytes source)) t s₁ := by
  obtain ⟨ts, -, hp, hscan⟩ := scan_behind_program h source'
  have hpending : t.pending = scan source' file := pending_of_load hload
  have hshift := forall₂_shiftItem (Text.bytes source) t.pending
  have hitems := head?_ne_error_of_forall₂ hshift
  rw [← hpending] at hscan
  have hhead (e : Error) : (scan (source ++ source') file).head? ≠ some (.error e) := by
    rw [hscan]
    cases ts with
    | nil => exact hitems e
    | cons => simp
  obtain ⟨s, hload₁⟩ : ∃ s, load (source ++ source') (.start file) = .ok () s :=
    exists_advance hhead
  obtain ⟨s₁, hws, hs₁⟩ := exists_consumes ((pending_of_load hload₁).trans hscan) hitems
  exact ⟨_, s, s₁, hp, hload₁, hws, by rwa [Parallel, hs₁]⟩

/-- **The error of a source stays the same behind a complete program**, unless the source begins
with an `else`. -/
theorem parse_error_behind (h : parse source file = .ok p) (he : parse source' file = .error e)
    (helse : (scannedTokens source' file).head?.map Token.kind ≠ some .elseWord) :
    parse (source ++ source') file = .error (e.shift (Text.bytes source)) := by
  rcases parse_eq_error_iff_program.mp he with ⟨t, hload⟩ | ⟨t, t', hload, hprogram⟩
  · obtain ⟨ts, hts, -, hscan⟩ := scan_behind_program h source'
    have hscan' : scan source' file = [.error e] := drain_of_advance_error hload
    rw [hscan'] at hscan
    exact parse_error_of_lexical_behind h hts hscan
  obtain ⟨ws, s, s₁, hp, hload₁, hws, hparallel⟩ := exists_parallel_behind h hload
  have helse₁ : s₁.kind? ≠ some .elseWord := by
    rwa [kind?_eq_of_word?_eq hparallel.word?_eq, kind?_of_load hload]
  -- Both sources are read with a bound that is large enough for either.
  rw [program_eq_of_room_le (Nat.le_max_left t.room s.room)] at hprogram
  obtain ⟨e₁, s', hprogram₁, hmatches⟩ :=
    (program_determined _).error_of_parallel hparallel hprogram
  have hprogram' :=
    program_error_behind hp hws helse₁ (Nat.le_max_right t.room s.room) hprogram₁
  rw [← program_eq_of_room_le (Nat.le_max_right t.room s.room)] at hprogram'
  have he₁ : parse (source ++ source') file = .error e₁ :=
    parse_eq_error_iff_program.mpr (.inr ⟨s, s', hload₁, hprogram'⟩)
  rw [he₁, hmatches.eq_shift he he₁]

/-! ## Sequences and blocks -/

lemma parse_ok_behind (h : parse source file = .ok p) (h' : parse source' file = .ok q) :
    parse (source ++ source') file = .ok ⟨p.body ++ q.body⟩ := by
  obtain ⟨ws, hws, hp⟩ := derives_of_parse h
  obtain ⟨us, hus, hq⟩ := derives_of_parse h'
  have hscans := hws.append_of_derives hp hus
  rw [← String.toList_append] at hscans
  exact parse_of_derives hscans (DerivesBody.append hp hq)

lemma parse_block (h : parse source file = .ok p) :
    parse ("\x7b" ++ source ++ "\x7d") file = .ok ⟨[.block p.body]⟩ := by
  obtain ⟨ws, hws, hp⟩ := derives_of_parse h
  have hclose : Scans ['\x7d'] [⟨.closeCurly, "\x7d"⟩] :=
    scans_mark '\x7d' .closeCurly rfl (.nil (by simp [Text.Blank]))
  have hscans := scans_mark '\x7b' .openCurly rfl (hws.append_of_derives hp hclose)
  have hblock : DerivesBody (⟨.openCurly, "\x7b"⟩ :: ws ++ [⟨.closeCurly, "\x7d"⟩])
      [.block p.body] := by
    simpa using DerivesBody.cons (.block "\x7b" "\x7d" hp) .nil
  refine parse_of_derives ?_ hblock
  simpa using hscans

/-- **Programs compose.**  Behind a source that is parsed, without anything between them, another
source that is parsed adds its statements; and one that fails, unless it begins with an `else`, fails
for the same cause, as many bytes further on as the first source has.  Between curly brackets a source
that is parsed becomes a single block. -/
theorem parse_sequence (source : String) (file : Option String) (p : Program)
    (h : parse source file = .ok p) :
    (∀ source' q, parse source' file = .ok q →
      parse (source ++ source') file = .ok ⟨p.body ++ q.body⟩) ∧
    (∀ source' e, parse source' file = .error e →
      (scannedTokens source' file).head?.map Token.kind ≠ some .elseWord →
      parse (source ++ source') file =
        .error ⟨e.cause, ⟨e.position.offset + Text.bytes source, e.position.file⟩⟩) ∧
    parse ("\x7b" ++ source ++ "\x7d") file = .ok ⟨[.block p.body]⟩ :=
  ⟨fun _ _ => parse_ok_behind h, fun _ _ => parse_error_behind h, parse_block h⟩

/-- An `if` without `else` is complete, and another statement, an error or a bracket may be right
behind it. -/
theorem parse_sequence_conditional :
    parse "if (a) ;" none = .ok ⟨[.ifThen (.ident "a") .empty]⟩ ∧
    (parse "b;" none = .ok ⟨[.expr (.ident "b")]⟩ ∧
      parse ("if (a) ;" ++ "b;") none =
        .ok ⟨[.ifThen (.ident "a") .empty] ++ [.expr (.ident "b")]⟩) ∧
    (parse "c +" none = .error ⟨.endOfInput "IDENTIFIER", ⟨3, "shell"⟩⟩ ∧
      (scannedTokens "c +" none).head?.map Token.kind ≠ some .elseWord ∧
      parse ("if (a) ;" ++ "c +") none =
        .error ⟨.endOfInput "IDENTIFIER", ⟨3 + Text.bytes "if (a) ;", "shell"⟩⟩) ∧
    parse ("\x7b" ++ "if (a) ;" ++ "\x7d") none =
      .ok ⟨[.block [.ifThen (.ident "a") .empty]]⟩ := by
  have h : parse "if (a) ;" none = .ok ⟨[.ifThen (.ident "a") .empty]⟩ := by cbv
  have hstatement : parse "b;" none = .ok ⟨[.expr (.ident "b")]⟩ := by cbv
  have herror : parse "c +" none = .error ⟨.endOfInput "IDENTIFIER", ⟨3, "shell"⟩⟩ := by cbv
  have hfirst : (scannedTokens "c +" none).head?.map Token.kind = some .identifier := by cbv
  have helse : (scannedTokens "c +" none).head?.map Token.kind ≠ some .elseWord := by
    rw [hfirst]
    simp
  obtain ⟨hok, hfails, hblock⟩ := parse_sequence _ _ _ h
  exact ⟨h, ⟨hstatement, hok _ _ hstatement⟩, ⟨herror, helse, hfails _ _ herror helse⟩, hblock⟩

end Scriptlet
