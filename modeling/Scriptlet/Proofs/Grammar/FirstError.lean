/-
# Syntax errors are at the first impossible token

A syntax error is as late as it can be and no later.  What precedes it is the beginning of a
program: the words before it are completed to a program by fillers, which may be written behind the
cut-off source.  And the token it is at cannot be there in any program: whatever else comes behind
the same words and the same token, the parse fails there for the same cause.

There is one exception, since an assignment operator and a number are judged only after they are
consumed: a lexical error right behind such a token comes before the verdict on the token itself.
-/
import Scriptlet.Proofs.Grammar.Bound
import Scriptlet.Proofs.Grammar.Determinacy
import Scriptlet.Proofs.Grammar.Fault
import Scriptlet.Proofs.Token.Cut
import Scriptlet.Proofs.Tree.Spelling

namespace Scriptlet

open Reading Grammar

variable {source source' : String} {file file' : Option String} {e : Error}
  {s s' s₁ s₂ : Session} {ws us : List Word}

/-! ## What precedes a syntax error -/

lemma scans_filler {w : Word} (hw : w ∈ fillers) {cs : List Char} (h : Scans cs ws) :
    Scans (w.text.toList ++ ' ' :: cs) (w :: ws) := by
  simp only [fillers, List.mem_cons, List.not_mem_nil, or_false] at hw
  rcases hw with rfl | rfl | rfl | rfl | rfl
  · exact readAs_name (by decide) _ _ (breaks_cons rfl) (h.blank rfl)
  all_goals exact scans_text (List.mem_singleton.mpr rfl) h

/-- Fillers can be written behind any text. -/
lemma exists_scans_fillers (hus : us ⊆ fillers) :
    ∃ text, (∀ c, text.head? = some c → Text.isBlank c) ∧ Scans text us := by
  induction us with
  | nil => exact ⟨[], by simp, .nil (by simp [Text.Blank])⟩
  | cons w us ih =>
    obtain ⟨hw, hus⟩ := List.cons_subset.mp hus
    obtain ⟨text, -, htext⟩ := ih hus
    refine ⟨' ' :: (w.text.toList ++ ' ' :: text), ?_, (scans_filler hw htext).blank rfl⟩
    intro c hc
    obtain rfl := Option.some.inj hc
    rfl

/-- A syntax error is in front of a token, or at the end of the source. -/
lemma Fault.exists_scan (h : Fault source file ws e) (hphase : e.cause.phase = .syntactic) :
    ∃ (ts : List Token) (items : List (Except Error Token)),
      scan source file = ts.map .ok ++ items ∧
      (∀ e', items.head? ≠ some (.error e')) ∧ ts.map Token.word = ws ∧
      (Cursor.start source.toList).cutAt items = e.position.offset := by
  cases h with
  | lexical _ hlexical =>
    rw [hlexical] at hphase
    cases hphase
  | @ended ts _ hscan hts he =>
    refine ⟨ts, [], by rw [hscan, List.append_nil], by simp, hts, ?_⟩
    rw [he]
    exact Nat.zero_add _
  | misplaced hscan hts _ _ hposition => exact ⟨_, _, hscan, by simp, hts, by rw [hposition]; rfl⟩

/-- A source that is cut off at a syntax error is completed by a text of the words that complete the
words before the error. -/
lemma exists_parse_of_fault {text : List Char} {p : Program} (h : Fault source file ws e)
    (hphase : e.cause.phase = .syntactic)
    (hblank : ∀ c, text.head? = some c → Text.isBlank c) (htext : Scans text us)
    (hp : DerivesProgram (ws ++ us) p) :
    ∃ pre, Text.upTo? e.position.offset source.toList = some pre ∧
      parse (String.ofList (pre ++ text)) file = .ok p := by
  obtain ⟨ts, items, hscan, hitems, rfl, hcut⟩ := h.exists_scan hphase
  obtain ⟨pre, post, hpre, hoffset, hscans⟩ := Cursor.exists_cut _ _ ts items hitems hscan
  have hsize : Text.size pre = e.position.offset := by
    rwa [Cursor.start, Nat.zero_add, ← Cursor.start, hcut] at hoffset
  refine ⟨pre, Text.upTo?_eq_some_iff.mpr ⟨post, hpre, hsize⟩, parse_of_derives ?_ hp⟩
  rw [String.toList_ofList]
  exact hscans text us hblank htext

/-- **What precedes a syntax error is the beginning of a program.** -/
lemma exists_parse_of_syntactic (h : parse source file = .error e)
    (hphase : e.cause.phase = .syntactic) :
    ∃ pre, Text.upTo? e.position.offset source.toList = some pre ∧
      ∃ r p, parse (String.ofList pre ++ r) file = .ok p := by
  obtain ⟨ws, hfault, hcompletion⟩ := exists_fault_of_parse h
  obtain ⟨us, p, hus, -, hp⟩ := hcompletion hphase
  obtain ⟨text, hblank, htext⟩ := exists_scans_fillers hus
  obtain ⟨pre, hpre, hparse⟩ := exists_parse_of_fault hfault hphase hblank htext hp
  rw [String.ofList_append] at hparse
  exact ⟨pre, hpre, String.ofList text, p, hparse⟩

/-! ## The token at a syntax error -/

/-- Whether a cause is found in a token only after the token is consumed. -/
def Cause.isLate : Cause → Bool
  | notAssignable | tooLarge _ => true
  | _ => false

/-- The error of a cause that is found in a token, where `items` is what the source holds behind the
token: the cause at the token itself, unless it is late and a lexical error comes first. -/
def Cause.errorAt (c : Cause) (t : Token) (items : List (Except Error Token)) : Error :=
  match items with
  | .error e :: _ => if c.isLate then e else ⟨c, t.span.start⟩
  | _ => ⟨c, t.span.start⟩

lemma Cause.errorAt_of_not_isLate {c : Cause} (h : c.isLate = false) (t : Token)
    (items : List (Except Error Token)) : c.errorAt t items = ⟨c, t.span.start⟩ := by
  unfold errorAt
  split
  · rw [h]
    rfl
  · rfl

lemma isLate_of_cause? {d : Demand} {text : String} {c : Cause} (h : d.cause? text = some c) :
    c.isLate := by
  cases d with
  | token => cases h
  | finite | assignable =>
    obtain rfl := Option.some.inj h
    rfl

namespace Grammar

variable {d d' : Demand}

/-- A syntax error leaves the session in front of the token, or behind it if it is late. -/
lemma Refused.eq_or_expect (h : Refused d s e s') (hphase : e.cause.phase = .syntactic) :
    e.cause.isLate = false ∧ s = s' ∨ e.cause.isLate ∧ ∃ t, expect d.kind s = .ok t s' := by
  cases h with
  | ended | mismatch => exact .inl ⟨rfl, rfl⟩
  | lexical _ _ h =>
    rw [phase_of_advance h] at hphase
    cases hphase
  | late h hc => exact .inr ⟨isLate_of_cause? hc, _, h⟩

/-- The words before a syntax error are determined by the error and the session that is left. -/
lemma Refused.words_unique (hws : Consumes s ws s₁) (hd : Refused d s₁ e s')
    (hus : Consumes s us s₂) (hd' : Refused d' s₂ e s') (hphase : e.cause.phase = .syntactic) :
    ws = us := by
  rcases hd.eq_or_expect hphase with ⟨hlate, rfl⟩ | ⟨hlate, t, ht⟩ <;>
    rcases hd'.eq_or_expect hphase with ⟨hlate', rfl⟩ | ⟨hlate', u, hu⟩
  · exact hws.words_unique hus
  · simp [hlate] at hlate'
  · simp [hlate'] at hlate
  · have hsnoc := (hws.append (consumes_of_expect ht)).words_unique
      (hus.append (consumes_of_expect hu))
    exact (List.append_inj' hsnoc rfl).1

/-- A demand that is refused at a token with a syntax error is refused at every token with the same
word, with the error that its cause has there. -/
lemma Refused.elsewhere {t : Token} {items : List (Except Error Token)} (h : Refused d s e s')
    (hphase : e.cause.phase = .syntactic) (hpending : s₁.pending = .ok t :: items)
    (hword : s₁.word? = s.word?) : ∃ s₁', Refused d s₁ (e.cause.errorAt t items) s₁' := by
  obtain ⟨hl₁, hdrain⟩ := lookahead_of_pending hpending
  have hword : s.word? = some t.word := by rw [← hword, Session.word?, hl₁, Option.map_some]
  cases h with
  | ended hl => simp [Session.word?, hl] at hword
  | @mismatch u hl hk =>
    rw [Session.word?, hl] at hword
    obtain ⟨hkind, hvalue⟩ := Word.mk.inj (Option.some.inj hword)
    rw [Cause.errorAt_of_not_isLate rfl, hvalue]
    exact ⟨s₁, .mismatch hl₁ (hkind ▸ hk)⟩
  | lexical _ _ h =>
    rw [phase_of_advance h] at hphase
    cases hphase
  | @late u c _ h hc =>
    rw [word?_of_expect h] at hword
    obtain ⟨hkind, hvalue⟩ := Word.mk.inj (Option.some.inj hword)
    -- Whether the verdict on the token is reached depends on what the scan finds behind it.
    have hverdict (hitems : ∀ e', items.head? ≠ some (.error e')) :
        ∃ s₁', Refused d s₁ ⟨c, t.span.start⟩ s₁' := by
      obtain ⟨s₁', hexpect⟩ := exists_expect hpending hitems
      rw [← hkind] at hexpect
      exact ⟨s₁', .late hexpect (hvalue ▸ hc)⟩
    rcases items with _ | ⟨e' | u, items⟩
    · exact hverdict (by simp)
    · obtain ⟨s₁', hadvance⟩ := exists_advance_error (s := s₁.consume t) hdrain
      have herror : c.errorAt t (.error e' :: items) = e' := if_pos (isLate_of_cause? hc)
      rw [herror]
      exact ⟨s₁', .lexical hl₁ hkind.symm hadvance⟩
    · exact hverdict (by simp)

end Grammar

/-- The lookahead behind words of a loaded source is the token behind them. -/
lemma word?_of_scan {ts : List Token} {t : Token} {items : List (Except Error Token)}
    (hload : load source (.start file) = .ok () s) (hws : Consumes s ws s₂)
    (hscan : scan source file = ts.map .ok ++ .ok t :: items) (hts : ts.map Token.word = ws) :
    s₂.word? = some t.word := by
  obtain ⟨vs, hvs, hpending⟩ := hws.exists_pending_eq
  have hlength : vs.length = ts.length := by
    have hmaps := congrArg List.length (hvs.trans hts.symm)
    rwa [List.length_map, List.length_map] at hmaps
  have happend : vs.map .ok ++ s₂.pending = ts.map .ok ++ .ok t :: items := by
    rw [← hpending, pending_of_load hload]
    exact hscan
  obtain ⟨-, hpending₂⟩ := List.append_inj happend (by simp [hlength])
  rw [Session.word?, (lookahead_of_pending hpending₂).1, Option.map_some]

/-- A source with the same words up to a syntax error, and the same word there, fails there too. -/
lemma parse_elsewhere {d : Demand} {ts : List Token} {t : Token}
    {items : List (Except Error Token)} (hprogram : program s.room s = .error e s')
    (hws : Consumes s ws s₂) (hd : Refused d s₂ e s') (hphase : e.cause.phase = .syntactic)
    (hscan : scan source' file' = ts.map .ok ++ .ok t :: items) (hts : ts.map Token.word = ws)
    (ht : s₂.word? = some t.word) : parse source' file' = .error (e.cause.errorAt t items) := by
  have hhead (e' : Error) : (scan source' file').head? ≠ some (.error e') := by
    rw [hscan]
    cases ts <;> simp
  obtain ⟨s₁, hload⟩ : ∃ s, load source' (.start file') = .ok () s := exists_advance hhead
  have hpending : s₁.pending = ts.map .ok ++ .ok t :: items := (pending_of_load hload).trans hscan
  obtain ⟨s₃, hts₁, hpending₃⟩ := exists_consumes hpending (by simp)
  rw [hts] at hts₁
  have hword : s₃.word? = s₂.word? := by
    rw [Session.word?, (lookahead_of_pending hpending₃).1, ht, Option.map_some]
  -- Both sources are read with a bound that is large enough for either.
  rw [program_eq_of_room_le (Nat.le_max_left s.room s₁.room)] at hprogram
  obtain ⟨us, s₄, d', hus, hd', hdetermined⟩ :=
    (program_determined _ s.kind?).error s e s' rfl hprogram
  obtain rfl := hd.words_unique hws hus hd' hphase
  obtain rfl := hws.unique hus
  obtain ⟨s₁', hd₁⟩ := hd'.elsewhere hphase hpending₃ hword
  have hprogram₁ := hdetermined s₁ s₃ _ s₁' hts₁ hword hd₁
  rw [← program_eq_of_room_le (Nat.le_max_right s.room s₁.room)] at hprogram₁
  exact parse_eq_error_iff_program.mpr (.inr ⟨s₁, s₁', hload, hprogram₁⟩)

/-- **Syntax errors are at the first impossible token.**  What precedes a syntax error is the
beginning of a source that is parsed.  The error is at the end of the source if that is what is
wrong, and otherwise at a token; and every source that begins with the same words up to and
including the word of this token fails at the corresponding token for the same cause, unless the
cause is found only behind the token and a lexical error is directly there. -/
theorem syntax_error_at_first_impossible_token (source : String) (file : Option String) (e : Error)
    (h : parse source file = .error e) (hphase : e.cause.phase = .syntactic) :
    (∃ pre, Text.upTo? e.position.offset source.toList = some pre ∧
      ∃ r p, parse (String.ofList pre ++ r) file = .ok p) ∧
    ((∃ wanted, e.cause = .endOfInput wanted) ∧ e.position.offset = Text.bytes source ∨
      (∀ wanted, e.cause ≠ .endOfInput wanted) ∧ ∃ ts t items,
        scan source file = ts.map .ok ++ .ok t :: items ∧ e.position = t.span.start ∧
        ∀ source' file' ts' t' items', scan source' file' = ts'.map .ok ++ .ok t' :: items' →
          (ts' ++ [t']).map Token.word = (ts ++ [t]).map Token.word →
          parse source' file' = .error (e.cause.errorAt t' items')) := by
  refine ⟨exists_parse_of_syntactic h hphase, ?_⟩
  rcases parse_eq_error_iff_program.mp h with ⟨s, hload⟩ | ⟨s, s', hload, hprogram⟩
  · rw [phase_of_advance hload] at hphase
    cases hphase
  obtain ⟨ws, s₂, d, hws, hd, -⟩ := program_fails s.room s.kind? s e s' rfl hprogram
  cases fault_of_refused hload hws hd with
  | lexical _ hlexical =>
    rw [hlexical] at hphase
    cases hphase
  | ended _ _ he =>
    subst he
    exact .inl ⟨⟨_, rfl⟩, rfl⟩
  | @misplaced ts t items hscan hts _ hcause hposition =>
    refine .inr ⟨hcause, ts, t, items, hscan, hposition, ?_⟩
    intro source' file' ts' t' items' hscan' hwords
    rw [List.map_append, List.map_append] at hwords
    obtain ⟨hts', ht'⟩ := List.append_inj' hwords rfl
    obtain ht' : t'.word = t.word := List.singleton_inj.mp ht'
    refine parse_elsewhere hprogram hws hd hphase hscan' (hts'.trans hts) ?_
    rw [ht']
    exact word?_of_scan hload hws hscan hts

/-- In `-a = b` the operator is refused after it is consumed. -/
theorem syntax_error_at_first_impossible_token_assignment :
    parse "-a = b" none = .error ⟨.notAssignable, ⟨3, "shell"⟩⟩ ∧
    (∃ pre, Text.upTo? 3 "-a = b".toList = some pre ∧
      ∃ r p, parse (String.ofList pre ++ r) none = .ok p) ∧
    ((∃ wanted, Cause.notAssignable = .endOfInput wanted) ∧ 3 = Text.bytes "-a = b" ∨
      (∀ wanted, Cause.notAssignable ≠ .endOfInput wanted) ∧ ∃ ts t items,
        scan "-a = b" none = ts.map .ok ++ .ok t :: items ∧ ⟨3, "shell"⟩ = t.span.start ∧
        ∀ source' file' ts' t' items', scan source' file' = ts'.map .ok ++ .ok t' :: items' →
          (ts' ++ [t']).map Token.word = (ts ++ [t]).map Token.word →
          parse source' file' = .error (Cause.notAssignable.errorAt t' items')) := by
  have h : parse "-a = b" none = .error ⟨.notAssignable, ⟨3, "shell"⟩⟩ := by cbv
  exact ⟨h, syntax_error_at_first_impossible_token _ _ _ h rfl⟩

end Scriptlet
