/-
# The parser accepts the grammar

A source is parsed if its words are a program, and the tree is the one they derive.  Soundness gives
one direction and completeness the other; what remains is that a session that has loaded a source
can consume exactly the tokens of the source.
-/
import Scriptlet.Grammar.Parse
import Scriptlet.Proofs.Grammar.Completeness
import Scriptlet.Proofs.Grammar.Soundness

namespace Scriptlet

open Reading Grammar

variable {source : String} {file : Option String} {p : Program}

/-- A parse succeeds if the source can be loaded and a program is read. -/
lemma parse_eq_ok_iff_program :
    parse source file = .ok p ↔
      ∃ s s', load source (.start file) = .ok () s ∧ program s.room s = .ok p s' := by
  have hok : parse source file = .ok p ↔ ∃ s', Reading.parse source (.start file) = .ok p s' := by
    rw [parse, runOn]
    cases Reading.parse source (.start file) <;> simp
  rw [hok]
  constructor
  · rintro ⟨s', h⟩
    obtain ⟨u, s, hload, h⟩ := bind_eq_ok.mp h
    obtain ⟨q, s₁, hprogram, h⟩ := bind_eq_ok.mp h
    obtain ⟨v, s₂, -, h⟩ := bind_eq_ok.mp h
    obtain ⟨rfl, -⟩ := pure_eq_ok.mp h
    exact ⟨s, s₁, hload, hprogram⟩
  · rintro ⟨s, s', hload, hprogram⟩
    have hroom : withRoom program s = .ok p s' := hprogram
    exact ⟨_, (bind_of_ok hload _).trans (bind_of_ok hroom _)⟩

/-- What the session holds after a source is loaded: all the tokens of the source. -/
lemma pending_of_load {s : Session} (h : load source (.start file) = .ok () s) :
    s.pending = ((Cursor.start source.toList).drain (file.getD defaultFile)).1 :=
  pending_of_advance h

lemma exists_load {ts : List Token}
    (h : ((Cursor.start source.toList).drain (file.getD defaultFile)).1 = ts.map .ok) :
    ∃ s, load source (.start file) = .ok () s := by
  refine exists_advance fun e => ?_
  intro hhead
  have hhead : (ts.map (Except.ok : Token → Except Error Token)).head? = some (.error e) := by
    rw [← h]
    exact hhead
  cases ts <;> simp at hhead

lemma derives_of_parse (h : parse source file = .ok p) :
    ∃ ws, Scans source.toList ws ∧ DerivesProgram ws p := by
  obtain ⟨s, s', hload, hprogram⟩ := parse_eq_ok_iff_program.mp h
  obtain ⟨ws, hws, hp⟩ := program_sound s.room s p s' hprogram
  refine ⟨ws, ?_, hp⟩
  -- The program was read to the end of the source, so its words are all the words there are.
  have hlast := program_stops (Nat.le_refl s.room) hprogram
  obtain ⟨ts, rfl, hts⟩ := hws.exists_pending_eq
  rw [pending_of_load hload, pending_eq_nil_iff.mpr hlast, List.append_nil] at hts
  exact scans_of_drain hts

lemma parse_of_derives {ws : List Word} (hscans : Scans source.toList ws)
    (hp : DerivesProgram ws p) : parse source file = .ok p := by
  obtain ⟨ts, hts, rfl⟩ :=
    exists_drain_of_scans (c := .start source.toList) (file.getD defaultFile) hscans
  obtain ⟨s, hload⟩ := exists_load hts
  have hpending : s.pending = ts.map .ok ++ [] := by
    rw [pending_of_load hload, hts, List.append_nil]
  obtain ⟨s', hconsumes, hnil⟩ := exists_consumes hpending (by simp)
  have hlast := kind?_eq_none_iff.mpr (pending_eq_nil_iff.mp hnil)
  have hprogram := program_complete hp hconsumes hlast (Nat.le_refl s.room)
  exact parse_eq_ok_iff_program.mpr ⟨s, s', hload, hprogram⟩

/-- A source is parsed if the words it is cut into derive a program. -/
lemma parse_eq_ok_iff_scans :
    parse source file = .ok p ↔ ∃ ws, Scans source.toList ws ∧ DerivesProgram ws p := by
  constructor
  · exact derives_of_parse
  · rintro ⟨ws, hscans, hp⟩
    exact parse_of_derives hscans hp

/-- **The parser accepts exactly the grammar, and gives the tree of the grammar.**  A source is
parsed with the tree `p` if and only if it has no lexical error and its tokens derive `p`. -/
theorem parse_eq_ok_iff_derives (source : String) (file : Option String) (p : Program) :
    parse source file = .ok p ↔
      ∃ ts, tokenize source file = .ok ts ∧ DerivesProgram (ts.map Token.word) p := by
  rw [parse_eq_ok_iff_scans]
  constructor
  · rintro ⟨ws, hscans, hp⟩
    obtain ⟨ts, hts, rfl⟩ := exists_tokenize_iff_scans.mpr hscans
    exact ⟨ts, hts, hp⟩
  · rintro ⟨ts, hts, hp⟩
    exact ⟨ts.map Token.word, exists_tokenize_iff_scans.mp ⟨ts, hts, rfl⟩, hp⟩

end Scriptlet
