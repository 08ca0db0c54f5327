/-
# Like sources are read alike

Two sessions are parallel if they have the same words to consume, and the same lexical error behind
them if there is one, so that what is left of their sources differs at most in where it stands
(`Parallel`).  A rule that looks at words only does the same in parallel sessions: it succeeds with
the same result, or it fails for the same cause, at places that correspond.

Which places correspond is left open here: a relation is carried along from the items of the scans to
the errors.  At the end of a source there is no item, and the error is simply at the end.
-/
import Mathlib.Data.List.Forall2
import Scriptlet.Proofs.Grammar.Bound
import Scriptlet.Proofs.Grammar.Determinacy
import Scriptlet.Proofs.Grammar.Fault

namespace Scriptlet

open Reading Grammar

variable {R : Position → Position → Prop} {s s' s₁ : Session} {e : Error} {ws : List Word}
  {source source' : String} {file file' : Option String}

/-! ## Parallel scans -/

/-- Two items of scans that differ at most in their places: the same word or the same cause, at places
that `R` relates. -/
inductive Matches (R : Position → Position → Prop) :
    Except Error Token → Except Error Token → Prop
  | token {t t' : Token} (hword : t'.word = t.word) (hstart : R t.span.start t'.span.start) :
      Matches R (.ok t) (.ok t')
  | error {e e' : Error} (hcause : e'.cause = e.cause) (hposition : R e.position e'.position) :
      Matches R (.error e) (.error e')

/-- Two sessions whose scans match from here on. -/
def Parallel (R : Position → Position → Prop) (s s₁ : Session) : Prop :=
  List.Forall₂ (Matches R) s.pending s₁.pending

/-- Two errors of the same cause, at the ends of their sources or at places that `R` relates. -/
structure Error.Matches (R : Position → Position → Prop) (e e' : Error) : Prop where
  cause_eq : e'.cause = e.cause
  position : (∃ wanted, e.cause = .endOfInput wanted) ∨ R e.position e'.position

/-- What matches that which a session has not consumed does not begin with an error. -/
lemma head?_ne_error_of_forall₂ {items : List (Except Error Token)}
    (h : List.Forall₂ (Matches R) s.pending items) (e : Error) :
    items.head? ≠ some (.error e) := by
  intro hhead
  obtain ⟨rest, rfl⟩ := List.head?_eq_some_iff.mp hhead
  obtain ⟨item, _, hitem, -, hpending⟩ := List.forall₂_cons_right_iff.mp h
  cases hitem with
  | error => cases hl : s.lookahead <;> simp [Session.pending, hl] at hpending

namespace Parallel

/-- What comes next in parallel sessions. -/
lemma lookahead_cases (h : Parallel R s s₁) :
    s.lookahead = none ∧ s₁.lookahead = none ∨
      ∃ t t', s.lookahead = some t ∧ s₁.lookahead = some t' ∧ t'.word = t.word ∧
        R t.span.start t'.span.start ∧
        List.Forall₂ (Scriptlet.Matches R) (s.cursor.drain s.file).1
          (s₁.cursor.drain s₁.file).1 := by
  rw [Parallel] at h
  cases hl : s.lookahead with
  | none =>
    rw [pending_eq_nil_iff.mpr hl] at h
    exact .inl ⟨rfl, pending_eq_nil_iff.mp (List.forall₂_nil_left_iff.mp h)⟩
  | some t =>
    rw [Session.pending, hl] at h
    obtain ⟨item, items, hitem, hitems, hpending⟩ := List.forall₂_cons_left_iff.mp h
    cases hitem with
    | token hword hstart =>
      obtain ⟨hl₁, rfl⟩ := lookahead_of_pending hpending
      exact .inr ⟨t, _, rfl, hl₁, hword, hstart, hitems⟩

lemma word?_eq (h : Parallel R s s₁) : s₁.word? = s.word? := by
  rcases h.lookahead_cases with ⟨hl, hl₁⟩ | ⟨t, t', hl, hl₁, hword, -, -⟩
  · rw [Session.word?, Session.word?, hl, hl₁]
  · rw [Session.word?, Session.word?, hl, hl₁, Option.map_some, Option.map_some, hword]

/-- A token that is consumed in one of two parallel sessions is consumed in the other one. -/
lemma expect {k : Kind} {t : Token} (h : Parallel R s s₁)
    (hexpect : Reading.expect k s = .ok t s') :
    ∃ t' s₁', Reading.expect k s₁ = .ok t' s₁' ∧ t'.value = t.value ∧
      R t.span.start t'.span.start ∧ Parallel R s' s₁' := by
  have hitems := h
  rw [Parallel, pending_of_expect hexpect] at hitems
  obtain ⟨item, items, hitem, hitems, hpending⟩ := List.forall₂_cons_left_iff.mp hitems
  cases hitem with
  | @token _ t' hword hstart =>
    obtain ⟨hkind, hvalue⟩ := Word.mk.inj hword
    -- Behind the token there is no lexical error, since there is none in the other session.
    obtain ⟨s₁', hexpect₁⟩ := exists_expect hpending (head?_ne_error_of_forall₂ hitems)
    have hpending₁ := pending_of_expect hexpect₁
    rw [hpending] at hpending₁
    obtain ⟨-, rfl⟩ := List.cons.inj hpending₁
    rw [hkind, kind_eq_of_expect hexpect] at hexpect₁
    exact ⟨t', s₁', hexpect₁, hvalue, hstart, hitems⟩

/-- What is consumed in one of two parallel sessions is consumed in the other one. -/
lemma consumes (h : Parallel R s s₁) (hws : Consumes s ws s') :
    ∃ s₁', Consumes s₁ ws s₁' ∧ Parallel R s' s₁' := by
  induction hws generalizing s₁ with
  | nil => exact ⟨s₁, .nil s₁, h⟩
  | cons hexpect _ ih =>
    obtain ⟨t', s₂, hexpect₁, hvalue, -, hparallel⟩ := h.expect hexpect
    obtain ⟨s₁', hws₁, hparallel'⟩ := ih hparallel
    exact ⟨s₁', consumes_cons_iff.mpr ⟨t', s₂, hexpect₁, hvalue, hws₁⟩, hparallel'⟩

/-- A demand that is refused in one of two parallel sessions is refused in the other one. -/
lemma refused {d : Demand} (h : Parallel R s s₁) (hd : Refused d s e s') :
    ∃ e₁ s₁', Refused d s₁ e₁ s₁' ∧ e.Matches R e₁ := by
  cases hd with
  | ended hl =>
    have hl₁ : s₁.lookahead = none := by
      rcases h.lookahead_cases with ⟨-, hl₁⟩ | ⟨t, t', ht, -⟩
      · exact hl₁
      · rw [hl] at ht
        cases ht
    exact ⟨_, s₁, .ended hl₁, rfl, .inl ⟨_, rfl⟩⟩
  | @mismatch t hl hk =>
    rcases h.lookahead_cases with ⟨hnone, -⟩ | ⟨u, t', hu, hl₁, hword, hstart, -⟩
    · rw [hl] at hnone
      cases hnone
    · obtain rfl : t = u := Option.some.inj (hl.symm.trans hu)
      obtain ⟨hkind, hvalue⟩ := Word.mk.inj hword
      refine ⟨_, s₁, .mismatch hl₁ (by rwa [hkind]), by rw [hvalue], .inr hstart⟩
  | @lexical t _ _ hl hk hadvance =>
    rcases h.lookahead_cases with ⟨hnone, -⟩ | ⟨u, t', hu, hl₁, hword, hstart, hitems⟩
    · rw [hl] at hnone
      cases hnone
    · obtain rfl : t = u := Option.some.inj (hl.symm.trans hu)
      obtain ⟨hkind, hvalue⟩ := Word.mk.inj hword
      have hdrain : (s.cursor.drain s.file).1 = [.error e] :=
        drain_of_advance_error (s := s.consume t) hadvance
      rw [hdrain] at hitems
      obtain ⟨item, items, hitem, -, hdrain₁⟩ := List.forall₂_cons_left_iff.mp hitems
      cases hitem with
      | @error _ e₁ hcause hposition =>
        obtain ⟨s₁', hadvance₁⟩ := exists_advance_error (s := s₁.consume t') hdrain₁
        exact ⟨e₁, s₁', .lexical hl₁ (by rw [hkind, hk]) hadvance₁, hcause, .inr hposition⟩
  | @late t c _ hexpect hc =>
    obtain ⟨t', s₁', hexpect₁, hvalue, hstart, -⟩ := h.expect hexpect
    exact ⟨_, s₁', .late hexpect₁ (by rwa [hvalue]), rfl, .inr hstart⟩

end Parallel

/-! ## Parallel runs -/

namespace Grammar.Determined

variable {α : Type} {p : Reading α} (hp : Determined p)

include hp

lemma ok_of_parallel {a : α} (h : Parallel R s s₁) (hs : p s = .ok a s') :
    ∃ s₁', p s₁ = .ok a s₁' := by
  obtain ⟨ws, hws, hdetermined⟩ := (hp s.kind?).ok s a s' rfl hs
  obtain ⟨s₁', hws₁, hparallel⟩ := h.consumes hws
  exact ⟨s₁', hdetermined s₁ s₁' hws₁ hparallel.word?_eq⟩

lemma error_of_parallel (h : Parallel R s s₁) (hs : p s = .error e s') :
    ∃ e₁ s₁', p s₁ = .error e₁ s₁' ∧ e.Matches R e₁ := by
  obtain ⟨ws, s₂, d, hws, hd, hdetermined⟩ := (hp s.kind?).error s e s' rfl hs
  obtain ⟨s₃, hws₁, hparallel⟩ := h.consumes hws
  obtain ⟨e₁, s₁', hd₁, hmatches⟩ := hparallel.refused hd
  exact ⟨e₁, s₁', hdetermined s₁ s₃ e₁ s₁' hws₁ hparallel.word?_eq hd₁, hmatches⟩

end Grammar.Determined

/-! ## Parallel sources -/

/-- Sources whose scans match are loaded alike. -/
lemma load_of_forall₂_scan
    (h : List.Forall₂ (Matches R) (scan source file) (scan source' file')) :
    (∃ s s₁, load source (.start file) = .ok () s ∧ load source' (.start file') = .ok () s₁ ∧
      Parallel R s s₁) ∨
    ∃ e e₁ s s₁, load source (.start file) = .error e s ∧
      load source' (.start file') = .error e₁ s₁ ∧ e.Matches R e₁ := by
  cases hload : load source (.start file) with
  | ok u s =>
    have hpending := pending_of_load hload
    rw [← scan] at hpending
    rw [← hpending] at h
    obtain ⟨s₁, hload₁⟩ : ∃ s, load source' (.start file') = .ok () s :=
      exists_advance (head?_ne_error_of_forall₂ h)
    refine .inl ⟨s, s₁, rfl, hload₁, ?_⟩
    rw [Parallel, pending_of_load hload₁]
    exact h
  | error e s =>
    have hscan : scan source file = [.error e] := drain_of_advance_error hload
    rw [hscan] at h
    obtain ⟨item, items, hitem, -, hscan₁⟩ := List.forall₂_cons_left_iff.mp h
    cases hitem with
    | @error _ e₁ hcause hposition =>
      obtain ⟨s₁, hload₁⟩ : ∃ s, load source' (.start file') = .error e₁ s :=
        exists_advance_error hscan₁
      exact .inr ⟨e, e₁, s, s₁, rfl, hload₁, hcause, .inr hposition⟩

/-- **Sources whose scans match are parsed alike**: to the same tree, or with errors that match. -/
theorem parse_of_forall₂_scan
    (h : List.Forall₂ (Matches R) (scan source file) (scan source' file')) :
    (∀ p, parse source file = .ok p → parse source' file' = .ok p) ∧
      ∀ e, parse source file = .error e →
        ∃ e₁, parse source' file' = .error e₁ ∧ e.Matches R e₁ := by
  rcases load_of_forall₂_scan h with
    ⟨s, s₁, hload, hload₁, hparallel⟩ | ⟨e, e₁, s, s₁, hload, hload₁, hmatches⟩
  · -- Both sources are read with a bound that is large enough for either.
    have hn := program_eq_of_room_le (Nat.le_max_left s.room s₁.room)
    have hn₁ := program_eq_of_room_le (Nat.le_max_right s.room s₁.room)
    have hdetermined := program_determined (max s.room s₁.room)
    refine ⟨fun p hp => ?_, fun e he => ?_⟩
    · obtain ⟨_, s', hload', hprogram⟩ := parse_eq_ok_iff_program.mp hp
      obtain ⟨-, rfl⟩ := EStateM.Result.ok.inj (hload.symm.trans hload')
      rw [hn] at hprogram
      obtain ⟨s₁', hprogram₁⟩ := hdetermined.ok_of_parallel hparallel hprogram
      rw [← hn₁] at hprogram₁
      exact parse_eq_ok_iff_program.mpr ⟨s₁, s₁', hload₁, hprogram₁⟩
    · rcases parse_eq_error_iff_program.mp he with ⟨_, hload'⟩ | ⟨_, s', hload', hprogram⟩
      · cases hload.symm.trans hload'
      obtain ⟨-, rfl⟩ := EStateM.Result.ok.inj (hload.symm.trans hload')
      rw [hn] at hprogram
      obtain ⟨e₁, s₁', hprogram₁, hmatches⟩ := hdetermined.error_of_parallel hparallel hprogram
      rw [← hn₁] at hprogram₁
      exact ⟨e₁, parse_eq_error_iff_program.mpr (.inr ⟨s₁, s₁', hload₁, hprogram₁⟩), hmatches⟩
  · have he : parse source file = .error e := parse_eq_error_iff_program.mpr (.inl ⟨s, hload⟩)
    have he₁ : parse source' file' = .error e₁ :=
      parse_eq_error_iff_program.mpr (.inl ⟨s₁, hload₁⟩)
    refine ⟨fun p hp => ?_, fun e' he' => ?_⟩
    · cases he.symm.trans hp
    · obtain rfl := Except.error.inj (he.symm.trans he')
      exact ⟨e₁, he₁, hmatches⟩

end Scriptlet
