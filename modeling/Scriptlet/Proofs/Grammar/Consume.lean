/-
# Consuming tokens

A rule of the grammar changes a session only by consuming tokens, one after the other.  So what a
rule has done when it succeeds is told by the words of the tokens it consumed and by the session it
left: `Consumes s ws s'`.  This file relates that to the scan of the source (`Session.pending`) and to
the bounds that the rules are given (`Session.room`), so that the rules themselves can be studied
without looking at cursors.
-/
import Mathlib.Tactic.Lemma
import Scriptlet.Grammar.Session
import Scriptlet.Proofs.Token.Word

namespace Scriptlet

/-- What a session has not consumed yet: the lookahead, and all that the source holds behind it. -/
def Session.pending (s : Session) : List (Except Error Token) :=
  match s.lookahead with
  | some t => .ok t :: (s.cursor.drain s.file).1
  | none => []

namespace Reading

variable {α β : Type} {s s' s₁ s₂ : Session} {t : Token} {w : Word} {ws us : List Word} {k : Kind}

/-! ## Steps one after the other -/

lemma bind_eq_ok {p : Reading α} {f : α → Reading β} {b : β} :
    (p >>= f) s = .ok b s' ↔ ∃ a s₁, p s = .ok a s₁ ∧ f a s₁ = .ok b s' := by
  simp only [bind, EStateM.bind]
  cases hp : p s with
  | ok a s₁ =>
    constructor
    · intro h
      exact ⟨a, s₁, rfl, h⟩
    · rintro ⟨c, s₂, hc, h⟩
      obtain ⟨rfl, rfl⟩ := EStateM.Result.ok.inj hc
      exact h
  | error e s₁ => simp

lemma bind_of_ok {p : Reading α} {a : α} (h : p s = .ok a s₁) (f : α → Reading β) :
    (p >>= f) s = f a s₁ := by
  simp only [bind, EStateM.bind, h]

lemma map_of_ok {p : Reading α} {a : α} (h : p s = .ok a s') (f : α → β) :
    (f <$> p) s = .ok (f a) s' := by
  simp only [Functor.map, EStateM.map, h]

lemma pure_eq_ok {a b : α} : (pure a : Reading α) s = .ok b s' ↔ a = b ∧ s = s' := by
  simp only [pure, EStateM.pure, EStateM.Result.ok.injEq]

lemma peek_bind (f : Option Kind → Reading α) : (peek >>= f) s = f s.kind? s := rfl

lemma peek_bind_of {f : Option Kind → Reading α} {p : Reading α} (h : f s.kind? = p) :
    (peek >>= f) s = p s := by
  rw [peek_bind, h]

lemma exists_of_peek_bind {f : Option Kind → Reading α} {a : α}
    (h : (peek >>= f) s = .ok a s') : ∃ p, f s.kind? = p ∧ p s = .ok a s' :=
  ⟨f s.kind?, rfl, h⟩

/-! ## Consuming one token -/

lemma kind_eq_of_expect (h : expect k s = .ok t s') : t.kind = k :=
  (expect_eq_ok_iff.mp h).2.1

lemma kind?_of_expect (h : expect k s = .ok t s') : s.kind? = some k := by
  obtain ⟨hl, rfl, -⟩ := expect_eq_ok_iff.mp h
  rw [Session.kind?, hl, Option.map_some]

/-- After a token is scanned, what the session has not consumed is what the source holds. -/
lemma pending_of_advance {u : Unit} (h : advance s = .ok u s') :
    s'.pending = (s.cursor.drain s.file).1 := by
  obtain ⟨_ | t, cursor, hnext, rfl⟩ := advance_eq_ok_iff.mp h
  · rw [Cursor.drain_of_next_none hnext]
    rfl
  · rw [Cursor.drain_of_next_some hnext]
    rfl

lemma exists_advance (h : ∀ e, (s.cursor.drain s.file).1.head? ≠ some (.error e)) :
    ∃ s', advance s = .ok () s' := by
  obtain ⟨item?, cursor, hnext⟩ : ∃ item? cursor, s.cursor.next s.file = (item?, cursor) :=
    ⟨_, _, rfl⟩
  rcases item? with _ | (e | t)
  · exact ⟨_, advance_eq_ok_iff.mpr ⟨none, cursor, hnext, rfl⟩⟩
  · rw [Cursor.drain_of_next_some hnext] at h
    exact absurd rfl (h e)
  · exact ⟨_, advance_eq_ok_iff.mpr ⟨some t, cursor, hnext, rfl⟩⟩

lemma exists_advance_error {e : Error} {items : List (Except Error Token)}
    (h : (s.cursor.drain s.file).1 = .error e :: items) : ∃ s', advance s = .error e s' := by
  obtain ⟨cursor, hnext⟩ := Cursor.exists_next_of_drain h
  exact ⟨_, advance_eq_error_iff.mpr ⟨cursor, hnext, rfl⟩⟩

lemma pending_of_expect (h : expect k s = .ok t s') : s.pending = .ok t :: s'.pending := by
  obtain ⟨hl, -, hadvance⟩ := expect_eq_ok_iff.mp h
  rw [pending_of_advance hadvance, Session.pending, hl]
  rfl

lemma lookahead_of_pending {items : List (Except Error Token)} (h : s.pending = .ok t :: items) :
    s.lookahead = some t ∧ (s.cursor.drain s.file).1 = items := by
  cases hl : s.lookahead with
  | none => simp [Session.pending, hl] at h
  | some u =>
    simp only [Session.pending, hl, List.cons.injEq, Except.ok.injEq] at h
    obtain ⟨rfl, hitems⟩ := h
    exact ⟨rfl, hitems⟩

lemma exists_expect {items : List (Except Error Token)} (h : s.pending = .ok t :: items)
    (hitems : ∀ e, items.head? ≠ some (.error e)) : ∃ s', expect t.kind s = .ok t s' := by
  obtain ⟨hl, rfl⟩ := lookahead_of_pending h
  obtain ⟨s', hadvance⟩ : ∃ s', advance (s.consume t) = .ok () s' := exists_advance hitems
  exact ⟨s', expect_eq_ok_iff.mpr ⟨hl, rfl, hadvance⟩⟩

lemma pending_eq_nil_iff : s.pending = [] ↔ s.lookahead = none := by
  cases hl : s.lookahead <;> simp [Session.pending, hl]

lemma kind?_eq_none_iff : s.kind? = none ↔ s.lookahead = none := by
  rw [Session.kind?, Option.map_eq_none_iff]

/-! ## Consuming several tokens -/

/-- `Consumes s ws s'`: by consuming tokens with the words `ws` one after the other, the session
`s` becomes `s'`. -/
inductive Consumes : Session → List Word → Session → Prop
  | nil (s : Session) : Consumes s [] s
  | cons {s s₁ s' : Session} {t : Token} {ws : List Word} (h : expect t.kind s = .ok t s₁)
      (hrest : Consumes s₁ ws s') : Consumes s (t.word :: ws) s'

lemma consumes_of_expect (h : expect k s = .ok t s') : Consumes s [⟨k, t.value⟩] s' := by
  obtain rfl := kind_eq_of_expect h
  exact .cons h (.nil s')

lemma Consumes.append (h : Consumes s ws s₁) (h' : Consumes s₁ us s') :
    Consumes s (ws ++ us) s' := by
  induction h with
  | nil => exact h'
  | cons hexpect _ ih => exact .cons hexpect (ih h')

lemma consumes_nil_iff : Consumes s [] s' ↔ s = s' := by
  constructor
  · rintro ⟨⟩
    rfl
  · rintro rfl
    exact .nil s

lemma consumes_cons_iff :
    Consumes s (w :: ws) s' ↔
      ∃ t s₁, expect w.kind s = .ok t s₁ ∧ t.value = w.text ∧ Consumes s₁ ws s' := by
  constructor
  · rintro (_ | ⟨h, hrest⟩)
    exact ⟨_, _, h, rfl, hrest⟩
  · rintro ⟨t, s₁, h, hvalue, hrest⟩
    have happend := (consumes_of_expect h).append hrest
    rw [hvalue] at happend
    exact happend

lemma consumes_append_iff :
    Consumes s (ws ++ us) s' ↔ ∃ s₁, Consumes s ws s₁ ∧ Consumes s₁ us s' := by
  constructor
  · intro h
    induction ws generalizing s with
    | nil => exact ⟨s, .nil s, h⟩
    | cons w ws ih =>
      obtain ⟨t, s₁, hexpect, hvalue, hrest⟩ := consumes_cons_iff.mp h
      obtain ⟨s₂, hws, hus⟩ := ih hrest
      exact ⟨s₂, consumes_cons_iff.mpr ⟨t, s₁, hexpect, hvalue, hws⟩, hus⟩
  · rintro ⟨s₁, hws, hus⟩
    exact hws.append hus

lemma Consumes.exists_pending_eq (h : Consumes s ws s') :
    ∃ ts : List Token, ts.map Token.word = ws ∧ s.pending = ts.map .ok ++ s'.pending := by
  induction h with
  | nil => exact ⟨[], rfl, rfl⟩
  | @cons _ _ _ t _ hexpect _ ih =>
    obtain ⟨ts, rfl, hts⟩ := ih
    refine ⟨t :: ts, rfl, ?_⟩
    rw [pending_of_expect hexpect, hts, List.map_cons, List.cons_append]

/-- Consuming is a function of the words. -/
lemma Consumes.unique (h₁ : Consumes s ws s₁) (h₂ : Consumes s ws s₂) : s₁ = s₂ := by
  induction ws generalizing s with
  | nil => rw [← consumes_nil_iff.mp h₁, ← consumes_nil_iff.mp h₂]
  | cons w ws ih =>
    obtain ⟨t, s₃, ht, -, hrest⟩ := consumes_cons_iff.mp h₁
    obtain ⟨u, s₄, hu, -, hrest'⟩ := consumes_cons_iff.mp h₂
    obtain ⟨rfl, rfl⟩ := EStateM.Result.ok.inj (ht.symm.trans hu)
    exact ih hrest hrest'

/-- The words between two sessions are what the one has to consume more than the other. -/
lemma Consumes.words_unique (hws : Consumes s ws s') (hus : Consumes s us s') : ws = us := by
  obtain ⟨ts, rfl, hts⟩ := hws.exists_pending_eq
  obtain ⟨vs, rfl, hvs⟩ := hus.exists_pending_eq
  have hmap : ts.map (Except.ok : Token → Except Error Token) = vs.map .ok :=
    List.append_cancel_right (hts.symm.trans hvs)
  rw [(List.map_inj_right fun _ _ => Except.ok.inj).mp hmap]

/-- Tokens that the source still holds can be consumed, unless a lexical error is right behind
them. -/
lemma exists_consumes {ts : List Token} {items : List (Except Error Token)}
    (h : s.pending = ts.map .ok ++ items) (hitems : ∀ e, items.head? ≠ some (.error e)) :
    ∃ s', Consumes s (ts.map Token.word) s' ∧ s'.pending = items := by
  induction ts generalizing s with
  | nil => exact ⟨s, .nil s, h⟩
  | cons t ts ih =>
    -- Consuming `t` scans what is behind it, which must not be an error.
    have hhead : ∀ e, (ts.map Except.ok ++ items).head? ≠ some (.error e) := by
      intro e
      cases ts with
      | nil => exact hitems e
      | cons u us => simp
    obtain ⟨s₁, hexpect⟩ := exists_expect h hhead
    have hrest : s₁.pending = ts.map .ok ++ items := by
      have hpending := pending_of_expect hexpect
      rw [h] at hpending
      exact (List.cons.inj hpending).2.symm
    obtain ⟨s', hts, hs'⟩ := ih hrest
    exact ⟨s', .cons hexpect hts, hs'⟩

/-- Every token consumed takes up room. -/
lemma Consumes.room_add_length_le (h : Consumes s ws s') : s'.room + ws.length ≤ s.room := by
  induction h with
  | nil => exact Nat.le_refl _
  | cons hexpect _ ih =>
    have hlt := room_expect_lt hexpect
    rw [List.length_cons]
    omega

lemma Consumes.kind?_eq (h : Consumes s (w :: ws) s') : s.kind? = some w.kind := by
  obtain ⟨t, s₁, hexpect, -, -⟩ := consumes_cons_iff.mp h
  exact kind?_of_expect hexpect

/-! ## Repetition -/

section Repetition

variable {more : Option Kind → Bool} {step : α → Reading α} {n : Nat} {a b : α}

lemma repeatWhile_of_not (h : more s.kind? = false) :
    repeatWhile more step n a s = .ok a s := by
  cases n with
  | zero => rfl
  | succ n =>
    rw [repeatWhile, peek_bind, h]
    rfl

lemma repeatWhile_of_more (h : more s.kind? = true) (hstep : step a s = .ok b s₁) :
    repeatWhile more step (n + 1) a s = repeatWhile more step n b s₁ := by
  rw [repeatWhile, peek_bind, h]
  exact bind_of_ok hstep _

/-- A repetition of steps that consume tokens, with room for all of them, ends only where it is
not to go on. -/
lemma repeatWhile_stops (hnone : more none = false)
    (hstep : ∀ a s b s', step a s = .ok b s' → s'.room < s.room) (hroom : s.room ≤ n)
    (h : repeatWhile more step n a s = .ok b s') : more s'.kind? = false := by
  induction n generalizing a s with
  | zero =>
    obtain ⟨rfl, rfl⟩ := pure_eq_ok.mp h
    have hl := lookahead_eq_none (Nat.le_zero.mp hroom)
    rwa [kind?_eq_none_iff.mpr hl]
  | succ n ih =>
    cases hmore : more s.kind? with
    | false =>
      rw [repeatWhile_of_not hmore] at h
      obtain ⟨rfl, rfl⟩ := EStateM.Result.ok.inj h
      exact hmore
    | true =>
      rw [repeatWhile, peek_bind, hmore] at h
      obtain ⟨c, s₁, hc, h⟩ := bind_eq_ok.mp h
      have hlt := hstep a s c s₁ hc
      exact ih (by omega) h

end Repetition

end Reading

end Scriptlet
