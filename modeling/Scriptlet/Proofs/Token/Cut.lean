/-
# Cutting a source between tokens

A token depends on its own text and on the first character behind it, which must not be one that
the token could go on with.  No token goes on with a blank.  So a source may be cut off in front of
any of its tokens and continued by another text, as long as that begins with a blank: the tokens
before the cut stay what they are.
-/
import Scriptlet.Proofs.Token.Word

namespace Scriptlet

/-! ## What stands behind a token -/

/-- Behind a token the text `r'` may stand in the place of `r`: it begins as `r` does, or with
a blank, or it is empty. -/
def MayReplace (r' r : List Char) : Prop :=
  ∀ c, r'.head? = some c → r.head? = some c ∨ Text.isBlank c

variable {r r' : List Char}

/-- A character that is no blank and does not come behind a token does not come there after the
replacement either. -/
lemma MayReplace.head?_ne (h : MayReplace r' r) {d : Char} (hd : Text.isBlank d = false)
    (hr : r.head? ≠ some d) : r'.head? ≠ some d := by
  intro hr'
  rcases h d hr' with hhead | hblank
  · exact hr hhead
  · rw [hd] at hblank
    cases hblank

/-- A text with another continuation, in front of which nothing or a blank stands. -/
lemma mayReplace_append {pre post text : List Char}
    (htext : ∀ c, text.head? = some c → Text.isBlank c) :
    MayReplace (pre ++ text) (pre ++ post) := by
  intro c hc
  cases pre with
  | nil => exact .inr (htext c hc)
  | cons d pre => exact .inl hc

namespace Pattern

/-- A pattern whose match does not go on over a blank. -/
def EndsAtBlank : Pattern → Prop
  | one _ => True
  | run p => ∀ c, Text.isBlank c → p c = false
  | two _ d | oneOrTwo _ d => Text.isBlank d = false
  | quoted _ => False

variable {pattern : Pattern} {p : Char → Bool} {c d : Char} {m : List Char}

lemma split?_two_cons (cs : List Char) :
    (two p d).split? (c :: cs) =
      if p c ∧ cs.head? = some d then some ([c, d], cs.tail) else none := by
  cases cs with
  | nil => simp [split?]
  | cons e cs => by_cases he : e = d <;> simp [split?, he]

lemma split?_oneOrTwo_cons (cs : List Char) :
    (oneOrTwo p d).split? (c :: cs) =
      if p c then if cs.head? = some d then some ([c, d], cs.tail) else some ([c], cs)
      else none := by
  cases cs with
  | nil => simp [split?]
  | cons e cs => by_cases he : e = d <;> simp [split?, he]

/-- A run stops at what it stopped at before, and at a blank. -/
lemma split?_run_of_mayReplace (hpattern : (run p).EndsAtBlank) (h : MayReplace r' r)
    (hs : (run p).split? (c :: (m ++ r)) = some (c :: m, r)) :
    (run p).split? (c :: (m ++ r')) = some (c :: m, r') := by
  simp only [split?, Option.ite_none_right_eq_some, Option.some.injEq, Prod.mk.injEq,
    List.cons.injEq, true_and] at hs
  obtain ⟨hc, htake, hdrop⟩ := hs
  have hm : ∀ d ∈ m, p d := by
    rw [← htake]
    exact List.all_eq_true.mp List.all_takeWhile
  have hr' : ∀ d, r'.head? = some d → p d = false := by
    intro d hd
    rcases h d hd with hhead | hblank
    · have hnot := List.head?_dropWhile_not p (m ++ r)
      rw [hdrop, hhead] at hnot
      simpa using hnot
    · exact hpattern d hblank
  obtain ⟨htake', hdrop'⟩ := span_append hm r' hr'
  rw [split?, if_pos hc, htake', hdrop']

/-- A match stays a match. -/
lemma split?_of_mayReplace (hpattern : pattern.EndsAtBlank) (h : MayReplace r' r)
    (hs : pattern.split? (c :: (m ++ r)) = some (c :: m, r)) :
    pattern.split? (c :: (m ++ r')) = some (c :: m, r') := by
  cases pattern with
  | one p =>
    obtain ⟨d, hd, hm⟩ := split?_one hs
    obtain ⟨rfl, rfl⟩ := List.cons.inj hm
    rw [List.nil_append, split?, if_pos hd]
  | run p => exact split?_run_of_mayReplace hpattern h hs
  | two p d =>
    obtain ⟨e, he, hm⟩ := split?_two hs
    obtain ⟨rfl, rfl⟩ := List.cons.inj hm
    rw [split?_two_cons, if_pos ⟨he, rfl⟩]
    rfl
  | oneOrTwo p d =>
    obtain ⟨e, he, hm | hm⟩ := split?_oneOrTwo hs
    · obtain ⟨rfl, rfl⟩ := List.cons.inj hm
      rw [split?_oneOrTwo_cons, if_pos he] at hs
      have hr : r.head? ≠ some d := by
        intro hhead
        simp [hhead] at hs
      rw [split?_oneOrTwo_cons, if_pos he]
      exact if_neg (h.head?_ne hpattern hr)
    · obtain ⟨rfl, rfl⟩ := List.cons.inj hm
      rw [split?_oneOrTwo_cons, if_pos he]
      exact if_pos rfl
  | quoted q => cases hpattern

/-- What is no match does not become one. -/
lemma split?_eq_none_of_mayReplace (hpattern : pattern.EndsAtBlank) (h : MayReplace r' r)
    (hs : pattern.split? (c :: (m ++ r)) = none) : pattern.split? (c :: (m ++ r')) = none := by
  cases pattern with
  | one p | run p => simpa [split?] using hs
  | two p d =>
    rw [split?_two_cons] at hs ⊢
    refine if_neg ?_
    rintro ⟨hc, hhead⟩
    cases m with
    | nil =>
      have hr : r.head? ≠ some d := by
        intro hhead
        simp [hc, hhead] at hs
      exact h.head?_ne hpattern hr hhead
    | cons e m =>
      obtain rfl := Option.some.inj hhead
      simp [hc] at hs
  | oneOrTwo p d =>
    rw [split?_oneOrTwo_cons] at hs ⊢
    refine if_neg fun hc => ?_
    rw [if_pos hc] at hs
    split at hs <;> cases hs
  | quoted q => cases hpattern

end Pattern

/-! ## Lexemes -/

/-- All rows but those of quoted texts end at a blank. -/
lemma endsAtBlank_of_mem_candidates {c : Char} (hc : ¬isQuote c) {row : Row}
    (hrow : row ∈ candidates c) : row.pattern.EndsAtBlank := by
  have hword (d : Char) (hd : Text.isBlank d) : isWordChar d = false := by
    cases hword : isWordChar d with
    | false => rfl
    | true => simp [not_isBlank_of_isWordChar hword] at hd
  have hdigit (d : Char) (hd : Text.isBlank d) : d.isDigit = false := by
    cases hdigit : d.isDigit with
    | false => rfl
    | true => simpa [hword d hd] using isWordChar_of_isDigit hdigit
  obtain ⟨hdouble, hsingle⟩ := not_or.mp hc
  obtain ⟨hmem, hstarts⟩ := List.mem_filter.mp hrow
  have hequals : Text.isBlank '=' = false := rfl
  have hand : Text.isBlank '&' = false := rfl
  have hor : Text.isBlank '|' = false := rfl
  revert row
  simp +contextual [tokenTable, Row.always, Pattern.starts, Pattern.EndsAtBlank, or_imp, hword,
    hdigit, hdouble, hsingle, hequals, hand, hor]

/-- The first row that matches stays the first one. -/
lemma findSome?_of_mayReplace {c : Char} {m : List Char} {k : Kind} {rows : List Row}
    (hrows : ∀ row ∈ rows, row.pattern.EndsAtBlank) (h : MayReplace r' r)
    (hx : rows.findSome? (·.lexeme? (c :: (m ++ r))) = some ⟨k, c :: m, r⟩) :
    rows.findSome? (·.lexeme? (c :: (m ++ r'))) = some ⟨k, c :: m, r'⟩ := by
  induction rows with
  | nil => cases hx
  | cons row rows ih =>
    obtain ⟨hrow, hrows⟩ := List.forall_mem_cons.mp hrows
    rw [List.findSome?_cons] at hx ⊢
    cases hs : row.pattern.split? (c :: (m ++ r)) with
    | none =>
      have hs' := Pattern.split?_eq_none_of_mayReplace hrow h hs
      simp only [Row.lexeme?, hs, Option.map_none] at hx
      simp only [Row.lexeme?, hs', Option.map_none]
      exact ih hrows hx
    | some split =>
      simp only [Row.lexeme?, hs, Option.map_some, Option.some.injEq, Lexeme.mk.injEq] at hx
      obtain ⟨hk, hm, hr⟩ := hx
      have hs' := Pattern.split?_of_mayReplace hrow h (hs.trans (by rw [← hm, ← hr]))
      simp only [Row.lexeme?, hs', Option.map_some, ← hk, hm]

/-- A quoted text ends at its closing quote, whatever stands behind it. -/
lemma exists_quoted_of_lexeme? {q : Char} (hq : isQuote q) {cs : List Char} {x : Lexeme}
    (hx : lexeme? (q :: cs) = some x) :
    ∃ inner, q ∉ inner ∧ x.kind = .string ∧ x.text = q :: inner ++ [q] := by
  rw [lexeme?_cons, candidates_of_isQuote hq, List.findSome?_singleton] at hx
  obtain ⟨⟨text, rest⟩, hsplit, rfl⟩ := Option.map_eq_some_iff.mp hx
  obtain ⟨inner, hinner, rfl⟩ := Pattern.split?_quoted hsplit
  exact ⟨inner, hinner, rfl, rfl⟩

/-- **A token does not depend on what stands behind it**, but for a first character that it could go
on with. -/
lemma lexeme?_of_mayReplace {x : Lexeme} (hx : lexeme? (x.text ++ x.rest) = some x)
    (h : MayReplace r' x.rest) : lexeme? (x.text ++ r') = some ⟨x.kind, x.text, r'⟩ := by
  obtain ⟨c, m, htext⟩ := List.exists_cons_of_ne_nil (text_ne_nil_of_lexeme? hx)
  by_cases hc : isQuote c
  · rw [htext, List.cons_append] at hx
    obtain ⟨inner, hinner, hkind, hquoted⟩ := exists_quoted_of_lexeme? hc hx
    rw [hkind, hquoted, List.append_assoc]
    exact lexeme?_quoted hc hinner r'
  · obtain ⟨k, text, rest⟩ := x
    obtain rfl : text = c :: m := htext
    rw [List.cons_append, lexeme?_cons] at hx ⊢
    exact findSome?_of_mayReplace (fun row => endsAtBlank_of_mem_candidates hc) h hx

/-! ## Sources -/

lemma Scans.blanks {bs cs : List Char} {ws : List Word} (h : Scans cs ws) (hbs : Text.Blank bs) :
    Scans (bs ++ cs) ws := by
  induction bs with
  | nil => exact h
  | cons b bs ih =>
    obtain ⟨hb, hbs⟩ := List.forall_mem_cons.mp hbs
    exact (ih hbs).blank hb

/-- The place where a scan has come to when it has yielded all but `items`: the beginning of the
next token, or the end. -/
def Cursor.cutAt (c : Cursor) : List (Except Error Token) → Nat
  | .ok t :: _ => t.span.start.offset
  | _ => c.finish.offset

lemma Cursor.cutAt_eq {c d : Cursor} (h : d.finish = c.finish) (items : List (Except Error Token)) :
    d.cutAt items = c.cutAt items := by
  unfold cutAt
  split
  · rfl
  · rw [h]

/-- **A source may be cut off in front of any of its tokens**, or at its end, and continued by
a text that begins with a blank: the words before the cut stay what they are. -/
theorem Cursor.exists_cut (file : String) (c : Cursor) (ts : List Token)
    (items : List (Except Error Token)) (hitems : ∀ e, items.head? ≠ some (.error e))
    (h : (c.drain file).1 = ts.map .ok ++ items) :
    ∃ pre post, c.rest = pre ++ post ∧ c.offset + Text.size pre = c.cutAt items ∧
      ∀ text us, (∀ ch, text.head? = some ch → Text.isBlank ch) → Scans text us →
        Scans (pre ++ text) (ts.map Token.word ++ us) := by
  induction ts generalizing c with
  | nil =>
    rw [List.map_nil, List.nil_append] at h
    have hstep := next_step file c
    generalize hnext : c.next file = result at hstep
    cases hstep with
    | done hblank =>
      rw [drain_of_next_none hnext] at h
      subst h
      exact ⟨c.rest, [], (List.append_nil _).symm, rfl, fun text us _ hus => hus.blanks hblank⟩
    | token bs x hbs hrest hx =>
      rw [drain_of_next_some hnext] at h
      subst h
      exact ⟨bs, _, hrest, rfl, fun text us _ hus => hus.blanks hbs⟩
    | refusal =>
      rw [drain_of_next_some hnext] at h
      subst h
      exact absurd rfl (hitems _)
  | cons t ts ih =>
    have hstep := next_step file c
    generalize hnext : c.next file = result at hstep
    cases hstep with
    | done =>
      rw [drain_of_next_none hnext] at h
      cases h
    | token bs x hbs hrest hx =>
      rw [drain_of_next_some hnext] at h
      obtain ⟨ht, hts⟩ := List.cons.inj h
      obtain rfl := Except.ok.inj ht
      obtain ⟨pre, post, hpre, hoffset, hscans⟩ := ih _ hts
      have hpre : x.rest = pre ++ post := hpre
      refine ⟨bs ++ (x.text ++ pre), post, ?_, ?_, fun text us htext hus => ?_⟩
      · rw [hrest, hpre, List.append_assoc, List.append_assoc]
      · have hfinish : (⟨c.offset + Text.size bs + Text.size x.text, x.rest⟩ : Cursor).finish =
            c.finish := by
          simp [finish, hrest, Nat.add_assoc]
        rw [cutAt_eq hfinish] at hoffset
        simpa [Nat.add_assoc] using hoffset
      · -- What stands behind the lexeme begins as before, or with the blank of the new text.
        have hreplace : MayReplace (pre ++ text) x.rest := hpre ▸ mayReplace_append htext
        have hx' := lexeme?_of_mayReplace hx hreplace
        rw [List.append_assoc, List.append_assoc]
        exact .cons (x := ⟨x.kind, x.text, pre ++ text⟩) hbs hx' (hscans text us htext hus)
    | refusal =>
      rw [drain_of_next_some hnext] at h
      cases (List.cons.inj h).1

end Scriptlet
