/-
# The course of a scan

`Cursor.Step` lists all that one step of a scan can do: find only blanks up to the end, yield a
token behind some blanks, or refuse the character behind them.  Everything about a whole scan is
derived from this list by induction along `Cursor.drain`.
-/
import Scriptlet.Proofs.Token.Lexeme
import Scriptlet.Token.Cursor

namespace Scriptlet

/-- A text of blanks only. -/
def Text.Blank (cs : List Char) : Prop := ∀ c ∈ cs, Text.isBlank c

/-- The token of a lexeme that stands `n` bytes into a source. -/
def Lexeme.token (x : Lexeme) (file : String) (n : Nat) : Token :=
  ⟨x.kind, String.ofList x.text, ⟨⟨n, file⟩, ⟨n + Text.size x.text, file⟩⟩⟩

namespace Cursor

/-! ## One step -/

/-- What a step of a scan from the cursor `c` can yield, and where it leaves the cursor. -/
inductive Step (file : String) (c : Cursor) : Option (Except Error Token) × Cursor → Prop
  /-- Only blanks are left. -/
  | done (hblank : Text.Blank c.rest) : Step file c (none, c.finish)
  /-- Behind some blanks there is a token. -/
  | token (bs : List Char) (x : Lexeme) (hbs : Text.Blank bs)
      (hrest : c.rest = bs ++ (x.text ++ x.rest)) (hx : lexeme? (x.text ++ x.rest) = some x) :
      Step file c (some (.ok (x.token file (c.offset + Text.size bs))),
        ⟨c.offset + Text.size bs + Text.size x.text, x.rest⟩)
  /-- Behind some blanks there is a character with which no token begins. -/
  | refusal (bs : List Char) (ch : Char) (cs : List Char) (hbs : Text.Blank bs)
      (hrest : c.rest = bs ++ ch :: cs) (hx : lexeme? (ch :: cs) = none) :
      Step file c (some (.error ⟨.unrecognised (String.singleton ch),
        ⟨c.offset + Text.size bs, file⟩⟩), c.finish)

lemma blank_takeWhile (cs : List Char) : Text.Blank (cs.takeWhile Text.isBlank) :=
  List.all_eq_true.mp List.all_takeWhile

lemma finish_skipBlanks (c : Cursor) : c.skipBlanks.finish = c.finish := by
  have hsize : Text.size (c.rest.takeWhile Text.isBlank) +
      Text.size (c.rest.dropWhile Text.isBlank) = Text.size c.rest := by
    rw [← Text.size_append, List.takeWhile_append_dropWhile]
  simp only [finish, skipBlanks, Nat.add_assoc, hsize]

/-- Every step of a scan is one of the listed ones. -/
theorem next_step (file : String) (c : Cursor) : Step file c (c.next file) := by
  have hsplit : c.rest.takeWhile Text.isBlank ++ c.skipBlanks.rest = c.rest :=
    List.takeWhile_append_dropWhile
  have hbs := blank_takeWhile c.rest
  rw [next, read]
  split
  · next hnil =>
    have hrest : c.rest.takeWhile Text.isBlank = c.rest := by
      rw [hnil, List.append_nil] at hsplit
      exact hsplit
    have hfin : c.skipBlanks = c.finish := by
      rw [finish, ← hrest, ← hnil]
      rfl
    rw [hfin]
    exact .done (hrest ▸ hbs)
  · next ch cs hcons =>
    rw [hcons] at hsplit
    split
    · next x hx =>
      rw [hcons] at hx
      have happ := append_of_lexeme? hx
      rw [← happ] at hx hsplit
      exact .token _ x hbs hsplit.symm hx
    · next hx =>
      rw [hcons] at hx
      rw [finish_skipBlanks]
      exact .refusal _ ch cs hbs hsplit.symm hx

/-- Where only blanks are left, a step comes to the end. -/
lemma next_of_blank {c : Cursor} (file : String) (hblank : Text.Blank c.rest) :
    c.next file = (none, c.finish) := by
  obtain ⟨htake, hdrop⟩ := span_append hblank [] (by simp)
  rw [List.append_nil] at htake hdrop
  rw [next, skipBlanks, htake, hdrop]
  rfl

/-- An error is that no token begins with a character, which stands before the end of the source.
Then the scan is at the end. -/
lemma refusal_of_next {file : String} {c d : Cursor} {e : Error}
    (h : c.next file = (some (.error e), d)) :
    d = c.finish ∧ (∃ text, e.cause = .unrecognised text) ∧ e.position.offset < d.offset := by
  have hstep := next_step file c
  rw [h] at hstep
  cases hstep with
  | refusal bs ch cs hbs hrest hx =>
    refine ⟨rfl, ⟨_, rfl⟩, ?_⟩
    have hpos := ch.utf8Size_pos
    simp only [finish, hrest, Text.size_append, Text.size_cons]
    omega

/-- Where a lexeme comes behind blanks, a step yields its token. -/
lemma next_of_lexeme {c : Cursor} (file : String) {bs : List Char} {x : Lexeme}
    (hbs : Text.Blank bs) (hrest : c.rest = bs ++ (x.text ++ x.rest))
    (hx : lexeme? (x.text ++ x.rest) = some x) :
    c.next file = (some (.ok (x.token file (c.offset + Text.size bs))),
      ⟨c.offset + Text.size bs + Text.size x.text, x.rest⟩) := by
  obtain ⟨ch, cs, htext⟩ := List.exists_cons_of_ne_nil (text_ne_nil_of_lexeme? hx)
  have hch : Text.isBlank ch = false := by
    rw [htext] at hx
    exact not_isBlank_of_lexeme? hx
  -- The blanks in front are all skipped, and nothing of the lexeme.
  obtain ⟨htake, hdrop⟩ := span_append hbs (x.text ++ x.rest) (by simp [htext, hch])
  rw [← hrest] at htake hdrop
  rw [next, skipBlanks, htake, hdrop, read]
  simp only [htext, List.cons_append]
  rw [htext, List.cons_append] at hx
  rw [hx]
  simp only [htext, Lexeme.token]

/-! ## A whole scan -/

lemma drain_of_next_none {file : String} {c d : Cursor} (h : c.next file = (none, d)) :
    c.drain file = ([], d) := by
  rw [drain]
  split
  · next hnext =>
    obtain rfl : d = _ := by simpa using h.symm.trans hnext
    rfl
  · next hnext => simp [h] at hnext

lemma drain_of_next_some {file : String} {c d : Cursor} {item : Except Error Token}
    (h : c.next file = (some item, d)) :
    c.drain file = (item :: (d.drain file).1, (d.drain file).2) := by
  rw [drain]
  split
  · next hnext => simp [h] at hnext
  · next hnext =>
    obtain ⟨rfl, rfl⟩ : item = _ ∧ d = _ := by simpa using h.symm.trans hnext
    rfl

/-- What a scan yields first is what its first step yields. -/
lemma exists_next_of_drain {file : String} {c : Cursor} {item : Except Error Token}
    {items : List (Except Error Token)} (h : (c.drain file).1 = item :: items) :
    ∃ d, c.next file = (some item, d) := by
  obtain ⟨item?, d, hnext⟩ : ∃ item? d, c.next file = (item?, d) := ⟨_, _, rfl⟩
  cases item? with
  | none => simp [drain_of_next_none hnext] at h
  | some item' =>
    rw [drain_of_next_some hnext] at h
    obtain ⟨rfl, -⟩ := List.cons.inj h
    exact ⟨d, hnext⟩

lemma next_of_rest_nil {file : String} {c : Cursor} (h : c.rest = []) :
    c.next file = (none, c) := by
  obtain ⟨offset, rest⟩ := c
  subst h
  rfl

/-- At the end of the source nothing more is yielded. -/
lemma drain_of_rest_nil {file : String} {c : Cursor} (h : c.rest = []) :
    c.drain file = ([], c) :=
  drain_of_next_none (next_of_rest_nil h)

end Cursor

/-! ## The tokens of a source -/

lemma mapM_id_ok_cons {ε α : Type} (a : α) (items : List (Except ε α)) :
    (Except.ok a :: items).mapM id = (items.mapM id).map (a :: ·) := by
  rw [List.mapM_cons]
  cases items.mapM id <;> rfl

lemma mapM_id_error_cons {ε α : Type} (e : ε) (items : List (Except ε α)) :
    (Except.error e :: items).mapM id = .error e := by
  rw [List.mapM_cons]
  rfl

lemma mapM_id_eq_ok_iff {ε α : Type} {items : List (Except ε α)} {as : List α} :
    items.mapM id = .ok as ↔ items = as.map .ok := by
  induction items generalizing as with
  | nil => cases as <;> simp [pure, Except.pure]
  | cons item items ih =>
    cases item with
    | error e =>
      rw [mapM_id_error_cons]
      cases as <;> simp
    | ok a =>
      rw [mapM_id_ok_cons]
      constructor
      · intro h
        cases hitems : items.mapM id with
        | error e => simp [hitems, Except.map] at h
        | ok bs =>
          obtain rfl : a :: bs = as := by simpa [hitems, Except.map] using h
          rw [ih.mp hitems, List.map_cons]
      · intro h
        cases as with
        | nil => simp at h
        | cons b bs =>
          obtain ⟨rfl, hitems⟩ : a = b ∧ items = bs.map .ok := by simpa using h
          rw [ih.mpr hitems]
          rfl

lemma mapM_id_append {ε α : Type} (as : List α) (items : List (Except ε α)) :
    (as.map Except.ok ++ items).mapM id = (items.mapM id).map (as ++ ·) := by
  induction as with
  | nil =>
    rw [List.map_nil, List.nil_append]
    cases items.mapM id <;> rfl
  | cons a as ih =>
    rw [List.map_cons, List.cons_append, mapM_id_ok_cons, ih]
    cases items.mapM id <;> rfl

lemma mapM_id_append_error {ε α : Type} (as : List α) (e : ε) (items : List (Except ε α)) :
    (as.map Except.ok ++ Except.error e :: items).mapM id = .error e := by
  rw [mapM_id_append, mapM_id_error_cons]
  rfl

/-- The scan of a source gives the tokens `ts` exactly when it yields just these. -/
theorem tokenize_eq_ok_iff {source : String} {file : Option String} {ts : List Token} :
    tokenize source file = .ok ts ↔
      ((Cursor.start source.toList).drain (file.getD defaultFile)).1 = ts.map .ok :=
  mapM_id_eq_ok_iff

end Scriptlet
