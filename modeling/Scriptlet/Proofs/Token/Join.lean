/-
# Joining texts

Two texts are scanned one after the other if the last token of the first one does not go on into the
second.  Then the tokens of the first text stay where they are, and what the second text holds is
only moved: by the bytes of the first text, which is all that a cursor knows of the text before it.
No token goes on over a blank, and so a blank between two sources is enough.

Where a text cannot be scanned to its end, it may be cut off in front of the character that is
refused: what is left is scanned to its end, also with blanks and another text behind it.
-/
import Scriptlet.Proofs.Token.Cut

namespace Scriptlet

/-! ## Moving -/

/-- The place `k` bytes further on. -/
def Position.shift (k : Nat) (p : Position) : Position := ⟨p.offset + k, p.file⟩

/-- A token that stands `k` bytes further on. -/
def Token.shift (k : Nat) (t : Token) : Token :=
  ⟨t.kind, t.value, ⟨t.span.start.shift k, t.span.stop.shift k⟩⟩

/-- An error that is found `k` bytes further on. -/
def Error.shift (k : Nat) (e : Error) : Error := ⟨e.cause, e.position.shift k⟩

/-- What a scan yields, `k` bytes further on. -/
def shiftItem (k : Nat) : Except Error Token → Except Error Token
  | .ok t => .ok (t.shift k)
  | .error e => .error (e.shift k)

/-- Every word is read off some text that goes on behind it. -/
lemma Scans.exists_lexeme {cs : List Char} {ws : List Word} (h : Scans cs ws) :
    ∀ w ∈ ws, ∃ rest, lexeme? (w.text.toList ++ rest) = some ⟨w.kind, w.text.toList, rest⟩ := by
  induction h with
  | nil => simp
  | @cons _ x _ _ hx _ ih =>
    refine List.forall_mem_cons.mpr ⟨⟨x.rest, ?_⟩, ih⟩
    rw [Lexeme.word, String.toList_ofList]
    exact hx

namespace Cursor

variable {file : String} {c d : Cursor}

/-- The same text with `k` more bytes before it. -/
def shift (k : Nat) (c : Cursor) : Cursor := ⟨c.offset + k, c.rest⟩

lemma skipBlanks_shift (k : Nat) (c : Cursor) : (c.shift k).skipBlanks = c.skipBlanks.shift k := by
  simp [shift, skipBlanks, Nat.add_right_comm]

lemma read_shift (file : String) (k : Nat) (c : Cursor) :
    (c.shift k).read file = ((c.read file).1.map (shiftItem k), (c.read file).2.shift k) := by
  obtain ⟨offset, rest⟩ := c
  cases rest with
  | nil => rfl
  | cons ch cs =>
    cases hx : lexeme? (ch :: cs) with
    | none =>
      simp [shift, read, hx, finish, shiftItem, Error.shift, Position.shift, Nat.add_right_comm]
    | some x =>
      simp [shift, read, hx, shiftItem, Token.shift, Position.shift, Nat.add_right_comm]

/-- A step of a scan does not depend on what is before the cursor, but for the places it yields. -/
lemma next_shift (file : String) (k : Nat) (c : Cursor) :
    (c.shift k).next file = ((c.next file).1.map (shiftItem k), (c.next file).2.shift k) := by
  rw [next, skipBlanks_shift, read_shift]
  rfl

/-- **A scan from further on yields the same, further on.** -/
theorem drain_shift (file : String) (k : Nat) (c : Cursor) :
    ((c.shift k).drain file).1 = (c.drain file).1.map (shiftItem k) := by
  induction hn : c.rest.length using Nat.strongRecOn generalizing c with
  | ind n ih =>
    have hshift := next_shift file k c
    cases hnext : c.next file with
    | mk item d =>
      rw [hnext] at hshift
      cases item with
      | none =>
        rw [drain_of_next_none hnext, drain_of_next_none hshift]
        rfl
      | some item =>
        have hlt : d.rest.length < n := hn ▸ length_rest_next_lt hnext
        rw [drain_of_next_some hnext, drain_of_next_some hshift, List.map_cons, ih _ hlt d rfl]

/-! ## One text behind another -/

/-- Blanks in front of a text only move it. -/
lemma next_blanks (file : String) {bs cs : List Char} (hbs : Text.Blank bs) (offset : Nat) :
    (⟨offset, bs ++ cs⟩ : Cursor).next file = (⟨offset + Text.size bs, cs⟩ : Cursor).next file := by
  have hskip : (⟨offset, bs ++ cs⟩ : Cursor).skipBlanks =
      (⟨offset + Text.size bs, cs⟩ : Cursor).skipBlanks := by
    simp only [skipBlanks, List.takeWhile_append_of_pos hbs, List.dropWhile_append_of_pos hbs,
      Text.size_append, Nat.add_assoc]
  rw [next, next, hskip]

lemma drain_eq_of_next_eq (h : c.next file = d.next file) : c.drain file = d.drain file := by
  cases hnext : d.next file with
  | mk item last =>
    rw [hnext] at h
    cases item with
    | none => rw [drain_of_next_none h, drain_of_next_none hnext]
    | some item => rw [drain_of_next_some h, drain_of_next_some hnext]

/-- A lexeme stays the same if text is added at the end, unless it reached up to the end. -/
lemma lexeme?_append {x : Lexeme} {cs : List Char} (hx : lexeme? (x.text ++ x.rest) = some x)
    (hrest : x.rest ≠ []) :
    lexeme? (x.text ++ (x.rest ++ cs)) = some ⟨x.kind, x.text, x.rest ++ cs⟩ := by
  obtain ⟨d, ds, hds⟩ := List.exists_cons_of_ne_nil hrest
  refine lexeme?_of_mayReplace hx fun c hc => .inl ?_
  rw [hds] at hc ⊢
  exact hc

/-- **The scan of a text goes on into the text behind it**, if the last token of the first text is
the same with the second text behind it. -/
theorem drain_append {ts : List Token} {cs : List Char} (h : (c.drain file).1 = ts.map .ok)
    (hlast : ∀ t, ts.getLast? = some t →
      lexeme? (t.value.toList ++ cs) = some ⟨t.kind, t.value.toList, cs⟩) :
    ((⟨c.offset, c.rest ++ cs⟩ : Cursor).drain file).1 =
      ts.map .ok ++ ((⟨c.offset + Text.size c.rest, cs⟩ : Cursor).drain file).1 := by
  induction ts generalizing c with
  | nil =>
    have hstep := next_step file c
    generalize hnext : c.next file = result at hstep
    cases hstep with
    | done hblank => exact congrArg Prod.fst (drain_eq_of_next_eq (next_blanks file hblank c.offset))
    | token | refusal =>
      rw [drain_of_next_some hnext] at h
      cases h
  | cons t ts ih =>
    have hstep := next_step file c
    generalize hnext : c.next file = result at hstep
    cases hstep with
    | done =>
      rw [drain_of_next_none hnext] at h
      cases h
    | refusal =>
      rw [drain_of_next_some hnext] at h
      cases (List.cons.inj h).1
    | token bs x hbs hrest hx =>
      rw [drain_of_next_some hnext] at h
      obtain ⟨ht, hts⟩ := List.cons.inj h
      obtain rfl := Except.ok.inj ht
      -- Where nothing is left behind the lexeme, it is the last one.
      have hx' : lexeme? (x.text ++ (x.rest ++ cs)) = some ⟨x.kind, x.text, x.rest ++ cs⟩ := by
        by_cases hnil : x.rest = []
        · rw [drain_of_rest_nil hnil] at hts
          obtain rfl : ts = [] := List.map_eq_nil_iff.mp hts.symm
          simpa [hnil, Lexeme.token] using hlast _ rfl
        · exact lexeme?_append hx hnil
      have hlast' : ∀ u, ts.getLast? = some u →
          lexeme? (u.value.toList ++ cs) = some ⟨u.kind, u.value.toList, cs⟩ := by
        intro u hu
        refine hlast u ?_
        rw [List.getLast?_cons, hu]
        rfl
      have hnext' := next_of_lexeme (c := ⟨c.offset, c.rest ++ cs⟩)
        (x := ⟨x.kind, x.text, x.rest ++ cs⟩) file hbs (by simp [hrest]) hx'
      rw [drain_of_next_some hnext', ih hts hlast', List.map_cons, List.cons_append]
      simp [hrest, Lexeme.token, Nat.add_assoc]

/-- The scan of a text goes on into a text that begins with a blank. -/
lemma drain_append_blank {ts : List Token} {cs : List Char} (h : (c.drain file).1 = ts.map .ok)
    (hcs : ∀ ch, cs.head? = some ch → Text.isBlank ch) :
    ((⟨c.offset, c.rest ++ cs⟩ : Cursor).drain file).1 =
      ts.map .ok ++ ((⟨c.offset + Text.size c.rest, cs⟩ : Cursor).drain file).1 := by
  refine drain_append h fun t ht => ?_
  have hmem : t.word ∈ ts.map Token.word := List.mem_map_of_mem (List.mem_of_getLast? ht)
  obtain ⟨rest, hx⟩ := (scans_of_drain h).exists_lexeme t.word hmem
  exact lexeme?_of_mayReplace (x := ⟨t.kind, t.value.toList, rest⟩) hx
    fun ch hch => .inr (hcs ch hch)

/-! ## Cutting off a lexical error -/

/-- **A source may be cut off in front of its lexical error** and continued by a text that begins
with a blank: the tokens before the cut stay where they are. -/
theorem exists_cut_error {ts : List Token} {e : Error}
    (h : (c.drain file).1 = ts.map .ok ++ [.error e]) :
    ∃ pre post, c.rest = pre ++ post ∧ c.offset + Text.size pre = e.position.offset ∧
      ∀ text, (∀ ch, text.head? = some ch → Text.isBlank ch) →
        ((⟨c.offset, pre ++ text⟩ : Cursor).drain file).1 =
          ts.map .ok ++ ((⟨c.offset + Text.size pre, text⟩ : Cursor).drain file).1 := by
  induction ts generalizing c with
  | nil =>
    have hstep := next_step file c
    generalize hnext : c.next file = result at hstep
    cases hstep with
    | done =>
      rw [drain_of_next_none hnext] at h
      cases h
    | token =>
      rw [drain_of_next_some hnext] at h
      cases (List.cons.inj h).1
    | refusal bs ch cs hbs hrest =>
      rw [drain_of_next_some hnext] at h
      obtain rfl := Except.error.inj (List.cons.inj h).1
      refine ⟨bs, ch :: cs, hrest, rfl, fun text _ => ?_⟩
      exact congrArg Prod.fst (drain_eq_of_next_eq (next_blanks file hbs c.offset))
  | cons t ts ih =>
    have hstep := next_step file c
    generalize hnext : c.next file = result at hstep
    cases hstep with
    | done =>
      rw [drain_of_next_none hnext] at h
      cases h
    | refusal =>
      rw [drain_of_next_some hnext] at h
      cases (List.cons.inj h).1
    | token bs x hbs hrest hx =>
      rw [drain_of_next_some hnext] at h
      obtain ⟨ht, hts⟩ := List.cons.inj h
      obtain rfl := Except.ok.inj ht
      obtain ⟨pre, post, hpre, hoffset, hdrain⟩ := ih hts
      have hpre : x.rest = pre ++ post := hpre
      refine ⟨bs ++ (x.text ++ pre), post, ?_, ?_, fun text htext => ?_⟩
      · rw [hrest, hpre, List.append_assoc, List.append_assoc]
      · simpa [Nat.add_assoc] using hoffset
      · have hreplace : MayReplace (pre ++ text) x.rest := hpre ▸ mayReplace_append htext
        have hx' := lexeme?_of_mayReplace hx hreplace
        have hnext' := next_of_lexeme (c := ⟨c.offset, bs ++ (x.text ++ pre) ++ text⟩)
          (x := ⟨x.kind, x.text, pre ++ text⟩) file hbs (by simp) hx'
        rw [drain_of_next_some hnext', hdrain text htext, List.map_cons, List.cons_append]
        simp [Lexeme.token, Nat.add_assoc]

end Cursor

/-! ## Sources with blanks between them -/

/-- The tokens and the error of a scan that is moved are those of the scan, moved. -/
lemma mapM_id_map_shiftItem (k : Nat) (items : List (Except Error Token)) :
    (items.map (shiftItem k)).mapM id =
      ((items.mapM id).map (List.map (Token.shift k))).mapError (Error.shift k) := by
  induction items with
  | nil => rfl
  | cons item items ih =>
    cases item with
    | error e =>
      rw [List.map_cons, shiftItem, mapM_id_error_cons, mapM_id_error_cons]
      rfl
    | ok t =>
      rw [List.map_cons, shiftItem, mapM_id_ok_cons, mapM_id_ok_cons, ih]
      cases items.mapM id <;> rfl

/-- The scan of a text goes on behind blanks as if a text began there. -/
lemma Cursor.drain_across_blanks {file : String} {cs bs ds : List Char} {ts : List Token}
    (h : ((Cursor.start cs).drain file).1 = ts.map .ok) (hne : bs ≠ []) (hbs : Text.Blank bs) :
    ((Cursor.start (cs ++ bs ++ ds)).drain file).1 =
      ts.map .ok ++
        ((Cursor.start ds).drain file).1.map (shiftItem (Text.size cs + Text.size bs)) := by
  obtain ⟨b, bs', rfl⟩ := List.exists_cons_of_ne_nil hne
  have hhead : ∀ ch, (b :: bs' ++ ds).head? = some ch → Text.isBlank ch := by
    intro ch hch
    obtain rfl := Option.some.inj hch
    exact hbs b List.mem_cons_self
  have hskip : drain file ⟨0 + Text.size cs, b :: bs' ++ ds⟩ =
      drain file ⟨0 + Text.size cs + Text.size (b :: bs'), ds⟩ :=
    drain_eq_of_next_eq (next_blanks file hbs _)
  have hplace : (⟨0 + Text.size cs + Text.size (b :: bs'), ds⟩ : Cursor) =
      (start ds).shift (Text.size cs + Text.size (b :: bs')) := by
    rw [shift, start, Nat.zero_add, Nat.zero_add]
  have happend := drain_append_blank h hhead
  rw [← drain_shift, ← hplace, ← hskip, List.append_assoc]
  exact happend

/-- **Blanks separate.**  Behind a source that is scanned to its end, and at least one blank,
another source is scanned as if it stood alone: its tokens follow those of the first source, or its
error is the error of the whole, moved by the bytes before it. -/
theorem tokenize_across_blanks (source blanks source' : String) (file : Option String)
    (ts : List Token) (h : tokenize source file = .ok ts) (hne : blanks ≠ "")
    (hblanks : ∀ c ∈ blanks.toList, Text.isBlank c) :
    tokenize (source ++ blanks ++ source') file =
      match tokenize source' file with
      | .ok us => .ok (ts ++ us.map (Token.shift (Text.bytes source + Text.bytes blanks)))
      | .error e => .error (e.shift (Text.bytes source + Text.bytes blanks)) := by
  have hne' : blanks.toList ≠ [] := fun hnil => hne (String.toList_eq_nil_iff.mp hnil)
  have hscan := tokenize_eq_ok_iff.mp h
  rw [tokenize, String.toList_append, String.toList_append,
    Cursor.drain_across_blanks hscan hne' hblanks, mapM_id_append, mapM_id_map_shiftItem,
    ← tokenize]
  cases tokenize source' file <;> rfl

/-- With an em space between them, the two signs of `x =` and `= 1` stay apart, and what is refused
in `1 '` is refused six bytes further on. -/
theorem tokenize_across_blanks_em_space :
    "\u2003" ≠ "" ∧ (∀ c ∈ "\u2003".toList, Text.isBlank c) ∧
    tokenize "x =" none =
      .ok [⟨.identifier, "x", ⟨⟨0, "shell"⟩, ⟨1, "shell"⟩⟩⟩,
        ⟨.simpleAssign, "=", ⟨⟨2, "shell"⟩, ⟨3, "shell"⟩⟩⟩] ∧
    tokenize ("x =" ++ "\u2003" ++ "= 1") none =
      .ok [⟨.identifier, "x", ⟨⟨0, "shell"⟩, ⟨1, "shell"⟩⟩⟩,
        ⟨.simpleAssign, "=", ⟨⟨2, "shell"⟩, ⟨3, "shell"⟩⟩⟩,
        ⟨.simpleAssign, "=", ⟨⟨6, "shell"⟩, ⟨7, "shell"⟩⟩⟩,
        ⟨.number, "1", ⟨⟨8, "shell"⟩, ⟨9, "shell"⟩⟩⟩] ∧
    tokenize ("x =" ++ "\u2003" ++ "1 '") none =
      .error ⟨.unrecognised "'", ⟨8, "shell"⟩⟩ := by
  have h : tokenize "x =" none =
      .ok [⟨.identifier, "x", ⟨⟨0, "shell"⟩, ⟨1, "shell"⟩⟩⟩,
        ⟨.simpleAssign, "=", ⟨⟨2, "shell"⟩, ⟨3, "shell"⟩⟩⟩] := by cbv
  have htokens : tokenize "= 1" none =
      .ok [⟨.simpleAssign, "=", ⟨⟨0, "shell"⟩, ⟨1, "shell"⟩⟩⟩,
        ⟨.number, "1", ⟨⟨2, "shell"⟩, ⟨3, "shell"⟩⟩⟩] := by cbv
  have herror : tokenize "1 '" none = .error ⟨.unrecognised "'", ⟨2, "shell"⟩⟩ := by cbv
  have hne : "\u2003" ≠ "" := by decide
  have hspace : Text.isBlank '\u2003' := rfl
  have hblank : ∀ c ∈ "\u2003".toList, Text.isBlank c := by simp [hspace]
  refine ⟨hne, hblank, h, ?_, ?_⟩
  · rw [tokenize_across_blanks _ _ _ none _ h hne hblank, htokens]
    rfl
  · rw [tokenize_across_blanks _ _ _ none _ h hne hblank, herror]
    rfl

end Scriptlet
