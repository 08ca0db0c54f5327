/-
# The tokens tile the source

The spans of the tokens of a source cover it from left to right: each token is the text of its
own span, and between the spans there is nothing but blanks.  The same holds up to the place of
an error, where a single character stands with which no token begins.

Since a cursor counts bytes and holds characters, the invariant of the scan is that the source is
a text of `offset` bytes followed by the characters that are left (`Cursor.IsAt`).
-/
import Scriptlet.Proofs.Text.Slice
import Scriptlet.Proofs.Token.Scan

namespace Scriptlet

/-! ## Texts and spans -/

/-- The bytes of a source from `a` up to `b` are blanks. -/
structure BlankBetween (source : String) (a b : Nat) : Prop where
  /-- The two offsets are in order. -/
  le : a ≤ b
  /-- The text between them is blank. -/
  slice_blank : ∃ bs, Text.slice? a b source.toList = some bs ∧ Text.Blank bs

/-- A token is the text of its own span in a source. -/
structure Token.StandsIn (t : Token) (source file : String) : Prop where
  start_lt_stop : t.span.start.offset < t.span.stop.offset
  stop_le : t.span.stop.offset ≤ Text.bytes source
  start_boundary : Text.IsBoundary t.span.start.offset source.toList
  stop_boundary : Text.IsBoundary t.span.stop.offset source.toList
  slice_eq : Text.slice? t.span.start.offset t.span.stop.offset source.toList = some t.value.toList
  start_file : t.span.start.file = file
  stop_file : t.span.stop.file = file

/-- An error refuses the single character of a source at its position. -/
structure Error.Refuses (e : Error) (source file : String) : Prop where
  boundary : Text.IsBoundary e.position.offset source.toList
  position_file : e.position.file = file
  /-- The cause carries the character that stands at the position. -/
  cause_eq : ∃ ch, e.cause = .unrecognised (String.singleton ch) ∧
    Text.slice? e.position.offset (e.position.offset + ch.utf8Size) source.toList = some [ch]

/-- Tokens tile a source from the byte `a` to the byte `b`: each one stands in it behind the one
before, and the text before, between and behind them is blank. -/
def Tiled (source file : String) : Nat → List Token → Nat → Prop
  | a, [], b => BlankBetween source a b
  | a, t :: ts, b =>
    BlankBetween source a t.span.start.offset ∧ t.StandsIn source file ∧
      Tiled source file t.span.stop.offset ts b

/-- The tokens that come before the end of a scan, or before the first error in it. -/
def leadingTokens : List (Except Error Token) → List Token
  | .ok t :: items => t :: leadingTokens items
  | .error _ :: _ | [] => []

lemma leadingTokens_append (ts : List Token) (items : List (Except Error Token)) :
    leadingTokens (ts.map .ok ++ items) = ts ++ leadingTokens items := by
  induction ts with
  | nil => rfl
  | cons t ts ih => rw [List.map_cons, List.cons_append, leadingTokens, ih, List.cons_append]

/-- The tokens that the scan of a source yields before it ends or errs. -/
def scannedTokens (source : String) (file : Option String) : List Token :=
  leadingTokens ((Cursor.start source.toList).drain (file.getD defaultFile)).1

/-! ## The invariant of the scan -/

/-- A cursor that stands in a source: as many bytes of text as it counts come before the
characters it still has. -/
def Cursor.IsAt (c : Cursor) (source : String) : Prop :=
  ∃ pre, source.toList = pre ++ c.rest ∧ Text.size pre = c.offset

namespace Cursor

variable {source file : String} {c : Cursor}

lemma isAt_start (source : String) : (start source.toList).IsAt source :=
  ⟨[], rfl, rfl⟩

/-- Moving over a text that comes next keeps the invariant. -/
lemma IsAt.move (h : c.IsAt source) {cs rest : List Char} (hrest : c.rest = cs ++ rest) :
    IsAt ⟨c.offset + Text.size cs, rest⟩ source := by
  obtain ⟨pre, hsource, hpre⟩ := h
  exact ⟨pre ++ cs, by rw [hsource, hrest, List.append_assoc], by simp [hpre]⟩

lemma IsAt.boundary (h : c.IsAt source) : Text.IsBoundary c.offset source.toList := by
  obtain ⟨pre, hsource, hpre⟩ := h
  exact Text.isBoundary_iff.mpr ⟨pre, c.rest, hsource, hpre⟩

/-- What comes next is the slice that begins at the cursor. -/
lemma IsAt.slice (h : c.IsAt source) {cs rest : List Char} (hrest : c.rest = cs ++ rest) :
    Text.slice? c.offset (c.offset + Text.size cs) source.toList = some cs := by
  obtain ⟨pre, hsource, hpre⟩ := h
  exact Text.slice?_eq_some_iff.mpr ⟨pre, rest, by rw [hsource, hrest], hpre, by rw [hpre]⟩

lemma IsAt.blankBetween (h : c.IsAt source) {bs rest : List Char} (hrest : c.rest = bs ++ rest)
    (hbs : Text.Blank bs) : BlankBetween source c.offset (c.offset + Text.size bs) :=
  ⟨Nat.le_add_right _ _, bs, h.slice hrest, hbs⟩

lemma IsAt.bytes_eq (h : c.IsAt source) : Text.bytes source = c.offset + Text.size c.rest := by
  obtain ⟨pre, hsource, hpre⟩ := h
  rw [Text.bytes, hsource, Text.size_append, hpre]

/-- A lexeme that comes next is a token that stands in the source. -/
lemma IsAt.standsIn (h : c.IsAt source) {x : Lexeme} (hrest : c.rest = x.text ++ x.rest)
    (hx : lexeme? (x.text ++ x.rest) = some x) :
    (x.token file c.offset).StandsIn source file := by
  have hafter := h.move hrest
  have hpos : 0 < Text.size x.text :=
    Nat.lt_of_lt_of_le (List.length_pos_iff.mpr (text_ne_nil_of_lexeme? hx))
      (Text.length_le_size x.text)
  refine ⟨Nat.lt_add_of_pos_right hpos, ?_, h.boundary, hafter.boundary, ?_, rfl, rfl⟩
  · rw [hafter.bytes_eq]
    exact Nat.le_add_right _ _
  · rw [Lexeme.token, String.toList_ofList]
    exact h.slice hrest

/-! ## The scan tiles the source -/

/-- How a scan from a cursor in a source ends: with all of the source tiled, or with an error,
and the source tiled up to it. -/
inductive Tiles (source file : String) (a : Nat) (items : List (Except Error Token)) : Prop
  | whole (hitems : items = (leadingTokens items).map .ok)
      (htiled : Tiled source file a (leadingTokens items) (Text.bytes source))
  | upTo (e : Error) (hitems : items = (leadingTokens items).map .ok ++ [.error e])
      (he : e.Refuses source file)
      (htiled : Tiled source file a (leadingTokens items) e.position.offset)

/-- A token behind blanks extends a tiling to the left. -/
lemma Tiles.cons {a : Nat} {t : Token} {items : List (Except Error Token)}
    (hblank : BlankBetween source a t.span.start.offset) (ht : t.StandsIn source file)
    (h : Tiles source file t.span.stop.offset items) : Tiles source file a (.ok t :: items) := by
  cases h with
  | whole hitems htiled =>
    refine .whole ?_ ⟨hblank, ht, htiled⟩
    rw [leadingTokens, List.map_cons, ← hitems]
  | upTo e hitems he htiled =>
    refine .upTo e ?_ he ⟨hblank, ht, htiled⟩
    rw [leadingTokens, List.map_cons, List.cons_append, ← hitems]

lemma tiles_drain (file : String) (c : Cursor) (h : c.IsAt source) :
    Tiles source file c.offset (c.drain file).1 := by
  -- along the scan; a step hands the invariant on to the cursor behind its token
  induction hn : c.rest.length using Nat.strongRecOn generalizing c with
  | ind n ih =>
    have hstep := next_step file c
    generalize hnext : c.next file = result at hstep
    cases hstep with
    | done hblank =>
      rw [drain_of_next_none hnext]
      refine .whole rfl ?_
      rw [h.bytes_eq]
      exact h.blankBetween (List.append_nil _).symm hblank
    | token bs x hbs hrest hx =>
      have hat := h.move hrest
      rw [drain_of_next_some hnext]
      refine .cons (h.blankBetween hrest hbs) (hat.standsIn rfl hx) ?_
      exact ih _ (hn ▸ length_rest_next_lt hnext) _ (hat.move rfl) rfl
    | refusal bs ch cs hbs hrest hx =>
      have hat := h.move hrest
      rw [drain_of_next_some hnext, drain_of_rest_nil rfl]
      have hslice := hat.slice (show ch :: cs = [ch] ++ cs from rfl)
      rw [Text.size_cons, Text.size_nil, Nat.add_zero] at hslice
      exact .upTo _ rfl ⟨hat.boundary, rfl, ch, rfl, hslice⟩ (h.blankBetween hrest hbs)

end Cursor

/-- **The tokens tile the source.**  If the scan of a source succeeds, its tokens are those that
were scanned, and they tile the source from its beginning to its end.  If it fails, the scanned
tokens tile the source up to the position of the error, and the character there is refused. -/
theorem scannedTokens_tile_source (source : String) (file : Option String) :
    match tokenize source file with
    | .ok ts =>
      ts = scannedTokens source file ∧
        Tiled source (file.getD "shell") 0 (scannedTokens source file) (Text.bytes source)
    | .error e =>
      e.Refuses source (file.getD "shell") ∧
        Tiled source (file.getD "shell") 0 (scannedTokens source file) e.position.offset := by
  have hscan := Cursor.tiles_drain (file.getD defaultFile) _ (Cursor.isAt_start source)
  cases hscan with
  | whole hitems htiled =>
    rw [tokenize_eq_ok_iff.mpr hitems]
    exact ⟨rfl, htiled⟩
  | upTo e hitems he htiled =>
    have herror : tokenize source file = .error e := by
      rw [tokenize, hitems]
      exact mapM_id_append_error _ e []
    rw [herror]
    exact ⟨he, htiled⟩

end Scriptlet
