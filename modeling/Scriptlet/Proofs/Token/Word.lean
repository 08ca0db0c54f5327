/-
# Words

A token without its place is a word.  The grammar looks at nothing else, and the words of a text
do not depend on where in a source the text stands.  `Scans` says which words a text is cut into;
it is the scan of a source (`tokenize`) with the positions left out.
-/
import Scriptlet.Proofs.Token.Scan

namespace Scriptlet

/-- A token without its place. -/
structure Word where
  /-- Its class. -/
  kind : Kind
  /-- Its text. -/
  text : String
deriving DecidableEq, Repr

/-- The word of a token. -/
def Token.word (t : Token) : Word := ⟨t.kind, t.value⟩

/-- The word of a lexeme. -/
def Lexeme.word (x : Lexeme) : Word := ⟨x.kind, String.ofList x.text⟩

/-- `Scans cs ws`: the text `cs` is cut into the words `ws`. -/
inductive Scans : List Char → List Word → Prop
  | nil {bs : List Char} (hbs : Text.Blank bs) : Scans bs []
  | cons {bs : List Char} {x : Lexeme} {ws : List Word} (hbs : Text.Blank bs)
      (hx : lexeme? (x.text ++ x.rest) = some x) (hrest : Scans x.rest ws) :
      Scans (bs ++ (x.text ++ x.rest)) (x.word :: ws)

variable {cs : List Char} {ws : List Word}

/-! ## Texts and their words -/

lemma Scans.blank (h : Scans cs ws) {c : Char} (hc : Text.isBlank c) : Scans (c :: cs) ws := by
  cases h with
  | nil hbs => exact .nil (List.forall_mem_cons.mpr ⟨hc, hbs⟩)
  | cons hbs hx hrest =>
    rw [← List.cons_append]
    exact .cons (List.forall_mem_cons.mpr ⟨hc, hbs⟩) hx hrest

lemma Scans.lexeme {x : Lexeme} (hx : lexeme? cs = some x) (h : Scans x.rest ws) :
    Scans cs (x.word :: ws) := by
  have happ := append_of_lexeme? hx
  rw [← happ] at hx ⊢
  have hnil : Text.Blank [] := fun _ hc => absurd hc List.not_mem_nil
  exact .cons hnil hx h

/-- Every word has a text that its kind allows. -/
lemma Scans.spells (h : Scans cs ws) : ∀ w ∈ ws, w.kind.Spells w.text := by
  induction h with
  | nil => simp
  | cons _ hx _ ih => exact List.forall_mem_cons.mpr ⟨spells_of_lexeme? hx, ih⟩

/-! ## Words and tokens -/

lemma scans_of_drain {file : String} {c : Cursor} {ts : List Token}
    (h : (c.drain file).1 = ts.map .ok) : Scans c.rest (ts.map Token.word) := by
  induction ts generalizing c with
  | nil =>
    have hstep := Cursor.next_step file c
    generalize hnext : c.next file = result at hstep
    cases hstep with
    | done hblank => exact .nil hblank
    | token | refusal =>
      rw [Cursor.drain_of_next_some hnext] at h
      simp at h
  | cons t ts ih =>
    have hstep := Cursor.next_step file c
    generalize hnext : c.next file = result at hstep
    cases hstep with
    | done hblank =>
      rw [Cursor.drain_of_next_none hnext] at h
      simp at h
    | token bs x hbs hrest hx =>
      rw [Cursor.drain_of_next_some hnext, List.map_cons] at h
      obtain ⟨ht, hts⟩ := List.cons.inj h
      obtain rfl := Except.ok.inj ht
      rw [hrest]
      exact .cons hbs hx (ih hts)
    | refusal =>
      rw [Cursor.drain_of_next_some hnext] at h
      simp at h

lemma exists_drain_of_scans (file : String) {c : Cursor} (h : Scans c.rest ws) :
    ∃ ts : List Token, (c.drain file).1 = ts.map .ok ∧ ts.map Token.word = ws := by
  generalize hcs : c.rest = cs at h
  induction h generalizing c with
  | nil hbs =>
    subst hcs
    exact ⟨[], by rw [Cursor.drain_of_next_none (Cursor.next_of_blank file hbs)]; rfl, rfl⟩
  | @cons bs x _ hbs hx _ ih =>
    have hnext := Cursor.next_of_lexeme file hbs hcs hx
    obtain ⟨ts, hts, hws⟩ :=
      ih (c := ⟨c.offset + Text.size bs + Text.size x.text, x.rest⟩) rfl
    refine ⟨x.token file (c.offset + Text.size bs) :: ts, ?_, ?_⟩
    · rw [Cursor.drain_of_next_some hnext, hts]
      rfl
    · rw [List.map_cons, hws]
      rfl

/-- **The words of a source** are those of its tokens. -/
theorem exists_tokenize_iff_scans {source : String} {file : Option String} :
    (∃ ts, tokenize source file = .ok ts ∧ ts.map Token.word = ws) ↔ Scans source.toList ws := by
  constructor
  · rintro ⟨ts, hts, rfl⟩
    exact scans_of_drain (c := .start source.toList) (tokenize_eq_ok_iff.mp hts)
  · intro h
    obtain ⟨ts, hts, hws⟩ :=
      exists_drain_of_scans (c := .start source.toList) (file.getD defaultFile) h
    exact ⟨ts, tokenize_eq_ok_iff.mpr hts, hws⟩

end Scriptlet
