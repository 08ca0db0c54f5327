/-
# Layout does not matter

The tokens of a source may be written again with other blanks between them.  They are scanned as
the same words, since no token goes on over a blank, whatever stood behind it before.  A parse looks
at the words alone, and so it gives the same tree or fails at the same token for the same cause.
-/
import Scriptlet.Proofs.Grammar.Parallel
import Scriptlet.Proofs.Token.Cut

namespace Scriptlet

open Reading Grammar

variable {cs : List Char} {ws : List Word} {before : String} {behind : List String}
  {ts ts' : List Token}

/-- Texts that are written one after the other, each with a text of its own behind it, and with
a text before them all. -/
def respaced (before : String) : List String → List String → String
  | text :: texts, between :: behind => before ++ text ++ respaced between texts behind
  | _, _ => before

/-! ## The words of a text that is written with other blanks -/

/-- What is written behind a word is empty or begins with a blank. -/
lemma mayReplace_respaced (texts : List String) (hbefore : Text.Blank before.toList)
    (hne : behind = [] ∨ before ≠ "") (r : List Char) :
    MayReplace (respaced before texts behind).toList r := by
  intro c hc
  have hmem (h : before.toList.head? = some c) : Text.isBlank c :=
    hbefore c (List.mem_of_head? h)
  unfold respaced at hc
  split at hc
  · have hne : before.toList ≠ [] := by simpa using hne
    rw [String.toList_append, String.toList_append, List.append_assoc,
      List.head?_append_of_ne_nil _ hne] at hc
    exact .inr (hmem hc)
  · exact .inr (hmem hc)

/-- **The words of a text stay the same if they are written with other blanks between them.** -/
theorem Scans.respaced (h : Scans cs ws) (hlength : behind.length = ws.length)
    (hbefore : Text.Blank before.toList) (hbehind : ∀ b ∈ behind, Text.Blank b.toList)
    (hne : ∀ b ∈ behind.dropLast, b ≠ "") :
    Scans (Scriptlet.respaced before (ws.map Word.text) behind).toList ws := by
  induction h generalizing before behind with
  | nil => exact .nil hbefore
  | @cons bs x ws _ hx _ ih =>
    obtain ⟨between, behind, rfl⟩ := List.exists_cons_of_length_eq_add_one hlength
    obtain ⟨hbetween, hbehind⟩ := List.forall_mem_cons.mp hbehind
    have hlength : behind.length = ws.length := Nat.succ.inj hlength
    -- Only behind the last word there may be nothing.
    have hgap : behind = [] ∨ between ≠ "" := by
      cases behind with
      | nil => exact .inl rfl
      | cons b behind => exact .inr (hne between (by simp))
    have hne' : ∀ b ∈ behind.dropLast, b ≠ "" := by
      intro b hb
      cases behind with
      | nil => cases hb
      | cons b' behind => exact hne b (List.mem_cons_of_mem _ hb)
    have hscans := ih hlength hbetween hbehind hne'
    have hx' := lexeme?_of_mayReplace hx (mayReplace_respaced (ws.map Word.text) hbetween hgap _)
    rw [List.map_cons, Scriptlet.respaced, String.toList_append, String.toList_append,
      Lexeme.word, String.toList_ofList, List.append_assoc]
    generalize (Scriptlet.respaced between (ws.map Word.text) behind).toList = rest at *
    exact .cons (x := ⟨x.kind, x.text, rest⟩) hbefore hx' hscans

/-! ## The places of corresponding tokens -/

/-- Two places at which the tokens with the same index begin. -/
def SameIndex (ts ts' : List Token) (a b : Position) : Prop :=
  ∃ (i : Nat) (t t' : Token), ts[i]? = some t ∧ ts'[i]? = some t' ∧
    a = t.span.start ∧ b = t'.span.start

lemma forall₂_sameIndex (h : ts'.map Token.word = ts.map Token.word) :
    List.Forall₂ (Matches (SameIndex ts ts')) (ts.map .ok) (ts'.map .ok) := by
  have hlength : ts.length = ts'.length := by
    have hmaps := congrArg List.length h
    rw [List.length_map, List.length_map] at hmaps
    exact hmaps.symm
  rw [List.forall₂_map_left_iff, List.forall₂_map_right_iff, List.forall₂_iff_get]
  refine ⟨hlength, fun i hi hi' => ?_⟩
  have hword : (ts'.map Token.word)[i]? = (ts.map Token.word)[i]? := by rw [h]
  simp only [List.getElem?_map, List.getElem?_eq_getElem hi, List.getElem?_eq_getElem hi',
    Option.map_some, Option.some.injEq] at hword
  exact .token hword ⟨i, _, _, List.getElem?_eq_getElem hi, List.getElem?_eq_getElem hi', rfl, rfl⟩

/-- **Layout does not matter.**  If the tokens of a source are written again with blanks before,
between and behind them, and at least one blank between any two, then tokens of the same kinds and
texts are scanned.  The parse gives the same program; or it fails for the same cause, at the token
with the same index, or at the end if the cause is that the source ends there. -/
theorem parse_respaced (source source' : String) (file : Option String) (ts : List Token)
    (before : String) (behind : List String) (h : tokenize source file = .ok ts)
    (hlength : behind.length = ts.length)
    (hblank : ∀ b ∈ before :: behind, Text.Blank b.toList) (hne : ∀ b ∈ behind.dropLast, b ≠ "")
    (hsource' : source' = respaced before (ts.map Token.value) behind) :
    ∃ ts', tokenize source' file = .ok ts' ∧ ts'.map Token.word = ts.map Token.word ∧
      match parse source file with
      | .ok p => parse source' file = .ok p
      | .error e => ∃ place, parse source' file = .error ⟨e.cause, place⟩ ∧
        match e.cause with
        | .endOfInput _ => place = ⟨Text.bytes source', file.getD "shell"⟩
        | _ => SameIndex ts ts' e.position place := by
  obtain ⟨hbefore, hbehind⟩ := List.forall_mem_cons.mp hblank
  have hscans : Scans source'.toList (ts.map Token.word) := by
    have hwords := exists_tokenize_iff_scans.mp ⟨ts, h, rfl⟩
    have hrespaced := hwords.respaced (by simpa using hlength) hbefore hbehind hne
    rw [List.map_map] at hrespaced
    rw [hsource']
    exact hrespaced
  obtain ⟨ts', h', hts'⟩ := exists_tokenize_iff_scans.mpr hscans
  refine ⟨ts', h', hts', ?_⟩
  have hmatch : List.Forall₂ (Matches (SameIndex ts ts')) (scan source file)
      (scan source' file) := by
    rw [scan, scan, tokenize_eq_ok_iff.mp h, tokenize_eq_ok_iff.mp h']
    exact forall₂_sameIndex hts'
  obtain ⟨hok, herror⟩ := parse_of_forall₂_scan hmatch
  cases hparse : parse source file with
  | ok p => exact hok p hparse
  | error e =>
    obtain ⟨⟨_, place⟩, hparse', rfl, hplace⟩ := herror e hparse
    refine ⟨place, hparse', ?_⟩
    split
    · next hcause => exact position_of_endOfInput hparse' hcause
    · next hcause =>
      rcases hplace with ⟨wanted, hended⟩ | hplace
      · exact absurd hended (hcause wanted)
      · exact hplace

/-- The tokens of `a+;`, written with blanks of one and of three bytes, are refused at the semicolon
in either layout. -/
theorem parse_respaced_sum :
    ∃ ts ts' place, tokenize "a+;" none = .ok ts ∧
      parse "a+;" none = .error ⟨.unexpected ";" "IDENTIFIER", ⟨2, "shell"⟩⟩ ∧
      respaced "\u2003" (ts.map Token.value) [" ", "\u2003", "\n"] = "\u2003a +\u2003;\n" ∧
      tokenize "\u2003a +\u2003;\n" none = .ok ts' ∧ ts'.map Token.word = ts.map Token.word ∧
      parse "\u2003a +\u2003;\n" none = .error ⟨.unexpected ";" "IDENTIFIER", place⟩ ∧
      SameIndex ts ts' ⟨2, "shell"⟩ place := by
  have h : tokenize "a+;" none = .ok [⟨.identifier, "a", ⟨⟨0, "shell"⟩, ⟨1, "shell"⟩⟩⟩,
      ⟨.additive, "+", ⟨⟨1, "shell"⟩, ⟨2, "shell"⟩⟩⟩,
      ⟨.semicolon, ";", ⟨⟨2, "shell"⟩, ⟨3, "shell"⟩⟩⟩] := by cbv
  have herror : parse "a+;" none =
      .error ⟨.unexpected ";" "IDENTIFIER", ⟨2, "shell"⟩⟩ := by cbv
  have hchars : Text.isBlank '\u2003' ∧ Text.isBlank ' ' ∧ Text.isBlank '\n' := ⟨rfl, rfl, rfl⟩
  have hblank : ∀ b ∈ ["\u2003", " ", "\u2003", "\n"], Text.Blank b.toList := by
    simp [Text.Blank, hchars]
  have htext : respaced "\u2003" ["a", "+", ";"] [" ", "\u2003", "\n"] =
      "\u2003a +\u2003;\n" := by decide
  have hrespaced := parse_respaced _ _ none _ "\u2003" [" ", "\u2003", "\n"] h rfl hblank
    (by simp) htext.symm
  rw [herror] at hrespaced
  obtain ⟨ts', h', hwords, place, hplace, hindex⟩ := hrespaced
  exact ⟨_, ts', place, h, herror, htext, h', hwords, hplace, hindex⟩

end Scriptlet
