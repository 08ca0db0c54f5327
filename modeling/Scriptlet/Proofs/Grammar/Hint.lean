/-
# What an error asks for

Where a token is missing, or another one stands in its place, the error tells which kind of token is
wanted.  This hint is truthful: the source may be cut off there and continued with such a token to
a source that is parsed.  Since the words before an error are completed by fillers, no more than five
kinds are ever asked for.

One of them is the closing curly bracket, and that is asked for only where the source ends: the
statements of a block are read as long as there is a token, unless it is the bracket itself
(`NeverUnclosed`).  Here the bound that a rule is given matters, since a repetition that runs out of
steps stops before any token.
-/
import Scriptlet.Proofs.Grammar.FirstError

namespace Scriptlet

/-- The kinds have different names. -/
lemma Kind.label_injective {k k' : Kind} (h : k.label = k'.label) : k = k' := by
  cases k <;> cases k' <;> first | rfl | simp [label] at h

namespace Grammar

open Reading

variable {α β : Type} {n : Nat} {s s' : Session} {k : Kind} {ws us : List Word}

/-! ## Words without closing brackets -/

/-- No word is a closing curly bracket. -/
def NoCurly (ws : List Word) : Prop := ∀ w ∈ ws, w.kind ≠ .closeCurly

@[simp] lemma noCurly_nil : NoCurly [] := List.forall_mem_nil _

@[simp] lemma noCurly_cons {w : Word} :
    NoCurly (w :: ws) ↔ w.kind ≠ .closeCurly ∧ NoCurly ws :=
  List.forall_mem_cons

@[simp] lemma noCurly_append : NoCurly (ws ++ us) ↔ NoCurly ws ∧ NoCurly us :=
  List.forall_mem_append

lemma Target.noCurly {x : String} (h : Target ws x) : NoCurly ws := by
  induction h with
  | name => simp
  | paren _ _ _ ih => simp [ih]

lemma DerivesExpr.noCurly {c : Category} {e : Expr} (h : DerivesExpr c ws e) : NoCurly ws := by
  induction h with
  | plain _ ih | single _ _ ih | bare _ ih => exact ih
  | assign _ hk hx _ ih => rcases hk with rfl | rfl <;> simp [hx.noCurly, ih]
  | joined _ hrung _ _ ihl ihr => cases hrung <;> simp [ihl, ihr]
  | signed _ hk _ ih => rcases hk with rfl | rfl <;> simp [ih]
  | paren _ _ _ ih => simp [ih]
  | number | text | trueLit | falseLit | nullLit | ident => simp

lemma DerivesDeclaration.noCurly {d : Declaration} (h : DerivesDeclaration ws d) :
    NoCurly ws := by
  cases h with
  | bare => simp
  | init _ _ h => simp [h.noCurly]

/-! ## Closing brackets are asked for at the end only -/

/-- A rule that, in a session whose room is at most `n`, does not fail because a token is no closing
curly bracket. -/
structure NeverUnclosed (n : Nat) (p : Reading α) : Prop where
  /-- It leaves no more room than it was given, so that the bound holds behind it too. -/
  room_le : ∀ s a s', p s = .ok a s' → s'.room ≤ s.room
  cause_ne : ∀ s e s', s.room ≤ n → p s = .error e s' →
    ∀ text, e.cause ≠ .unexpected text Kind.closeCurly.label

section Combinators

variable {p : Reading α} {D : List Word → α → Prop}

lemma neverUnclosed_pure {a : α} : NeverUnclosed n (pure a) := by
  refine ⟨fun s b s' h => ?_, fun s e s' _ h => by cases h⟩
  obtain ⟨-, rfl⟩ := pure_eq_ok.mp h
  exact Nat.le_refl _

lemma Sound.room_le (hp : Sound p D) {a : α} (h : p s = .ok a s') : s'.room ≤ s.room := by
  obtain ⟨ws, hws, -⟩ := hp s a s' h
  have hle := hws.room_add_length_le
  omega

/-- What is never completed by a closing bracket never asks for one. -/
lemma neverUnclosed_of_fails (hsound : Sound p D) (hp : Fails p D)
    (hD : ∀ ws a, D ws a → NoCurly ws) : NeverUnclosed n p := by
  refine ⟨fun s a s' => hsound.room_le, fun s e s' _ h text hcause => ?_⟩
  obtain ⟨ws, s₁, d, -, -, hsyntactic⟩ := hp s.kind? s e s' rfl h
  obtain ⟨us, a, -, hmet, ha⟩ := hsyntactic (by rw [hcause]; rfl)
  obtain ⟨w, vs, rfl, hw⟩ := hmet Kind.closeCurly.label (by rw [hcause]; rfl)
  obtain ⟨-, hkind, -⟩ : NoCurly ws ∧ w.kind ≠ .closeCurly ∧ NoCurly vs := by
    simpa using hD _ a ha
  exact hkind (Kind.label_injective hw)

lemma NeverUnclosed.mono {m : Nat} (hp : NeverUnclosed n p) (h : m ≤ n) : NeverUnclosed m p :=
  ⟨hp.room_le, fun s e s' hroom => hp.cause_ne s e s' (Nat.le_trans hroom h)⟩

lemma NeverUnclosed.bind {f : α → Reading β} (hp : NeverUnclosed n p)
    (hf : ∀ a, NeverUnclosed n (f a)) : NeverUnclosed n (p >>= f) := by
  constructor
  · intro s b s' h
    obtain ⟨a, s₁, ha, hb⟩ := bind_eq_ok.mp h
    exact Nat.le_trans ((hf a).room_le s₁ b s' hb) (hp.room_le s a s₁ ha)
  · intro s e s' hroom h
    rcases bind_eq_error.mp h with h | ⟨a, s₁, ha, h⟩
    · exact hp.cause_ne s e s' hroom h
    · exact (hf a).cause_ne s₁ e s' (Nat.le_trans (hp.room_le s a s₁ ha) hroom) h

/-- A token of any other kind, behind which there is less room. -/
lemma neverUnclosed_expect_bind {f : Token → Reading β} (hk : k ≠ .closeCurly)
    (hf : ∀ t, NeverUnclosed (n - 1) (f t)) : NeverUnclosed n (expect k >>= f) := by
  constructor
  · intro s b s' h
    obtain ⟨t, s₁, ht, hb⟩ := bind_eq_ok.mp h
    exact Nat.le_trans ((hf t).room_le s₁ b s' hb) (Nat.le_of_lt (room_expect_lt ht))
  · intro s e s' hroom h text hcause
    rcases bind_eq_error.mp h with h | ⟨t, s₁, ht, h⟩
    · obtain ⟨w, vs, hus, hw⟩ := metBy_of_expect h "" [] _ (by rw [hcause]; rfl)
      obtain ⟨rfl, -⟩ := List.cons.inj hus
      exact hk (Kind.label_injective hw)
    · have hlt := room_expect_lt ht
      exact (hf t).cause_ne s₁ e s' (by omega) h text hcause

lemma neverUnclosed_peek {f : Option Kind → Reading β} (h : ∀ k, NeverUnclosed n (f k)) :
    NeverUnclosed n (peek >>= f) :=
  ⟨fun s => (h s.kind?).room_le s, fun s => (h s.kind?).cause_ne s⟩

lemma neverUnclosed_repeatWhile {more : Option Kind → Bool} {step : α → Reading α}
    (hstep : ∀ a, NeverUnclosed n (step a)) (m : Nat) (a : α) :
    NeverUnclosed n (repeatWhile more step m a) := by
  induction m generalizing a with
  | zero => exact neverUnclosed_pure
  | succ m ih =>
    refine neverUnclosed_peek fun k => ?_
    split
    · exact (hstep a).bind ih
    · exact neverUnclosed_pure

end Combinators

/-! ## Statements -/

lemma expression_neverUnclosed (m : Nat) : NeverUnclosed n (expression m) :=
  neverUnclosed_of_fails (expression_sound m) (expression_fails m) fun _ _ h => h.noCurly

lemma declaration_neverUnclosed (m : Nat) : NeverUnclosed n (declaration m) :=
  neverUnclosed_of_fails (declaration_sound m) (declaration_fails m) fun _ _ h => h.noCurly

lemma expressionStatement_neverUnclosed (m : Nat) : NeverUnclosed n (expressionStatement m) := by
  refine (expression_neverUnclosed m).bind fun _ => ?_
  exact neverUnclosed_expect_bind (by decide) fun _ => neverUnclosed_pure

lemma declarations_neverUnclosed (m : Nat) : NeverUnclosed n (declarations m) := by
  refine neverUnclosed_expect_bind (by decide) fun _ => ?_
  refine (declaration_neverUnclosed m).bind fun first => ?_
  refine (neverUnclosed_repeatWhile (fun ds => ?_) m _).bind fun ds => ?_
  · refine neverUnclosed_expect_bind (by decide) fun _ => ?_
    exact (declaration_neverUnclosed m).bind fun _ => neverUnclosed_pure
  · exact neverUnclosed_expect_bind (by decide) fun _ => neverUnclosed_pure

section Nested

variable {inner : Reading Stmt} (hinner : NeverUnclosed n inner)

include hinner

lemma statements_neverUnclosed (m : Nat) (stop : Option Kind) :
    NeverUnclosed n (statements inner m stop) := by
  refine (neverUnclosed_repeatWhile (fun body => ?_) m _).bind fun _ => neverUnclosed_pure
  exact hinner.bind fun _ => neverUnclosed_pure

/-- Behind the statements of a block there is the closing bracket or no token. -/
lemma block_neverUnclosed (hsound : Sound inner DerivesStmt) :
    NeverUnclosed (n + 1) (block inner n) := by
  refine neverUnclosed_expect_bind (by decide) fun _ => ?_
  have hbody := statements_neverUnclosed hinner n (some .closeCurly)
  constructor
  · intro s st s' h
    obtain ⟨body, s₁, hs, h⟩ := bind_eq_ok.mp h
    obtain ⟨t, s₂, ht, h⟩ := bind_eq_ok.mp h
    obtain ⟨-, rfl⟩ := pure_eq_ok.mp h
    exact Nat.le_trans (Nat.le_of_lt (room_expect_lt ht)) (hbody.room_le s body s₁ hs)
  · intro s e s' hroom h text hcause
    rcases bind_eq_error.mp h with h | ⟨body, s₁, hs, h⟩
    · exact hbody.cause_ne s e s' hroom h text hcause
    rcases bind_eq_error.mp h with h | ⟨t, s₂, -, h⟩
    · rcases statements_stops hsound hroom hs with hnone | hclose
      · have hended := expect_eq_error_iff.mpr
          (.ended (d := .token .closeCurly) (kind?_eq_none_iff.mp hnone))
        rw [h] at hended
        obtain ⟨rfl, -⟩ := EStateM.Result.error.inj hended
        cases hcause
      · have hphase := phase_of_expect hclose h
        rw [hcause] at hphase
        cases hphase
    · cases h

lemma conditional_neverUnclosed (m : Nat) : NeverUnclosed (n + 1) (conditional inner m) := by
  refine neverUnclosed_expect_bind (by decide) fun _ => ?_
  refine neverUnclosed_expect_bind (by decide) fun _ => ?_
  refine (expression_neverUnclosed m).bind fun test => ?_
  refine neverUnclosed_expect_bind (by decide) fun _ => ?_
  refine (hinner.mono (by omega)).bind fun consequent => ?_
  refine neverUnclosed_peek fun k => ?_
  split
  · refine neverUnclosed_expect_bind (by decide) fun _ => ?_
    exact (hinner.mono (by omega)).bind fun _ => neverUnclosed_pure
  · exact neverUnclosed_pure

end Nested

lemma statement_neverUnclosed (n : Nat) : NeverUnclosed n (statement n) := by
  induction n with
  | zero => exact expressionStatement_neverUnclosed 0
  | succ n ih =>
    refine neverUnclosed_peek fun k => ?_
    split
    · exact neverUnclosed_expect_bind (by decide) fun _ => neverUnclosed_pure
    · exact conditional_neverUnclosed ih n
    · exact block_neverUnclosed ih (statement_sound n)
    · exact declarations_neverUnclosed n
    · exact expressionStatement_neverUnclosed (n + 1)

/-- **A closing curly bracket is asked for only where the source ends.** -/
lemma program_neverUnclosed (n : Nat) : NeverUnclosed n (program n) :=
  (statements_neverUnclosed (statement_neverUnclosed n) n none).bind fun _ => neverUnclosed_pure

end Grammar

open Reading Grammar

variable {source : String} {file : Option String} {e : Error}

/-- What scanning fails with is no cause that the grammar finds. -/
lemma cause_ne_of_advance {s s' : Session} {c : Cause} (h : advance s = .error e s')
    (hc : c.phase = .syntactic) : e.cause ≠ c := by
  rintro rfl
  rw [phase_of_advance h] at hc
  cases hc

lemma cause_ne_of_parse (h : parse source file = .error e) (text : String) :
    e.cause ≠ .unexpected text Kind.closeCurly.label := by
  rcases parse_eq_error_iff_program.mp h with ⟨s, hload⟩ | ⟨s, s', hload, hprogram⟩
  · exact cause_ne_of_advance hload rfl
  · exact (program_neverUnclosed s.room).cause_ne s e s' (Nat.le_refl _) hprogram text

/-- A literal is read only where there is one. -/
lemma Grammar.Refused.cause_ne_notLiteral {d : Demand} {s s' : Session} (h : Refused d s e s')
    (text : String) : e.cause ≠ .notLiteral text := by
  cases h with
  | ended | mismatch => simp
  | lexical _ _ h => exact cause_ne_of_advance h rfl
  | late _ hc =>
    rintro rfl
    cases d <;> cases hc

lemma cause_ne_notLiteral_of_parse (h : parse source file = .error e) (text : String) :
    e.cause ≠ .notLiteral text := by
  rcases parse_eq_error_iff_program.mp h with ⟨s, hload⟩ | ⟨s, s', hload, hprogram⟩
  · exact cause_ne_of_advance hload rfl
  · obtain ⟨ws, s₁, d, -, hd, -⟩ := program_fails s.room s.kind? s e s' rfl hprogram
    exact hd.cause_ne_notLiteral text

/-! ## Hints -/

/-- The text of a filler is cut into the filler alone. -/
lemma scans_filler_text {w : Word} (hw : w ∈ fillers) : Scans w.text.toList [w] := by
  have hx : lexeme? w.text.toList = some ⟨w.kind, w.text.toList, []⟩ := by
    simp only [fillers, List.mem_cons, List.not_mem_nil, or_false] at hw
    rcases hw with rfl | rfl | rfl | rfl | rfl <;> rfl
  have hscans := Scans.lexeme hx (.nil (by simp [Text.Blank]))
  rwa [Lexeme.word, String.ofList_toList] at hscans

/-- What an error asks for is a filler, and the source can be continued with its text. -/
lemma exists_filler_of_expected {wanted : String} (h : parse source file = .error e)
    (hwanted : e.cause.expected? = some wanted) :
    ∃ w ∈ fillers, w.kind.label = wanted ∧
      ∃ pre, Text.upTo? e.position.offset source.toList = some pre ∧
        ∃ r p, parse (String.ofList pre ++ " " ++ w.text ++ r) file = .ok p := by
  obtain ⟨ws, hfault, hcompletion⟩ := exists_fault_of_parse h
  have hphase := Cause.phase_of_expected? hwanted
  obtain ⟨us, p, hus, hmet, hp⟩ := hcompletion hphase
  obtain ⟨w, vs, rfl, hw⟩ := hmet wanted hwanted
  obtain ⟨hmem, hvs⟩ := List.cons_subset.mp hus
  obtain ⟨rest, -, hrest⟩ := exists_scans_fillers hvs
  have htext := (scans_filler hmem hrest).blank (c := ' ') rfl
  obtain ⟨pre, hpre, hparse⟩ := exists_parse_of_fault hfault hphase (by simp; rfl) htext hp
  refine ⟨w, hmem, hw, pre, hpre, String.ofList (' ' :: rest), p, ?_⟩
  rw [← hparse]
  congr 1
  simp [String.ofList_append, String.append_assoc]

/-- **What an error asks for is a valid continuation.**  A token is unexpected where a semicolon, a
parenthesis or an identifier is wanted, and the source ends where one of these or a closing curly
bracket is wanted; a literal is never missed.  And whenever an error asks for a token of some kind,
the source cut off at the error can be continued with a token of this kind to a source that is
parsed. -/
theorem expected_token_continues_source (source : String) (file : Option String) (e : Error)
    (h : parse source file = .error e) :
    (∀ text wanted, e.cause = .unexpected text wanted →
      wanted ∈ [";", ")", "(", "IDENTIFIER"]) ∧
    (∀ wanted, e.cause = .endOfInput wanted →
      wanted ∈ [";", ")", "(", "IDENTIFIER", "\x7d"]) ∧
    (∀ text, e.cause ≠ .notLiteral text) ∧
    ∀ k : Kind, e.cause.expected? = some k.label →
      ∃ pre, Text.upTo? e.position.offset source.toList = some pre ∧
        ∃ x t r p, tokenize x file = .ok [t] ∧ t.kind = k ∧
          parse (String.ofList pre ++ " " ++ x ++ r) file = .ok p := by
  have hlabel : ∀ w ∈ fillers, w.kind.label ∈ [";", ")", "(", "IDENTIFIER", "\x7d"] := by decide
  have hopen : ∀ w ∈ fillers, w.kind ≠ .closeCurly →
      w.kind.label ∈ [";", ")", "(", "IDENTIFIER"] := by decide
  refine ⟨fun text wanted hcause => ?_, fun wanted hcause => ?_,
    cause_ne_notLiteral_of_parse h, fun k hk => ?_⟩
  · obtain ⟨w, hw, rfl, -⟩ := exists_filler_of_expected h (by rw [hcause]; rfl)
    refine hopen w hw fun hkind => ?_
    rw [hkind] at hcause
    exact cause_ne_of_parse h text hcause
  · obtain ⟨w, hw, rfl, -⟩ := exists_filler_of_expected h (by rw [hcause]; rfl)
    exact hlabel w hw
  · obtain ⟨w, hw, hkind, pre, hpre, r, p, hparse⟩ := exists_filler_of_expected h hk
    obtain ⟨ts, hts, hwords⟩ := exists_tokenize_iff_scans.mpr (scans_filler_text hw)
    obtain ⟨t, rfl, rfl⟩ := List.map_eq_singleton_iff.mp hwords
    exact ⟨pre, hpre, t.value, t, r, p, hts, Kind.label_injective hkind, hparse⟩

/-- In a block that is not closed the source ends too soon, and behind `if` a parenthesis is
missing. -/
theorem expected_token_continues_source_conditional :
    (parse "\x7b if x" none = .error ⟨.unexpected "x" "(", ⟨5, "shell"⟩⟩ ∧
      "(" ∈ [";", ")", "(", "IDENTIFIER"] ∧
      ∃ pre, Text.upTo? 5 "\x7b if x".toList = some pre ∧
        ∃ x t r p, tokenize x none = .ok [t] ∧ t.kind = .openParen ∧
          parse (String.ofList pre ++ " " ++ x ++ r) none = .ok p) ∧
    (parse "\x7b ;" none = .error ⟨.endOfInput "\x7d", ⟨3, "shell"⟩⟩ ∧
      ∃ pre, Text.upTo? 3 "\x7b ;".toList = some pre ∧
        ∃ x t r p, tokenize x none = .ok [t] ∧ t.kind = .closeCurly ∧
          parse (String.ofList pre ++ " " ++ x ++ r) none = .ok p) := by
  have hif : parse "\x7b if x" none = .error ⟨.unexpected "x" "(", ⟨5, "shell"⟩⟩ := by cbv
  have hblock : parse "\x7b ;" none = .error ⟨.endOfInput "\x7d", ⟨3, "shell"⟩⟩ := by cbv
  obtain ⟨hlabel, -, -, hcontinues⟩ := expected_token_continues_source _ _ _ hif
  exact ⟨⟨hif, hlabel _ _ rfl, hcontinues .openParen rfl⟩, hblock,
    (expected_token_continues_source _ _ _ hblock).2.2.2 .closeCurly rfl⟩

end Scriptlet
