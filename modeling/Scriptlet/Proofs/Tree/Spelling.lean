/-
# How printed trees are scanned

The text of a well-formed tree is cut into words that derive the tree.  Nothing in a printed text
runs into what is printed behind it, and the one thing to watch is a word or a number in front of a
letter or a digit; so the printed parts are studied in front of any text that does not go on with a
word (`ReadAs`), and put together from the right to the left.

Every operation is printed in parentheses, so that each printed expression is one of the tightest
category with operators, and can be an operand anywhere.
-/
import Scriptlet.Proofs.Tree.WellFormed
import Scriptlet.Tree.Print

namespace Scriptlet

open Grammar

/-- A text that does not go on with a word. -/
def Breaks (cs : List Char) : Prop := ∀ c, cs.head? = some c → isWordChar c = false

/-- `ReadAs s ws`: before any text that does not go on with a word, `s` is cut into the words
`ws`. -/
def ReadAs (s : String) (ws : List Word) : Prop :=
  ∀ rest us, Breaks rest → Scans rest us → Scans (s.toList ++ rest) (ws ++ us)

variable {c : Char} {cs : List Char} {ws us : List Word} {s : String} {k : Kind}

lemma breaks_nil : Breaks [] := by
  intro c hc
  cases hc

lemma breaks_cons (h : isWordChar c = false) : Breaks (c :: cs) := by
  intro d hd
  obtain rfl := Option.some.inj hd
  exact h

/-! ## Words and numbers -/

lemma readAs_word (hs : s.toList = c :: cs) (hc : isWordChar c) (hdigit : c.isDigit = false)
    (hcs : ∀ d ∈ cs, isWordChar d) : ReadAs s [⟨Kind.ofWord s, s⟩] := by
  intro rest us hrest hscans
  -- The run of word characters ends where the word does.
  obtain ⟨htake, hdrop⟩ := span_append hcs rest hrest
  have hx := lexeme?_word hc hdigit (cs ++ rest)
  rw [htake, hdrop, ← hs, String.ofList_toList] at hx
  have hscans' := Scans.lexeme hx hscans
  rw [Lexeme.word, String.ofList_toList, ← List.cons_append, ← hs] at hscans'
  exact hscans'

lemma readAs_name (h : isName s) : ReadAs s [⟨.identifier, s⟩] := by
  obtain ⟨c, cs, hs, hc, hdigit, hcs, hreserved⟩ := isName_iff.mp h
  have hread := readAs_word hs hc hdigit hcs
  rw [Kind.ofWord, hreserved] at hread
  exact hread

/-- Digits are one lexeme, up to where the word ends. -/
lemma lexeme?_digits {rest : List Char} (hne : s.toList ≠ [])
    (hdigits : ∀ c ∈ s.toList, c.isDigit) (hrest : Breaks rest) :
    lexeme? (s.toList ++ rest) = some ⟨.number, s.toList, rest⟩ := by
  cases hs : s.toList with
  | nil => exact absurd hs hne
  | cons c cs =>
    rw [hs] at hdigits
    obtain ⟨hc, hcs⟩ := List.forall_mem_cons.mp hdigits
    have hrest' : ∀ c, rest.head? = some c → c.isDigit = false := by
      intro d hd
      cases hdigit : d.isDigit with
      | false => rfl
      | true => exact absurd (isWordChar_of_isDigit hdigit) (by simp [hrest d hd])
    obtain ⟨htake, hdrop⟩ := span_append hcs rest hrest'
    have hx := lexeme?_digit hc (cs ++ rest)
    rwa [htake, hdrop] at hx

lemma readAs_digits (hne : s.toList ≠ []) (hdigits : ∀ c ∈ s.toList, c.isDigit) :
    ReadAs s [⟨.number, s⟩] := by
  intro rest us hrest hscans
  have hscans' := Scans.lexeme (lexeme?_digits hne hdigits hrest) hscans
  rw [Lexeme.word, String.ofList_toList] at hscans'
  exact hscans'

/-! ## Quoted texts -/

lemma toList_quoteText {q : Char}
    (hq : q = if s.toList.contains '\x22' then '\x27' else '\x22') :
    (quoteText s).toList = q :: s.toList ++ [q] := by
  rw [quoteText, hq]
  split <;> simp

/-- A text that can stand between quotes is read back from them. -/
lemma readAs_quoteText (h : isQuotable s) :
    ReadAs (quoteText s) [⟨.string, quoteText s⟩] ∧ unquote (quoteText s) = s := by
  obtain ⟨htrim, q', hq', hmem⟩ := isQuotable_iff.mp h
  obtain ⟨q, hq⟩ : ∃ q, q = if s.toList.contains '\x22' then '\x27' else '\x22' := ⟨_, rfl⟩
  have hquote : isQuote q := by
    rw [hq]
    split
    · exact .inr rfl
    · exact .inl rfl
  have hnot : q ∉ s.toList := by
    rw [hq]
    split
    · next hdouble =>
      -- There is a double quote in the text, so the quote that is not in it is the single one.
      rcases hq' with rfl | rfl
      · exact absurd (List.contains_iff_mem.mp hdouble) hmem
      · exact hmem
    · next hdouble => exact fun hmem => hdouble (List.contains_iff_mem.mpr hmem)
  have htoList := toList_quoteText hq
  constructor
  · intro rest us _ hscans
    have hx := lexeme?_quoted hquote hnot rest
    have hscans' := Scans.lexeme hx hscans
    rw [Lexeme.word, ← htoList, String.ofList_toList] at hscans'
    rw [htoList, List.append_assoc]
    exact hscans'
  · rw [unquote, htoList, List.cons_append, List.tail_cons, List.dropLast_concat, htrim,
      String.ofList_toList]

/-! ## Marks -/

/-- The texts of marks and reserved words, before a blank. -/
lemma scans_text {o : String} (ho : o ∈ k.texts) (h : Scans cs ws) :
    Scans (o.toList ++ ' ' :: cs) (⟨k, o⟩ :: ws) := by
  have hx : lexeme? (o.toList ++ ' ' :: cs) = some ⟨k, o.toList, ' ' :: cs⟩ := by
    cases k with
    | number | string | identifier => cases ho
    | complexAssign | relational =>
      simp only [Kind.texts, List.mem_cons, List.not_mem_nil, or_false] at ho
      rcases ho with rfl | rfl | rfl | rfl <;> rfl
    | additive | multiplicative | equality =>
      simp only [Kind.texts, List.mem_cons, List.not_mem_nil, or_false] at ho
      rcases ho with rfl | rfl <;> rfl
    | _ =>
      obtain rfl := List.mem_singleton.mp ho
      rfl
  have hscans := Scans.lexeme hx (h.blank (c := ' ') rfl)
  rw [Lexeme.word, String.ofList_toList] at hscans
  exact hscans

/-- A mark that is one character, whatever stands behind it. -/
lemma scans_mark (c : Char) (k : Kind) (hx : lexeme? (c :: cs) = some ⟨k, [c], cs⟩)
    (h : Scans cs ws) : Scans (c :: cs) (⟨k, String.ofList [c]⟩ :: ws) :=
  Scans.lexeme hx h

/-! ## Expressions -/

lemma readAs_grouped {l o r : String} (hl : ReadAs l ws) (ho : o ∈ k.texts) (hr : ReadAs r us) :
    ReadAs (grouped l o r) (⟨.openParen, "("⟩ :: (ws ++ ⟨k, o⟩ :: us) ++ [⟨.closeParen, ")"⟩]) := by
  intro rest vs _ hscans
  -- from the right to the left; a blank or a parenthesis is behind each operand
  have hclose := scans_mark ')' .closeParen rfl hscans
  have hright := hr _ _ (breaks_cons rfl) hclose
  have hoperator := (scans_text ho hright).blank (c := ' ') rfl
  have hleft := hl _ _ (breaks_cons rfl) hoperator
  have hopen := scans_mark '(' .openParen rfl hleft
  simpa [grouped] using hopen

lemma readAs_sign {o : String} (hk : k = .additive ∨ k = .logicalNot) (ho : o ∈ k.texts)
    (hs : s.toList.head? ≠ some '=') (hne : s.toList ≠ []) (h : ReadAs s ws) :
    ReadAs (o ++ s) (⟨k, o⟩ :: ws) := by
  intro rest us hrest hscans
  have hscans' := h rest us hrest hscans
  -- A sign begins a longer token only before `=`, and no operand begins with that.
  have hhead : (s.toList ++ rest).head? ≠ some '=' := by
    rwa [List.head?_append_of_ne_nil _ hne]
  obtain ⟨hplus, hminus, hnot⟩ := lexeme?_sign hhead
  rw [String.toList_append, List.append_assoc]
  rcases hk with rfl | rfl
  · simp only [Kind.texts, List.mem_cons, List.not_mem_nil, or_false] at ho
    rcases ho with rfl | rfl
    · exact Scans.lexeme hplus hscans'
    · exact Scans.lexeme hminus hscans'
  · obtain rfl := List.mem_singleton.mp ho
    exact Scans.lexeme hnot hscans'

/-- A printed expression begins with a character, and not with one that could join an operator in
front of it. -/
lemma Expr.print_head {e : Expr} (h : e.isWellFormed) :
    ∃ c cs, e.print.toList = c :: cs ∧ c ≠ '=' := by
  have hgrouped (l o r : String) : ∃ c cs, (grouped l o r).toList = c :: cs ∧ c ≠ '=' := by
    refine ⟨'(', l.toList ++ ' ' :: (o.toList ++ ' ' :: (r.toList ++ [')'])), ?_, by decide⟩
    simp [grouped]
  cases e with
  | assign | logical | binary => exact hgrouped _ _ _
  | unary o e =>
    simp only [Expr.isWellFormed, Bool.and_eq_true, List.contains_iff_mem, List.mem_cons,
      List.not_mem_nil, or_false] at h
    rw [Expr.print, String.toList_append]
    rcases h.1 with rfl | rfl | rfl
    · exact ⟨'+', e.print.toList, rfl, by decide⟩
    · exact ⟨'-', e.print.toList, rfl, by decide⟩
    · exact ⟨'!', e.print.toList, rfl, by decide⟩
  | ident x =>
    obtain ⟨c, cs, hx, hc, -⟩ := isName_iff.mp h
    refine ⟨c, cs, hx, ?_⟩
    rintro rfl
    cases hc
  | number x =>
    obtain ⟨ds, htext, hne, hdigits, -⟩ := Binary64.exists_digits_text h
    rw [Expr.print, htext, String.toList_ofList]
    cases ds with
    | nil => exact absurd rfl hne
    | cons d ds =>
      refine ⟨d, ds, rfl, ?_⟩
      rintro rfl
      cases hdigits '=' List.mem_cons_self
  | text value =>
    refine ⟨_, _, toList_quoteText rfl, ?_⟩
    split <;> decide
  | bool b =>
    cases b with
    | true => exact ⟨'t', ['r', 'u', 'e'], rfl, by decide⟩
    | false => exact ⟨'f', ['a', 'l', 's', 'e'], rfl, by decide⟩
  | null => exact ⟨'n', ['u', 'l', 'l'], rfl, by decide⟩

/-! ## Derivations of printed expressions -/

lemma exists_level_logical {o : String} (ho : o ∈ ["&&", "||"]) :
    ∃ (level : Level) (k : Kind), level.operator? = some k ∧ level.join = Expr.logical ∧
      o ∈ k.texts := by
  simp only [List.mem_cons, List.not_mem_nil, or_false] at ho
  rcases ho with rfl | rfl
  · exact ⟨.logicalAnd, _, rfl, rfl, by decide⟩
  · exact ⟨.logicalOr, _, rfl, rfl, by decide⟩

lemma exists_level_binary {o : String}
    (ho : o ∈ ["+", "-", "*", "/", "<", "<=", ">", ">=", "==", "!="]) :
    ∃ (level : Level) (k : Kind), level.operator? = some k ∧ level.join = Expr.binary ∧
      o ∈ k.texts := by
  simp only [List.mem_cons, List.not_mem_nil, or_false] at ho
  rcases ho with rfl | rfl | rfl | rfl | rfl | rfl | rfl | rfl | rfl | rfl
  · exact ⟨.additive, _, rfl, rfl, by decide⟩
  · exact ⟨.additive, _, rfl, rfl, by decide⟩
  · exact ⟨.multiplicative, _, rfl, rfl, by decide⟩
  · exact ⟨.multiplicative, _, rfl, rfl, by decide⟩
  · exact ⟨.relational, _, rfl, rfl, by decide⟩
  · exact ⟨.relational, _, rfl, rfl, by decide⟩
  · exact ⟨.relational, _, rfl, rfl, by decide⟩
  · exact ⟨.relational, _, rfl, rfl, by decide⟩
  · exact ⟨.equality, _, rfl, rfl, by decide⟩
  · exact ⟨.equality, _, rfl, rfl, by decide⟩

/-- A printed expression is read back as an operand. -/
def Expr.ReadsBack (e : Expr) : Prop := ∃ ws, DerivesExpr .unary ws e ∧ ReadAs e.print ws

/-- Two operands with an operator of a level between them, in parentheses. -/
lemma exists_readAs_join {level : Level} {o : String} {l r : Expr}
    (hlevel : level.operator? = some k) (ho : o ∈ k.texts) (hl : l.ReadsBack)
    (hr : r.ReadsBack) :
    ∃ ws, DerivesExpr .unary ws (level.join o l r) ∧
      ReadAs (grouped l.print o r.print) ws := by
  obtain ⟨ws, hwl, hreadl⟩ := hl
  obtain ⟨us, hwr, hreadr⟩ := hr
  have hjoin := DerivesExpr.joined o (rung_of_operator? hlevel) (hwl.atLevel level)
    (hwr.atLevel level.next)
  exact ⟨_, .bare (.paren "(" ")" hjoin.ofLevel), readAs_grouped hreadl ho hreadr⟩

/-- **A well-formed expression is read back from its text.** -/
theorem Expr.readsBack_of_isWellFormed {e : Expr} (h : e.isWellFormed) : e.ReadsBack := by
  induction e with
  | assign o x e ih =>
    simp only [Expr.isWellFormed, Bool.and_eq_true, List.contains_iff_mem] at h
    obtain ⟨⟨ho, hx⟩, he⟩ := h
    obtain ⟨us, hus, hread⟩ := ih he
    obtain ⟨k, hk, ho⟩ : ∃ k, (k = .simpleAssign ∨ k = .complexAssign) ∧ o ∈ Kind.texts k := by
      rcases List.mem_cons.mp ho with rfl | ho
      · exact ⟨.simpleAssign, .inl rfl, by decide⟩
      · exact ⟨.complexAssign, .inr rfl, ho⟩
    have hassign := DerivesExpr.assign o hk (Target.name x) hus.toAssignment
    exact ⟨_, .bare (.paren "(" ")" hassign), readAs_grouped (readAs_name hx) ho hread⟩
  | logical o l r ihl ihr =>
    simp only [Expr.isWellFormed, Bool.and_eq_true, List.contains_iff_mem] at h
    obtain ⟨⟨ho, hl⟩, hr⟩ := h
    obtain ⟨level, k, hlevel, hjoin, ho⟩ := exists_level_logical ho
    have hread := exists_readAs_join hlevel ho (ihl hl) (ihr hr)
    rw [hjoin] at hread
    exact hread
  | binary o l r ihl ihr =>
    simp only [Expr.isWellFormed, Bool.and_eq_true, List.contains_iff_mem] at h
    obtain ⟨⟨ho, hl⟩, hr⟩ := h
    obtain ⟨level, k, hlevel, hjoin, ho⟩ := exists_level_binary ho
    have hread := exists_readAs_join hlevel ho (ihl hl) (ihr hr)
    rw [hjoin] at hread
    exact hread
  | unary o e ih =>
    simp only [Expr.isWellFormed, Bool.and_eq_true, List.contains_iff_mem] at h
    obtain ⟨ho, he⟩ := h
    obtain ⟨us, hus, hread⟩ := ih he
    obtain ⟨c, cs, hprint, hc⟩ := print_head he
    obtain ⟨k, hk, ho⟩ : ∃ k, (k = .additive ∨ k = .logicalNot) ∧ o ∈ Kind.texts k := by
      simp only [List.mem_cons, List.not_mem_nil, or_false] at ho
      rcases ho with rfl | rfl | rfl
      · exact ⟨.additive, .inl rfl, by decide⟩
      · exact ⟨.additive, .inl rfl, by decide⟩
      · exact ⟨.logicalNot, .inr rfl, by decide⟩
    refine ⟨_, .signed o hk hus, readAs_sign hk ho ?_ ?_ hread⟩
    · simpa [hprint] using hc
    · simp [hprint]
  | ident x => exact ⟨_, .bare (.ident x), readAs_name h⟩
  | number x =>
    obtain ⟨ds, htext, hne, hdigits, hnearest⟩ := Binary64.exists_digits_text h
    have htoList : x.text.toList = ds := by rw [htext, String.toList_ofList]
    have hnumber : digitsNumber x.text = x := by rw [digitsNumber, htoList, hnearest]
    have hfinite : (digitsNumber x.text).isFinite := by
      rw [hnumber]
      exact decide_eq_true (Binary64.isWhole_iff.mp h).1
    have hderives := DerivesExpr.number x.text hfinite
    rw [hnumber] at hderives
    rw [← htoList] at hne hdigits
    exact ⟨_, .bare hderives, readAs_digits hne hdigits⟩
  | text value =>
    obtain ⟨hread, hunquote⟩ := readAs_quoteText h
    have htext := DerivesExpr.text (quoteText value)
    rw [hunquote] at htext
    exact ⟨_, .bare htext, hread⟩
  | bool b =>
    cases b with
    | true => exact ⟨_, .bare (.trueLit "true"), readAs_word rfl rfl rfl (List.all_eq_true.mp rfl)⟩
    | false => exact ⟨_, .bare (.falseLit "false"), readAs_word rfl rfl rfl (List.all_eq_true.mp rfl)⟩
  | null => exact ⟨_, .bare (.nullLit "null"), readAs_word rfl rfl rfl (List.all_eq_true.mp rfl)⟩

/-! ## Statements -/

lemma Declaration.exists_readAs {d : Declaration} (h : d.isWellFormed) :
    ∃ ws, DerivesDeclaration ws d ∧ ReadAs d.print ws := by
  obtain ⟨x, init⟩ := d
  rw [Declaration.isWellFormed, Bool.and_eq_true] at h
  obtain ⟨hx, hinit⟩ := h
  have hname := readAs_name hx
  cases init with
  | none => exact ⟨_, .bare x, hname⟩
  | some e =>
    obtain ⟨us, hus, hread⟩ := Expr.readsBack_of_isWellFormed hinit
    refine ⟨_, .init x "=" hus.toAssignment, ?_⟩
    intro rest vs hrest hscans
    have hassign := scans_text (k := .simpleAssign) (o := "=") (by decide)
      (hread rest vs hrest hscans)
    have hscans' := hname _ _ (breaks_cons rfl) (hassign.blank (c := ' ') rfl)
    simpa [Declaration.print] using hscans'

lemma exists_readAs_declarations {ds : List Declaration} (hne : ds ≠ [])
    (h : ds.all (·.isWellFormed)) :
    ∃ ws, DerivesDeclarations ws ds ∧ ReadAs (", ".intercalate (ds.map (·.print))) ws := by
  induction ds with
  | nil => exact absurd rfl hne
  | cons d ds ih =>
    rw [List.all_cons, Bool.and_eq_true] at h
    obtain ⟨ws, hd, hread⟩ := Declaration.exists_readAs h.1
    cases ds with
    | nil => exact ⟨ws, .one hd, by simpa using hread⟩
    | cons d' ds =>
      obtain ⟨us, hds, hreads⟩ := ih (List.cons_ne_nil _ _) h.2
      refine ⟨_, .more "," hd hds, ?_⟩
      intro rest vs hrest hscans
      have hcomma := scans_mark ',' .comma rfl
        ((hreads rest vs hrest hscans).blank (c := ' ') rfl)
      have hscans' := hread _ _ (breaks_cons rfl) hcomma
      simpa using hscans'

/-- What an `if` prints before the statement it guards. -/
lemma scans_ifHead {e : Expr} (he : ReadAs e.print ws) (h : Scans cs us) :
    Scans (("if (" ++ e.print ++ ") ").toList ++ cs)
      (⟨.ifWord, "if"⟩ :: ⟨.openParen, "("⟩ :: ws ++ ⟨.closeParen, ")"⟩ :: us) := by
  have hclose := scans_mark ')' .closeParen rfl (h.blank (c := ' ') rfl)
  have htest := he _ _ (breaks_cons rfl) hclose
  have hopen := scans_mark '(' .openParen rfl htest
  have hif := scans_text (k := .ifWord) (o := "if") (by decide) hopen
  simpa using hif

mutual

/-- **A well-formed statement is read back from its text.** -/
theorem Stmt.exists_readAs (st : Stmt) (h : st.isWellFormed) :
    ∃ ws, DerivesStmt ws st ∧ ReadAs st.print ws := by
  cases st with
  | expr e =>
    obtain ⟨ws, hws, hread⟩ := Expr.readsBack_of_isWellFormed h
    refine ⟨_, .expr ";" hws.toAssignment, ?_⟩
    intro rest vs _ hscans
    have hsemicolon := scans_mark ';' .semicolon rfl hscans
    have hscans' := hread _ _ (breaks_cons rfl) hsemicolon
    simpa [Stmt.print] using hscans'
  | block body =>
    obtain ⟨ws, hws, hread⟩ := Stmt.exists_readAs_all ' ' rfl body h
    refine ⟨_, .block "\x7b" "\x7d" hws, ?_⟩
    intro rest vs _ hscans
    have hclose := scans_mark '\x7d' .closeCurly rfl hscans
    cases body with
    | nil =>
      cases hws
      exact scans_mark '\x7b' .openCurly rfl hclose
    | cons st body =>
      have hbody := hread _ _ (breaks_cons rfl) (hclose.blank (c := ' ') rfl)
      have hopen := scans_mark '\x7b' .openCurly rfl (hbody.blank (c := ' ') rfl)
      simpa [Stmt.print, Stmt.printAll] using hopen
  | empty => exact ⟨_, .empty ";", fun rest vs _ hscans => scans_mark ';' .semicolon rfl hscans⟩
  | declare ds =>
    rw [Stmt.isWellFormed, Bool.and_eq_true, Bool.not_eq_true', List.isEmpty_eq_false_iff] at h
    obtain ⟨ws, hws, hread⟩ := exists_readAs_declarations h.1 h.2
    refine ⟨_, .declare "let" ";" hws, ?_⟩
    intro rest vs _ hscans
    have hsemicolon := scans_mark ';' .semicolon rfl hscans
    have hds := hread _ _ (breaks_cons rfl) hsemicolon
    have hlet := scans_text (k := .letWord) (o := "let") (by decide) hds
    simpa [Stmt.print] using hlet
  | ifThen e st =>
    rw [Stmt.isWellFormed, Bool.and_eq_true] at h
    obtain ⟨ws, hws, hread⟩ := Expr.readsBack_of_isWellFormed h.1
    obtain ⟨us, hus, hread'⟩ := Stmt.exists_readAs st h.2
    refine ⟨_, .ifThen "if" "(" ")" hws.toAssignment hus, ?_⟩
    intro rest vs hrest hscans
    have hif := scans_ifHead hread (hread' rest vs hrest hscans)
    simpa [Stmt.print] using hif
  | ifElse e st st' =>
    rw [Stmt.isWellFormed, Bool.and_eq_true, Bool.and_eq_true, Bool.and_eq_true,
      Bool.not_eq_true'] at h
    obtain ⟨⟨⟨he, hst⟩, hst'⟩, hclosed⟩ := h
    obtain ⟨ws, hws, hread⟩ := Expr.readsBack_of_isWellFormed he
    obtain ⟨us, hus, hreadu⟩ := Stmt.exists_readAs st hst
    obtain ⟨vs, hvs, hreadv⟩ := Stmt.exists_readAs st' hst'
    refine ⟨_, .ifElse "if" "(" ")" "else" hws.toAssignment hus hclosed hvs, ?_⟩
    intro rest xs hrest hscans
    -- from the right to the left: the alternate, the `else`, the consequent, the head
    have helse := scans_text (k := .elseWord) (o := "else") (by decide)
      (hreadv rest xs hrest hscans)
    have hst := hreadu _ _ (breaks_cons rfl) (helse.blank (c := ' ') rfl)
    have hif := scans_ifHead hread hst
    simpa [Stmt.print] using hif

theorem Stmt.exists_readAs_all (c : Char) (hc : Text.isBlank c) (body : List Stmt)
    (h : Stmt.allWellFormed body) :
    ∃ ws, DerivesBody ws body ∧
      ReadAs ((String.ofList [c]).intercalate (Stmt.printAll body)) ws := by
  cases body with
  | nil => exact ⟨[], .nil, fun rest vs _ hscans => by simpa [Stmt.printAll] using hscans⟩
  | cons st body =>
    rw [Stmt.allWellFormed, Bool.and_eq_true] at h
    obtain ⟨ws, hws, hread⟩ := Stmt.exists_readAs st h.1
    obtain ⟨us, hus, hreads⟩ := Stmt.exists_readAs_all c hc body h.2
    refine ⟨ws ++ us, .cons hws hus, ?_⟩
    intro rest vs hrest hscans
    cases body with
    | nil =>
      cases hus
      simpa [Stmt.printAll] using hread rest vs hrest hscans
    | cons st' body =>
      have hbreaks : isWordChar c = false := by
        by_contra hword
        simp [not_isBlank_of_isWordChar (by simpa using hword)] at hc
      have hscans' := (hreads rest vs hrest hscans).blank hc
      have hscans'' := hread _ _ (breaks_cons hbreaks) hscans'
      simpa [Stmt.printAll] using hscans''

end

/-- **The text of a well-formed program is cut into words that derive the program.** -/
theorem Program.exists_scans_print {p : Program} (h : p.isWellFormed) :
    ∃ ws, Scans p.print.toList ws ∧ DerivesProgram ws p := by
  obtain ⟨ws, hws, hread⟩ := Stmt.exists_readAs_all '\n' rfl p.body h
  have hnil : Scans [] [] := .nil fun _ hc => absurd hc List.not_mem_nil
  have hscans := hread [] [] breaks_nil hnil
  rw [List.append_nil, List.append_nil] at hscans
  exact ⟨ws, hscans, hws⟩

end Scriptlet
