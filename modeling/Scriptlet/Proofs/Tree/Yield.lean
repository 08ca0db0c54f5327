/-
# The yield of a tree

A tree keeps all words of its source but the parentheses, in their order: its yield.  Only how a
number or a quoted text was written is lost, and so a word enters the yield with what it says
(`Word.sense`) and not with its text.

The yield is read off the tree alone.  Since both the source of a tree and its printed text derive
it, they have the same words up to parentheses, and printing neither drops nor repeats nor moves
nor respells any of them.
-/
import Mathlib.Data.List.Forall2
import Scriptlet.Proofs.Tree.RoundTrip

namespace Scriptlet

open Grammar

/-! ## What words say -/

/-- What a word says, however it is written. -/
inductive Sense where
  | number (value : Binary64)
  | text (value : String)
  /-- A word that says no more than its text. -/
  | plain (kind : Kind) (text : String)
deriving DecidableEq, Repr

/-- What a word says. -/
def Word.sense (w : Word) : Sense :=
  match w.kind with
  | .number => .number (digitsNumber w.text)
  | .string => .text (unquote w.text)
  | k => .plain k w.text

/-- The kind of the words that say something. -/
def Sense.kind : Sense → Kind
  | number _ => .number
  | text _ => .string
  | plain kind _ => kind

lemma Word.kind_sense (w : Word) : w.sense.kind = w.kind := by
  rw [sense]
  split
  · next h => exact h.symm
  · next h => exact h.symm
  · rfl

/-- Whether tokens of a kind are parentheses. -/
def Kind.isParen : Kind → Bool
  | openParen | closeParen => true
  | _ => false

/-- What words say, without the parentheses among them. -/
def senses (ws : List Word) : List Sense := (ws.filter (!·.kind.isParen)).map Word.sense

@[simp] lemma senses_nil : senses [] = [] := rfl

@[simp] lemma senses_append (ws us : List Word) : senses (ws ++ us) = senses ws ++ senses us := by
  simp [senses]

lemma senses_cons_of_paren {w : Word} (h : w.kind.isParen) (ws : List Word) :
    senses (w :: ws) = senses ws := by
  simp [senses, h]

lemma senses_cons {w : Word} (h : w.kind.isParen = false) (ws : List Word) :
    senses (w :: ws) = w.sense :: senses ws := by
  simp [senses, h]

/-- A mark or a reserved word with a single text says that text. -/
lemma senses_fixed {k : Kind} {o text : String} (htexts : k.texts = [text])
    (hparen : k.isParen = false) (ho : k.Spells o) (ws : List Word) :
    senses (⟨k, o⟩ :: ws) = .plain k text :: senses ws := by
  rw [senses_cons hparen]
  cases k with
  | number | string | identifier => cases htexts
  | _ =>
    have hmem : o ∈ [text] := htexts ▸ ho
    rw [List.mem_singleton.mp hmem]
    rfl

/-! ## The yield -/

namespace Kind

/-- The kinds of operators. -/
def operators : List Kind :=
  [simpleAssign, complexAssign, additive, multiplicative, relational, equality, logicalAnd,
    logicalOr, logicalNot]

/-- The kind of the operator with a text. -/
def ofOperator (o : String) : Kind := (operators.find? (·.texts.contains o)).getD identifier

/-- No text is an operator of two kinds. -/
lemma ofOperator_eq {k : Kind} {o : String} (hk : k ∈ operators) (ho : o ∈ k.texts) :
    ofOperator o = k := by
  have hall : ∀ k ∈ operators, ∀ o ∈ k.texts, ofOperator o = k := by decide +kernel
  exact hall k hk o ho

end Kind

/-- What an operator says. -/
def operatorSense (o : String) : Sense := .plain (.ofOperator o) o

/-- The yield of an expression. -/
def Expr.yield : Expr → List Sense
  | assign operator name value =>
    .plain .identifier name :: operatorSense operator :: value.yield
  | logical operator left right => left.yield ++ operatorSense operator :: right.yield
  | binary operator left right => left.yield ++ operatorSense operator :: right.yield
  | unary operator argument => operatorSense operator :: argument.yield
  | ident name => [.plain .identifier name]
  | number value => [.number value]
  | text value => [.text value]
  | bool true => [.plain .trueWord "true"]
  | bool false => [.plain .falseWord "false"]
  | null => [.plain .nullWord "null"]

/-- The yield of a declaration. -/
def Declaration.yield (d : Declaration) : List Sense :=
  match d.init with
  | none => [.plain .identifier d.name]
  | some init => .plain .identifier d.name :: .plain .simpleAssign "=" :: init.yield

/-- The yield of the declarations of a `let`, with the commas between them. -/
def Declaration.yieldAll : List Declaration → List Sense
  | [] => []
  | [d] => d.yield
  | d :: ds => d.yield ++ .plain .comma "," :: yieldAll ds

mutual

/-- The yield of a statement. -/
def Stmt.yield : Stmt → List Sense
  | expr expression => expression.yield ++ [.plain .semicolon ";"]
  | block body =>
    .plain .openCurly "\x7b" :: yieldAll body ++ [.plain .closeCurly "\x7d"]
  | empty => [.plain .semicolon ";"]
  | declare declarations =>
    .plain .letWord "let" :: Declaration.yieldAll declarations ++ [.plain .semicolon ";"]
  | ifThen test consequent => .plain .ifWord "if" :: test.yield ++ consequent.yield
  | ifElse test consequent alternate =>
    .plain .ifWord "if" :: test.yield ++ consequent.yield ++
      .plain .elseWord "else" :: alternate.yield

/-- The yield of statements one after the other. -/
def Stmt.yieldAll : List Stmt → List Sense
  | [] => []
  | s :: body => s.yield ++ yieldAll body

end

/-! ## Derivations keep the yield -/

namespace Grammar

lemma senses_operator {k : Kind} {o : String} (hk : k ∈ Kind.operators) (ho : k.Spells o)
    (ws : List Word) : senses (⟨k, o⟩ :: ws) = operatorSense o :: senses ws := by
  have hcases : k.isParen = false ∧ o ∈ k.texts ∧ Word.sense ⟨k, o⟩ = .plain k o := by
    cases k <;> first | exact ⟨rfl, ho, rfl⟩ | simp [Kind.operators] at hk
  obtain ⟨hparen, hmem, hsense⟩ := hcases
  rw [senses_cons hparen, hsense, operatorSense, Kind.ofOperator_eq hk hmem]

/-- What stands in parentheses says what it says without them. -/
lemma senses_paren (l r : String) (ws : List Word) :
    senses (⟨.openParen, l⟩ :: ws ++ [⟨.closeParen, r⟩]) = senses ws := by
  rw [List.cons_append, senses_cons_of_paren rfl, senses_append, senses_cons_of_paren rfl,
    senses_nil, List.append_nil]

lemma Target.senses_eq {ws : List Word} {x : String} (h : Target ws x) :
    senses ws = [.plain .identifier x] := by
  induction h with
  | name x => rfl
  | paren l r _ ih => rw [senses_paren, ih]

lemma Rung.yield_node {c d : Category} {k : Kind} {node : String → Expr → Expr → Expr}
    (h : Rung c d k node) :
    k ∈ Kind.operators ∧
      ∀ o l r, (node o l r).yield = l.yield ++ operatorSense o :: r.yield := by
  cases h <;> exact ⟨by decide, fun o l r => rfl⟩

lemma DerivesExpr.senses_eq {c : Category} {ws : List Word} {e : Expr} (h : DerivesExpr c ws e)
    (hws : Spelled ws) : senses ws = e.yield := by
  induction h with
  | plain _ ih | single _ _ ih | bare _ ih => exact ih hws
  | @assign _ _ _ _ k o hk hx _ ih =>
    obtain ⟨-, hus⟩ := spelled_append.mp hws
    obtain ⟨ho, hus⟩ := spelled_cons.mp hus
    have hmem : k ∈ Kind.operators := by rcases hk with rfl | rfl <;> decide
    rw [senses_append, hx.senses_eq, senses_operator hmem ho, ih hus]
    rfl
  | joined o hrung _ _ ihl ihr =>
    obtain ⟨hws, hus⟩ := spelled_append.mp hws
    obtain ⟨ho, hus⟩ := spelled_cons.mp hus
    obtain ⟨hmem, hyield⟩ := hrung.yield_node
    rw [senses_append, ihl hws, senses_operator hmem ho, ihr hus, hyield]
  | @signed _ _ k o hk _ ih =>
    obtain ⟨ho, hws⟩ := spelled_cons.mp hws
    have hmem : k ∈ Kind.operators := by rcases hk with rfl | rfl <;> decide
    rw [senses_operator hmem ho, ih hws]
    rfl
  | number | text | ident => rfl
  | trueLit | falseLit | nullLit => exact senses_fixed rfl rfl (spelled_cons.mp hws).1 []
  | paren l r _ ih =>
    obtain ⟨-, hws⟩ := spelled_cons.mp hws
    rw [senses_paren, ih (spelled_append.mp hws).1]

lemma DerivesDeclaration.senses_eq {ws : List Word} {d : Declaration}
    (h : DerivesDeclaration ws d) (hws : Spelled ws) : senses ws = d.yield := by
  cases h with
  | bare x => rfl
  | init x o he =>
    obtain ⟨ho, hws⟩ := spelled_cons.mp (spelled_cons.mp hws).2
    rw [senses_cons rfl, senses_fixed rfl rfl ho, he.senses_eq hws]
    rfl

lemma DerivesDeclarations.senses_eq {ws : List Word} {ds : List Declaration}
    (h : DerivesDeclarations ws ds) (hws : Spelled ws) :
    senses ws = Declaration.yieldAll ds := by
  induction h with
  | one h => exact h.senses_eq hws
  | more o h hds ih =>
    obtain ⟨hws, hus⟩ := spelled_append.mp hws
    obtain ⟨ho, hus⟩ := spelled_cons.mp hus
    rw [senses_append, h.senses_eq hws, senses_fixed rfl rfl ho, ih hus]
    -- Behind a comma there is another declaration.
    cases hds with
    | one | more => rfl

/-- The head of an `if` says what its test says. -/
lemma senses_ifHead {i l r : String} {ws us : List Word} {e : Expr} (hi : Kind.Spells .ifWord i)
    (he : senses ws = e.yield) :
    senses (⟨.ifWord, i⟩ :: ⟨.openParen, l⟩ :: ws ++ ⟨.closeParen, r⟩ :: us) =
      .plain .ifWord "if" :: e.yield ++ senses us := by
  rw [List.cons_append, List.cons_append, senses_fixed rfl rfl hi, senses_cons_of_paren rfl,
    senses_append, he, senses_cons_of_paren rfl]
  rfl

mutual

lemma DerivesStmt.senses_eq {ws : List Word} {s : Stmt} (h : DerivesStmt ws s)
    (hws : Spelled ws) : senses ws = s.yield := by
  cases h with
  | empty o => exact senses_fixed rfl rfl (spelled_cons.mp hws).1 []
  | ifThen i l r he hs =>
    obtain ⟨hws, hus⟩ := spelled_append.mp hws
    obtain ⟨hi, hws⟩ := spelled_cons.mp hws
    have he := he.senses_eq (spelled_cons.mp hws).2
    rw [senses_ifHead hi he, hs.senses_eq (spelled_cons.mp hus).2, Stmt.yield]
  | ifElse i l r o he hs _ hs' =>
    obtain ⟨hws, hvs⟩ := spelled_append.mp hws
    obtain ⟨hws, hus⟩ := spelled_append.mp hws
    obtain ⟨hi, hws⟩ := spelled_cons.mp hws
    obtain ⟨ho, hvs⟩ := spelled_cons.mp hvs
    have he := he.senses_eq (spelled_cons.mp hws).2
    rw [senses_append, senses_ifHead hi he, hs.senses_eq (spelled_cons.mp hus).2,
      senses_fixed rfl rfl ho, hs'.senses_eq hvs, Stmt.yield]
  | block l r hbody =>
    obtain ⟨hl, hws⟩ := spelled_cons.mp hws
    obtain ⟨hws, hr⟩ := spelled_append.mp hws
    rw [List.cons_append, senses_fixed rfl rfl hl, senses_append, hbody.senses_eq hws,
      senses_fixed rfl rfl (spelled_cons.mp hr).1, Stmt.yield]
    rfl
  | declare l o hds =>
    obtain ⟨hl, hws⟩ := spelled_cons.mp hws
    obtain ⟨hws, ho⟩ := spelled_append.mp hws
    rw [List.cons_append, senses_fixed rfl rfl hl, senses_append, hds.senses_eq hws,
      senses_fixed rfl rfl (spelled_cons.mp ho).1, Stmt.yield]
    rfl
  | expr o he =>
    obtain ⟨hws, ho⟩ := spelled_append.mp hws
    rw [senses_append, he.senses_eq hws, senses_fixed rfl rfl (spelled_cons.mp ho).1, Stmt.yield]
    rfl

lemma DerivesBody.senses_eq {ws : List Word} {body : List Stmt} (h : DerivesBody ws body)
    (hws : Spelled ws) : senses ws = Stmt.yieldAll body := by
  cases h with
  | nil => rfl
  | cons hs hbody =>
    obtain ⟨hws, hus⟩ := spelled_append.mp hws
    rw [senses_append, hs.senses_eq hws, hbody.senses_eq hus, Stmt.yieldAll]

end

end Grammar

/-! ## Tokens that say the same -/

/-- Tokens of one kind that say the same: two numbers stand for the same double, two quoted texts
have the same text inside, up to blanks at its ends, and all other tokens are equal as texts. -/
structure Token.Alike (t u : Token) : Prop where
  kind_eq : t.kind = u.kind
  value_eq : match t.kind with
    | .number => digitsNumber t.value = digitsNumber u.value
    | .string => unquote t.value = unquote u.value
    | _ => t.value = u.value

/-- The tokens that are not parentheses. -/
def withoutParens (ts : List Token) : List Token := ts.filter (!·.kind.isParen)

lemma Token.alike_of_sense_eq {t u : Token} (h : t.word.sense = u.word.sense) : t.Alike u := by
  have hkind : t.kind = u.kind := by
    have hsense := congrArg Sense.kind h
    rwa [Word.kind_sense, Word.kind_sense] at hsense
  refine ⟨hkind, ?_⟩
  simp only [word, Word.sense, ← hkind] at h
  split
  · next hk =>
    rw [hk] at h
    exact Sense.number.inj h
  · next hk =>
    rw [hk] at h
    exact Sense.text.inj h
  · next hnumber hstring =>
    split at h
    · next hk => exact absurd hk hnumber
    · next hk => exact absurd hk hstring
    · exact (Sense.plain.inj h).2

lemma senses_word (ts : List Token) :
    senses (ts.map Token.word) = (withoutParens ts).map (·.word.sense) := by
  rw [senses, withoutParens, List.filter_map, List.map_map]
  rfl

/-- **Printing keeps the tokens of a source up to parentheses.**  The printed text of a parsed
source has no lexical error, and without the parentheses its tokens say, one by one, what those of
the source say. -/
theorem alike_tokens_of_print (source : String) (file file' : Option String) (p : Program)
    (h : parse source file = .ok p) :
    ∃ ts us, tokenize source file = .ok ts ∧ tokenize p.print file' = .ok us ∧
      List.Forall₂ Token.Alike (withoutParens ts) (withoutParens us) := by
  have hyield {cs : List Char} {ws : List Word} (hscans : Scans cs ws)
      (hp : DerivesProgram ws p) : senses ws = Stmt.yieldAll p.body :=
    DerivesBody.senses_eq hp hscans.spells
  obtain ⟨ws, hscans, hp⟩ := parse_eq_ok_iff_scans.mp h
  obtain ⟨ws', hscans', hp'⟩ := Program.exists_scans_print (isWellFormed_of_parse h)
  obtain ⟨ts, hts, rfl⟩ := exists_tokenize_iff_scans.mpr hscans
  obtain ⟨us, hus, rfl⟩ := exists_tokenize_iff_scans.mpr hscans'
  refine ⟨ts, us, hts, hus, ?_⟩
  have hsenses := (hyield hscans hp).trans (hyield hscans' hp').symm
  rw [senses_word, senses_word] at hsenses
  have hforall : List.Forall₂ Eq ((withoutParens ts).map (·.word.sense))
      ((withoutParens us).map (·.word.sense)) := by
    rw [List.forall₂_eq_eq_eq, hsenses]
  rw [List.forall₂_map_left_iff, List.forall₂_map_right_iff] at hforall
  exact hforall.imp fun t u => Token.alike_of_sense_eq

theorem alike_tokens_of_print_grouped :
    parse "x = (y -= ((z)) * ' it\x22s');" none =
        .ok ⟨[.expr (.assign "=" "x" (.assign "-=" "y"
          (.binary "*" (.ident "z") (.text "it\x22s"))))]⟩ ∧
      ∃ ts us, tokenize "x = (y -= ((z)) * ' it\x22s');" none = .ok ts ∧
        tokenize (Program.print ⟨[.expr (.assign "=" "x" (.assign "-=" "y"
          (.binary "*" (.ident "z") (.text "it\x22s"))))]⟩) none = .ok us ∧
        List.Forall₂ Token.Alike (withoutParens ts) (withoutParens us) := by
  have hparse : parse "x = (y -= ((z)) * ' it\x22s');" none =
      .ok ⟨[.expr (.assign "=" "x" (.assign "-=" "y"
        (.binary "*" (.ident "z") (.text "it\x22s"))))]⟩ := by
    cbv
  exact ⟨hparse, alike_tokens_of_print _ none none _ hparse⟩

end Scriptlet
