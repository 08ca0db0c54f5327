/-
# Well-formed trees

Any string may stand for a name, an operator or a text in a tree, and any double for a number.  A
tree is well formed if each of them could have been written in a source, if no `let` is empty, and
if no `else` would go astray.  This is all that parsing makes sure of: a tree that the grammar
derives from the words of a text is well formed (`DerivesProgram.isWellFormed`).
-/
import Mathlib.Data.List.DropRight
import Scriptlet.Proofs.Binary64.Whole
import Scriptlet.Proofs.Grammar.Derivation

namespace Scriptlet

/-! ## Well-formedness -/

/-- Whether a text can stand between quotes: it has no blank at its ends, and not both kinds of
quotes in it. -/
def isQuotable (s : String) : Bool :=
  Text.trim s.toList == s.toList && !(s.toList.contains '\x22' && s.toList.contains '\x27')

/-- Whether every part of an expression could have been written in a source. -/
def Expr.isWellFormed : Expr → Bool
  | assign operator name value =>
    ["=", "+=", "-=", "*=", "/="].contains operator && isName name && value.isWellFormed
  | logical operator left right =>
    ["&&", "||"].contains operator && left.isWellFormed && right.isWellFormed
  | binary operator left right =>
    ["+", "-", "*", "/", "<", "<=", ">", ">=", "==", "!="].contains operator &&
      left.isWellFormed && right.isWellFormed
  | unary operator argument => ["+", "-", "!"].contains operator && argument.isWellFormed
  | ident name => isName name
  | number value => value.isWhole
  | text value => isQuotable value
  | bool _ | null => true

/-- Whether every part of a declaration could have been written in a source. -/
def Declaration.isWellFormed (d : Declaration) : Bool :=
  isName d.name && d.init.all (·.isWellFormed)

mutual

/-- Whether a statement could have been written in a source. -/
def Stmt.isWellFormed : Stmt → Bool
  | expr expression => expression.isWellFormed
  | block body => allWellFormed body
  | empty => true
  | declare declarations => !declarations.isEmpty && declarations.all (·.isWellFormed)
  | ifThen test consequent => test.isWellFormed && consequent.isWellFormed
  | ifElse test consequent alternate =>
    test.isWellFormed && consequent.isWellFormed && alternate.isWellFormed && !consequent.endsOpen

/-- Whether each of the statements could have been written in a source. -/
def Stmt.allWellFormed : List Stmt → Bool
  | [] => true
  | s :: body => s.isWellFormed && allWellFormed body

end

/-- Whether a program could have been written as a source. -/
def Program.isWellFormed (p : Program) : Bool := Stmt.allWellFormed p.body

/-! ## Trimmed texts -/

lemma mem_of_mem_trim {c : Char} {cs : List Char} (h : c ∈ Text.trim cs) : c ∈ cs := by
  have hpre : Text.trim cs <+: cs.dropWhile Text.isBlank := List.rdropWhile_prefix _ _
  exact (List.dropWhile_sublist _).mem (hpre.mem h)

lemma trim_trim (cs : List Char) : Text.trim (Text.trim cs) = Text.trim cs := by
  generalize hds : cs.dropWhile Text.isBlank = ds
  have hpre : ds.rdropWhile Text.isBlank <+: ds := List.rdropWhile_prefix _ _
  -- What is left at the end begins like what is left at the beginning, so with no blank.
  have hdrop : (ds.rdropWhile Text.isBlank).dropWhile Text.isBlank =
      ds.rdropWhile Text.isBlank := by
    cases hes : ds.rdropWhile Text.isBlank with
    | nil => rfl
    | cons e es =>
      obtain ⟨us, hus⟩ := hpre
      have hhead := List.head?_dropWhile_not Text.isBlank cs
      rw [hds, ← hus, hes] at hhead
      refine List.dropWhile_cons_of_neg ?_
      simpa using hhead
  have htrim : Text.trim cs = ds.rdropWhile Text.isBlank := congrArg Text.trimEnd hds
  rw [htrim]
  refine (congrArg Text.trimEnd hdrop).trans ?_
  exact List.rdropWhile_idempotent _ _

lemma isQuotable_iff {s : String} :
    isQuotable s ↔ Text.trim s.toList = s.toList ∧ ∃ q, isQuote q ∧ q ∉ s.toList := by
  have hquotes : (!(s.toList.contains '\x22' && s.toList.contains '\x27')) = true ↔
      ∃ q, isQuote q ∧ q ∉ s.toList := by
    rw [Bool.not_eq_true', Bool.and_eq_false_iff, List.contains_eq_mem, List.contains_eq_mem,
      decide_eq_false_iff_not, decide_eq_false_iff_not]
    constructor
    · rintro (h | h)
      · exact ⟨'\x22', .inl rfl, h⟩
      · exact ⟨'\x27', .inr rfl, h⟩
    · rintro ⟨q, rfl | rfl, h⟩
      · exact .inl h
      · exact .inr h
  rw [isQuotable, Bool.and_eq_true, beq_iff_eq, hquotes]

/-! ## What the grammar derives -/

namespace Grammar

/-- Words whose texts are those of their kinds. -/
def Spelled (ws : List Word) : Prop := ∀ w ∈ ws, w.kind.Spells w.text

lemma spelled_cons {w : Word} {ws : List Word} :
    Spelled (w :: ws) ↔ w.kind.Spells w.text ∧ Spelled ws :=
  List.forall_mem_cons

lemma spelled_append {ws us : List Word} : Spelled (ws ++ us) ↔ Spelled ws ∧ Spelled us :=
  List.forall_mem_append

/-- What stands between quotes can stand there again when its ends are trimmed. -/
lemma isQuotable_unquote {s : String} (h : Kind.Spells .string s) : isQuotable (unquote s) := by
  obtain ⟨q, inner, hq, hinner, hs⟩ := h
  have htoList : (unquote s).toList = Text.trim inner := by
    rw [unquote, String.toList_ofList, hs, List.cons_append, List.tail_cons, List.dropLast_concat]
  rw [isQuotable_iff, htoList]
  exact ⟨trim_trim inner, q, hq, fun hmem => hinner (mem_of_mem_trim hmem)⟩

lemma Target.isName {ws : List Word} {x : String} (h : Target ws x) (hws : Spelled ws) :
    isName x := by
  induction h with
  | name x => exact (spelled_cons.mp hws).1
  | paren l r _ ih =>
    obtain ⟨-, hws⟩ := spelled_cons.mp hws
    exact ih (spelled_append.mp hws).1

lemma isWellFormed_node {c d : Category} {k : Kind} {node : String → Expr → Expr → Expr}
    {o : String} {l r : Expr} (hrung : Rung c d k node) (ho : k.Spells o) (hl : l.isWellFormed)
    (hr : r.isWellFormed) : (node o l r).isWellFormed := by
  -- Which node it is, and that the texts of the kind are operators of this node.
  have hsubset : (∀ l r, node o l r = .logical o l r) ∧ o ∈ ["&&", "||"] ∨
      (∀ l r, node o l r = .binary o l r) ∧
        o ∈ ["+", "-", "*", "/", "<", "<=", ">", ">=", "==", "!="] := by
    cases hrung with
    | logicalOr => exact .inl ⟨fun _ _ => rfl, List.mem_append_right ["&&"] ho⟩
    | logicalAnd => exact .inl ⟨fun _ _ => rfl, List.mem_append_left ["||"] ho⟩
    | equality | relational | additive | multiplicative =>
      refine .inr ⟨fun _ _ => rfl, ?_⟩
      simp only [Kind.Spells, Kind.texts, List.mem_cons, List.not_mem_nil, or_false] at ho
      rcases ho with rfl | rfl | rfl | rfl <;> decide
  rcases hsubset with ⟨hnode, ho⟩ | ⟨hnode, ho⟩
  · simp only [hnode, Expr.isWellFormed, List.contains_eq_mem, ho, hl, hr, decide_true,
      Bool.and_true]
  · simp only [hnode, Expr.isWellFormed, List.contains_eq_mem, ho, hl, hr, decide_true,
      Bool.and_true]

lemma DerivesExpr.isWellFormed {c : Category} {ws : List Word} {e : Expr}
    (h : DerivesExpr c ws e) (hws : Spelled ws) : e.isWellFormed := by
  induction h with
  | plain _ ih | single _ _ ih | bare _ ih => exact ih hws
  | assign o hk hx _ ih =>
    obtain ⟨hws, hus⟩ := spelled_append.mp hws
    obtain ⟨ho, hus⟩ := spelled_cons.mp hus
    have hoperator : o ∈ ["=", "+=", "-=", "*=", "/="] := by
      rcases hk with rfl | rfl
      · exact List.mem_cons.mpr (.inl (List.mem_singleton.mp ho))
      · exact List.mem_cons_of_mem _ ho
    simp only [Expr.isWellFormed, List.contains_eq_mem, hoperator, hx.isName hws, ih hus,
      decide_true, Bool.and_true]
  | joined o hrung _ _ ihl ihr =>
    obtain ⟨hws, hus⟩ := spelled_append.mp hws
    obtain ⟨ho, hus⟩ := spelled_cons.mp hus
    exact isWellFormed_node hrung ho (ihl hws) (ihr hus)
  | signed o hk _ ih =>
    obtain ⟨ho, hws⟩ := spelled_cons.mp hws
    have hoperator : o ∈ ["+", "-", "!"] := by
      rcases hk with rfl | rfl
      · exact List.mem_append_left ["!"] ho
      · exact List.mem_append_right ["+", "-"] ho
    simp only [Expr.isWellFormed, List.contains_eq_mem, hoperator, ih hws, decide_true,
      Bool.and_true]
  | number digits hfinite => exact Binary64.isWhole_nearest hfinite
  | text quoted => exact isQuotable_unquote (spelled_cons.mp hws).1
  | trueLit | falseLit | nullLit => rfl
  | paren l r _ ih =>
    obtain ⟨-, hws⟩ := spelled_cons.mp hws
    exact ih (spelled_append.mp hws).1
  | ident x => exact (spelled_cons.mp hws).1

lemma DerivesDeclaration.isWellFormed {ws : List Word} {d : Declaration}
    (h : DerivesDeclaration ws d) (hws : Spelled ws) : d.isWellFormed := by
  cases h with
  | bare x =>
    have hx : isName x := (spelled_cons.mp hws).1
    simp [Declaration.isWellFormed, hx]
  | init x o he =>
    obtain ⟨hx, hws⟩ := spelled_cons.mp hws
    have hx : isName x := hx
    have he := he.isWellFormed (spelled_cons.mp hws).2
    simp [Declaration.isWellFormed, hx, he]

lemma DerivesDeclarations.isWellFormed {ws : List Word} {ds : List Declaration}
    (h : DerivesDeclarations ws ds) (hws : Spelled ws) :
    ds.isEmpty = false ∧ ds.all (·.isWellFormed) := by
  induction h with
  | one h =>
    have hd := h.isWellFormed hws
    simp [hd]
  | more o h _ ih =>
    obtain ⟨hws, hus⟩ := spelled_append.mp hws
    have hd := h.isWellFormed hws
    have hds := (ih (spelled_cons.mp hus).2).2
    exact ⟨rfl, by rw [List.all_cons, hd, hds]; rfl⟩

mutual

lemma DerivesStmt.isWellFormed {ws : List Word} {s : Stmt} (h : DerivesStmt ws s)
    (hws : Spelled ws) : s.isWellFormed := by
  cases h with
  | empty o => rfl
  | ifThen i l r he hs =>
    obtain ⟨hws, hus⟩ := spelled_append.mp hws
    have he := he.isWellFormed (spelled_cons.mp (spelled_cons.mp hws).2).2
    have hs := hs.isWellFormed (spelled_cons.mp hus).2
    rw [Stmt.isWellFormed, he, hs]
    rfl
  | ifElse i l r o he hs hclosed hs' =>
    obtain ⟨hws, hvs⟩ := spelled_append.mp hws
    obtain ⟨hws, hus⟩ := spelled_append.mp hws
    have he := he.isWellFormed (spelled_cons.mp (spelled_cons.mp hws).2).2
    have hs := hs.isWellFormed (spelled_cons.mp hus).2
    have hs' := hs'.isWellFormed (spelled_cons.mp hvs).2
    rw [Stmt.isWellFormed, he, hs, hs', hclosed]
    rfl
  | block l r hbody =>
    obtain ⟨-, hws⟩ := spelled_cons.mp hws
    exact hbody.allWellFormed (spelled_append.mp hws).1
  | declare l o hds =>
    obtain ⟨-, hws⟩ := spelled_cons.mp hws
    obtain ⟨hne, hall⟩ := hds.isWellFormed (spelled_append.mp hws).1
    rw [Stmt.isWellFormed, hne, hall]
    rfl
  | expr o he => exact he.isWellFormed (spelled_append.mp hws).1

lemma DerivesBody.allWellFormed {ws : List Word} {body : List Stmt} (h : DerivesBody ws body)
    (hws : Spelled ws) : Stmt.allWellFormed body := by
  cases h with
  | nil => rfl
  | cons hs hbody =>
    obtain ⟨hws, hus⟩ := spelled_append.mp hws
    rw [Stmt.allWellFormed, hs.isWellFormed hws, hbody.allWellFormed hus]
    rfl

end

/-- **What the grammar derives from words of a text is well formed.** -/
theorem DerivesProgram.isWellFormed {ws : List Word} {p : Program} (h : DerivesProgram ws p)
    (hws : Spelled ws) : p.isWellFormed :=
  DerivesBody.allWellFormed h hws

end Grammar

end Scriptlet
