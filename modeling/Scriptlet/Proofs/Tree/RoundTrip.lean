/-
# Printing and parsing

The well-formed trees are exactly those that some source is parsed into, and each of them is parsed
back from its own text.  One half is that what the grammar derives is well formed, the other that
a well-formed tree is printed as words that derive it; the parser, which accepts exactly what the
grammar derives, ties the two together.
-/
import Scriptlet.Proofs.Grammar.Acceptance
import Scriptlet.Proofs.Tree.Spelling

namespace Scriptlet

variable {source : String} {file : Option String} {p : Program}

lemma isWellFormed_of_parse (h : parse source file = .ok p) : p.isWellFormed := by
  obtain ⟨ws, hscans, hderives⟩ := parse_eq_ok_iff_scans.mp h
  exact hderives.isWellFormed hscans.spells

lemma parse_print_of_isWellFormed (h : p.isWellFormed) (file : Option String) :
    parse p.print file = .ok p := by
  obtain ⟨ws, hscans, hderives⟩ := Program.exists_scans_print h
  exact parse_eq_ok_iff_scans.mpr ⟨ws, hscans, hderives⟩

/-- **The image of the parser.**  A tree is the tree of some source if and only if it is well
formed. -/
theorem exists_parse_eq_ok_iff_isWellFormed (p : Program) (file : Option String) :
    (∃ source, parse source file = .ok p) ↔ p.isWellFormed := by
  constructor
  · rintro ⟨source, h⟩
    exact isWellFormed_of_parse h
  · intro h
    exact ⟨p.print, parse_print_of_isWellFormed h file⟩

/-- **Printing and parsing again gives the same tree**, whatever the source was and whatever
the sources are called. -/
theorem parse_print_of_parse (source : String) (file file' : Option String) (p : Program)
    (h : parse source file = .ok p) : parse p.print file' = .ok p :=
  parse_print_of_isWellFormed (isWellFormed_of_parse h) file'

theorem parse_print_of_parse_conditional :
    parse "if (a) let s = ' it\x22s '; else b += - -c && !d;" (some "one") =
        .ok ⟨[.ifElse (.ident "a") (.declare [⟨"s", some (.text "it\x22s")⟩])
          (.expr (.assign "+=" "b" (.logical "&&" (.unary "-" (.unary "-" (.ident "c")))
            (.unary "!" (.ident "d")))))]⟩ ∧
      parse (Program.print ⟨[.ifElse (.ident "a") (.declare [⟨"s", some (.text "it\x22s")⟩])
          (.expr (.assign "+=" "b" (.logical "&&" (.unary "-" (.unary "-" (.ident "c")))
            (.unary "!" (.ident "d")))))]⟩) none =
        .ok ⟨[.ifElse (.ident "a") (.declare [⟨"s", some (.text "it\x22s")⟩])
          (.expr (.assign "+=" "b" (.logical "&&" (.unary "-" (.unary "-" (.ident "c")))
            (.unary "!" (.ident "d")))))]⟩ := by
  have hparse : parse "if (a) let s = ' it\x22s '; else b += - -c && !d;" (some "one") =
      .ok ⟨[.ifElse (.ident "a") (.declare [⟨"s", some (.text "it\x22s")⟩])
        (.expr (.assign "+=" "b" (.logical "&&" (.unary "-" (.unary "-" (.ident "c")))
          (.unary "!" (.ident "d")))))]⟩ := by
    cbv
  exact ⟨hparse, parse_print_of_parse _ (some "one") none _ hparse⟩

end Scriptlet
