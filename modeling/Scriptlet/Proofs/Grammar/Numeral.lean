/-
# Numerals

A numeral is a string of digits of any length.  The number it denotes is rounded to the nearest
double, and refused if it is too large for that.  What is read is a whole number: its plain view is
an integer as long as every integer is a double, and it is printed as a numeral again, without
superfluous zeros, which is read as the same number.

A rule refuses a numeral only after it is consumed, so a lexical error directly behind the numeral
comes first; apart from that, the numeral alone decides.
-/
import Scriptlet.Proofs.Binary64.Rounding
import Scriptlet.Proofs.Grammar.AssignmentChain
import Scriptlet.Proofs.Tree.View

namespace Scriptlet

open Reading Grammar

variable {s s' : Session} {t : Token} {e : Error} {n : Nat} {digits : String}

/-! ## Reading a numeral -/

namespace Grammar

lemma isFinite_digitsNumber_iff :
    (digitsNumber digits).isFinite ↔ digitsValue digits.toList < 2 ^ 1024 - 2 ^ 970 :=
  Binary64.isFinite_nearest_iff _

/-- A numeral that is consumed is read as a number unless it is too large. -/
lemma numeric_of_expect (ht : expect .number s = .ok t s') :
    numeric s =
      if 2 ^ 1024 - 2 ^ 970 ≤ digitsValue t.value.toList then
        .error ⟨.tooLarge t.value, t.span.start⟩ s'
      else .ok (.number (digitsNumber t.value)) s' := by
  refine (bind_of_ok ht _).trans ?_
  split
  · next hfinite =>
    rw [if_neg (Nat.not_le.mpr (isFinite_digitsNumber_iff.mp hfinite))]
    rfl
  · next hinfinite =>
    rw [isFinite_digitsNumber_iff, Nat.not_lt] at hinfinite
    rw [if_pos hinfinite]
    rfl

/-- A chain fails where its first operand does. -/
lemma binary_error_of_unary {inner : Reading Expr} (h : unary inner n s = .error e s')
    (level : Level) : binary inner n level s = .error e s' := by
  refine level_induction (P := fun level => binary inner n level s = .error e s') h ?_ level
  intro level k hlevel hnext
  rw [binary_of_operator? inner n hlevel, chain, hlevel]
  exact bind_of_error hnext _

/-- An expression that begins with a numeral fails if the numeral does. -/
lemma expression_error_of_numeric (hkind : s.kind? = some .number)
    (h : numeric s = .error e s') (hroom : s.room ≤ n) : expression n s = .error e s' := by
  obtain ⟨m, hm⟩ := exists_room_eq_succ hkind
  obtain ⟨n, rfl⟩ : ∃ k, n = k + 1 := ⟨n - 1, by omega⟩
  have hprimary : primary (expression n) s = .error e s' := by
    rw [literal_of_isLiteral hkind rfl, literal, peek_bind, hkind]
    exact h
  have hunary : unary (expression n) (n + 1) s = .error e s' := by
    rw [unary_of_startsPrimary hkind rfl]
    exact hprimary
  exact bind_of_error (binary_error_of_unary hunary .logicalOr) _

end Grammar

section Parsing

variable (hne : digits ≠ "") (hdigits : ∀ c ∈ digits.toList, c.isDigit) (file : Option String)

include hne hdigits

/-- The scan of a numeral with a semicolon behind it. -/
lemma scan_numeral :
    ∃ (t : Token) (items : List (Except Error Token)),
      scan (digits ++ ";") file = .ok t :: items ∧ t.kind = .number ∧ t.value = digits ∧
        t.span.start = ⟨0, file.getD defaultFile⟩ ∧ ∀ e, items.head? ≠ some (.error e) := by
  have hne' : digits.toList ≠ [] := by simpa using hne
  have hblank : Text.Blank [] := fun _ hc => absurd hc List.not_mem_nil
  let x : Lexeme := ⟨.number, digits.toList, [';']⟩
  have hnext := Cursor.next_of_lexeme (c := .start (digits ++ ";").toList) (x := x)
    (file.getD defaultFile) hblank (by simp [Cursor.start, x])
    (lexeme?_digits hne' hdigits (breaks_cons rfl))
  have hnil : Scans [] [] := .nil fun _ hc => absurd hc List.not_mem_nil
  obtain ⟨ts, hts, -⟩ := exists_drain_of_scans (file.getD defaultFile)
    (c := ⟨0 + Text.size [] + Text.size x.text, [';']⟩) (scans_mark ';' .semicolon rfl hnil)
  refine ⟨x.token (file.getD defaultFile) 0, ts.map .ok, ?_, rfl, ?_, rfl, ?_⟩
  · rw [scan, Cursor.drain_of_next_some hnext]
    exact congrArg _ hts
  · exact String.ofList_toList
  · cases ts <;> simp

/-- **A numeral by itself** is parsed as a number unless it is too large. -/
lemma parse_numeral :
    parse (digits ++ ";") file =
      if 2 ^ 1024 - 2 ^ 970 ≤ digitsValue digits.toList then
        .error ⟨.tooLarge digits, ⟨0, file.getD defaultFile⟩⟩
      else .ok ⟨[.expr (.number (digitsNumber digits))]⟩ := by
  have hne' : digits.toList ≠ [] := by simpa using hne
  split
  · next hge =>
    obtain ⟨t, items, hscan, hkind, rfl, hstart, hitems⟩ := scan_numeral hne hdigits file
    rw [← hstart]
    have hfront : scan (t.value ++ ";") file = ([] : List Token).map .ok ++ .ok t :: items := hscan
    refine parse_error_of_scan file hfront hitems ?_
    intro s s₁ s₂ hnil ht
    obtain rfl := consumes_nil_iff.mp hnil
    rw [hkind] at ht
    have hnumeric := numeric_of_expect ht
    rw [if_pos hge] at hnumeric
    have hfirst := kind?_of_expect ht
    exact Place.statement.program_error (consumes_nil_iff.mpr rfl) ⟨_, hfirst, rfl⟩ fun m hroom =>
      expression_error_of_numeric hfirst hnumeric hroom
  · next hlt =>
    have hfinite := isFinite_digitsNumber_iff.mpr (Nat.lt_of_not_le hlt)
    have hderives :=
      Place.statement.derives (DerivesExpr.bare (.number digits hfinite)).toAssignment
    refine parse_of_derives ?_ hderives
    simpa [Place.words] using (readAs_digits hne' hdigits).scans_semicolon

end Parsing

/-! ## The number that is read -/

/-- `v.StandsFor n m`: the double `v` is what a numeral for `n` is read as, and its value is `m`. -/
structure Binary64.StandsFor (v : Binary64) (n m : Nat) : Prop where
  /-- It is the double nearest to `n`, with ties to even. -/
  nearest : v.IsNearest n
  /-- It is a whole number. -/
  value_eq : v.value = m
  /-- Its sign bit is clear. -/
  isNegative_eq : v.isNegative = false
  /-- Up to `2 ^ 53` it is `n` itself. -/
  exact_of_le : n ≤ 2 ^ 53 → m = n
  /-- Its plain view is an integer up to `2 ^ 53`, and a double beyond. -/
  toJson_eq : (Expr.number v).toJson =
    .node .numericLiteral [("value", if m ≤ 2 ^ 53 then .int m else .double v)]
  /-- It is printed as digits, the first of which is no zero unless it is the only one. -/
  print_eq : ∃ ds : List Char, (Expr.number v).print = String.ofList ds ∧ ds ≠ [] ∧
    (∀ c ∈ ds, c.isDigit) ∧ (ds.head? = some '0' → ds = ['0'])
  /-- What is printed is read as the same number. -/
  parse_print : ∀ file, parse ((Expr.number v).print ++ ";") file = .ok ⟨[.expr (.number v)]⟩

/-- **The double next to a whole number stands for it**, if it is finite. -/
lemma standsFor_nearest (h : n < 2 ^ 1024 - 2 ^ 970) :
    ∃ m, (Binary64.nearest n 1).StandsFor n m := by
  have hfinite := (Binary64.isFinite_nearest_iff n).mpr h
  have hwhole := Binary64.isWhole_nearest hfinite
  obtain ⟨ds, htext, hne, hdigits, hvalue⟩ := Binary64.exists_digits_text hwhole
  have htoInt := Binary64.toInt?_of_isWhole hwhole
  refine ⟨_, Binary64.isNearest_nearest hfinite, Binary64.value_of_isWhole hwhole,
    Binary64.isNegative_nearest n 1, fun hle => ?_, ?_, ⟨ds, htext, hne, hdigits, fun hhead => ?_⟩,
    fun file => ?_⟩
  · rw [Binary64.units_nearest_of_le hle, Nat.mul_div_cancel _ Binary64.one_pos]
  · rw [Expr.toJson]
    split
    · next hle =>
      rw [if_pos hle] at htoInt
      rw [Json.ofNumber_of_toInt? htoInt]
    · next hgt =>
      rw [if_neg hgt] at htoInt
      rw [Json.ofNumber_of_isFinite hfinite htoInt]
  · have hzero := Binary64.text_eq_zero hwhole (by rw [htext, String.toList_ofList, hhead])
    rw [htext] at hzero
    simpa using congrArg String.toList hzero
  · have hne' : String.ofList ds ≠ "" := by simpa using hne
    have hread := parse_numeral hne' (by simpa using hdigits) file
    have hnumber : digitsNumber (String.ofList ds) = Binary64.nearest n 1 := by
      rw [digitsNumber, String.toList_ofList, hvalue]
    have hfinite' := isFinite_digitsNumber_iff.mp (hnumber ▸ hfinite)
    rw [if_neg (Nat.not_le.mpr hfinite'), hnumber] at hread
    rw [Expr.print, htext]
    exact hread

/-- **Numerals are read as the nearest double, and refused from `2 ^ 1024 - 2 ^ 970` on.**  A
numeral of any length that is consumed is refused, with its digits and the place where it begins,
exactly if the number is not below this bound; otherwise it is read as a double that stands for the
number.  If the token cannot be consumed, a lexical error comes up behind it, and this is
reported. -/
theorem numeral_reading (digits : String) (hne : digits ≠ "")
    (hdigits : ∀ c ∈ digits.toList, c.isDigit) :
    ∃ v : Binary64,
      (∀ (s : Session) (t : Token), s.lookahead = some t → t.kind = .number → t.value = digits →
        match expect .number s with
        | .ok _ s' =>
          numeric s =
            if 2 ^ 1024 - 2 ^ 970 ≤ digitsValue digits.toList then
              .error ⟨.tooLarge digits, t.span.start⟩ s'
            else .ok (.number v) s'
        | .error e s' => e.cause.phase = .lexical ∧ numeric s = .error e s') ∧
      (∀ file : Option String, parse (digits ++ ";") file =
        if 2 ^ 1024 - 2 ^ 970 ≤ digitsValue digits.toList then
          .error ⟨.tooLarge digits, ⟨0, file.getD "shell"⟩⟩
        else .ok ⟨[.expr (.number v)]⟩) ∧
      (digitsValue digits.toList < 2 ^ 1024 - 2 ^ 970 →
        ∃ m, v.StandsFor (digitsValue digits.toList) m) := by
  refine ⟨digitsNumber digits, fun s t hl hk hvalue => ?_, fun file => ?_, standsFor_nearest⟩
  · cases ht : expect .number s with
    | ok u s' =>
      have hread := numeric_of_expect ht
      obtain ⟨hl', -, -⟩ := expect_eq_ok_iff.mp ht
      obtain rfl := Option.some.inj (hl.symm.trans hl')
      rw [hvalue] at hread
      exact hread
    | error e s' =>
      have hkind : s.kind? = some .number := by rw [Session.kind?, hl, Option.map_some, hk]
      exact ⟨phase_of_expect hkind ht, bind_of_error ht _⟩
  · exact parse_numeral hne hdigits file

/-- The first number that is refused, the last one that is read, and a numeral with leading zeros in
front of the end of a source. -/
theorem numeral_reading_bound :
    parse (toString (2 ^ 1024 - 2 ^ 970) ++ ";") none =
      .error ⟨.tooLarge (toString (2 ^ 1024 - 2 ^ 970)), ⟨0, "shell"⟩⟩ ∧
    (∃ v m, parse (toString (2 ^ 1024 - 2 ^ 970 - 1) ++ ";") none = .ok ⟨[.expr (.number v)]⟩ ∧
      v.StandsFor (2 ^ 1024 - 2 ^ 970 - 1) m) ∧
    (∃ v s', numeric ⟨"shell", "007", ⟨3, []⟩,
        some ⟨.number, "007", ⟨⟨0, "shell"⟩, ⟨3, "shell"⟩⟩⟩, #[]⟩ = .ok (.number v) s' ∧
      v.StandsFor 7 7) := by
  have hread (n : Nat) := numeral_reading (toString n) (by simp)
    (by simpa [Nat.toString_eq_ofList_toDigits] using fun c =>
      Nat.isDigit_of_mem_toDigits (b := 10) (n := n) (by omega) (by omega))
  have hvalue (n : Nat) : digitsValue (toString n).toList = n := by
    rw [Nat.toString_eq_ofList_toDigits, String.toList_ofList]
    exact Nat.ofDigitChars_ten_toDigits
  refine ⟨?_, ?_, ?_⟩
  · obtain ⟨v, -, hparse, -⟩ := hread (2 ^ 1024 - 2 ^ 970)
    have hrefused := hparse none
    rw [hvalue, if_pos (Nat.le_refl _)] at hrefused
    exact hrefused
  · obtain ⟨v, -, hparse, hstands⟩ := hread (2 ^ 1024 - 2 ^ 970 - 1)
    have hlt : 2 ^ 1024 - 2 ^ 970 - 1 < 2 ^ 1024 - 2 ^ 970 := by decide +kernel
    have hread := hparse none
    rw [hvalue, if_neg (Nat.not_le.mpr hlt)] at hread
    rw [hvalue] at hstands
    obtain ⟨m, hm⟩ := hstands hlt
    exact ⟨v, m, hread, hm⟩
  · obtain ⟨v, htoken, -, hstands⟩ := numeral_reading "007" (by decide) (by simp)
    have hlt : digitsValue "007".toList < 2 ^ 1024 - 2 ^ 970 := by decide +kernel
    obtain ⟨m, hm⟩ := hstands hlt
    obtain rfl : m = 7 := hm.exact_of_le (by decide)
    let t : Token := ⟨.number, "007", ⟨⟨0, "shell"⟩, ⟨3, "shell"⟩⟩⟩
    let s : Session := ⟨"shell", "007", ⟨3, []⟩, some t, #[]⟩
    have hadvance : advance (s.consume t) = .ok () _ :=
      advance_eq_ok_iff.mpr ⟨none, _, Cursor.next_of_rest_nil rfl, rfl⟩
    have hnumeric := htoken s t rfl rfl rfl
    rw [expect_eq_ok_iff.mpr ⟨rfl, rfl, hadvance⟩] at hnumeric
    dsimp only at hnumeric
    rw [if_neg (Nat.not_le.mpr hlt)] at hnumeric
    exact ⟨v, _, hnumeric, hm⟩

end Scriptlet
