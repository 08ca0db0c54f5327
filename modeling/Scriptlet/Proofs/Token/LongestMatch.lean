/-
# The longest match

What is at a place of a source is found by trials, in an order: blanks to pass over first, and then
the rows of the table of tokens.  The first trial that matches decides.  Where no digit is at the
place, the order does not matter: the trials that may match there match texts of different lengths,
and the longest comes first (`pairwise_outmatches`).  So the first match is the longest one, which is
the same for the trials in any order.

Digits are the exception.  A word may begin with them as far as its row is concerned, but the row of
numbers comes first and takes the digits alone.
-/
import Scriptlet.Proofs.Token.Join

namespace Scriptlet

/-! ## What is tried at a place -/

/-- What may be tried at a place: to pass over blanks, or to read a token of a row of the table. -/
inductive Trial where
  | blanks
  | token (row : Row)

/-- What a trial finds. -/
structure Match where
  /-- The kind of the token, if it is one. -/
  kind? : Option Kind
  /-- The text that is matched. -/
  text : List Char
  /-- What is behind it. -/
  rest : List Char
deriving DecidableEq, Repr

namespace Trial

/-- The shape of the text that a trial matches. -/
def pattern : Trial → Pattern
  | blanks => .run Text.isBlank
  | token row => row.pattern

/-- The kind of the token that a trial makes of the text it matches.  Blanks make none. -/
def kind? : Trial → String → Option Kind
  | blanks, _ => none
  | token row, text => some (row.kind text)

/-- What a trial finds at the beginning of a text. -/
def match? (t : Trial) (cs : List Char) : Option Match :=
  (t.pattern.split? cs).map fun (text, rest) => ⟨t.kind? (String.ofList text), text, rest⟩

end Trial

/-- All that is tried at a place, in the order in which it is tried. -/
def trials : List Trial := .blanks :: tokenTable.map .token

/-- What the first trial that matches finds. -/
def firstMatch? (ts : List Trial) (cs : List Char) : Option Match := ts.findSome? (·.match? cs)

/-- The longest of the texts that are matched, whichever trial matches it. -/
def longestMatch? (ts : List Trial) (cs : List Char) : Option Match :=
  (ts.filterMap (·.match? cs)).argmax (·.text.length)

/-- What the trial of number `i` finds. -/
def matchAt? (ts : List Trial) (cs : List Char) (i : Nat) : Option Match :=
  ts[i]?.bind (·.match? cs)

/-- The trial of number `i` is the first that matches. -/
def IsFirst (ts : List Trial) (cs : List Char) (i : Nat) : Prop :=
  (∃ m, matchAt? ts cs i = some m) ∧ ∀ j < i, matchAt? ts cs j = none

/-- The trial of number `i` matches, and no trial matches a longer text. -/
def IsLongest (ts : List Trial) (cs : List Char) (i : Nat) : Prop :=
  ∃ m, matchAt? ts cs i = some m ∧
    ∀ j n, matchAt? ts cs j = some n → n.text.length ≤ m.text.length

/-- What a scan does at a place, by what is found there: it goes on behind blanks, it yields a token,
and it ends with an error where nothing is found. -/
def Cursor.follow (file : String) (c : Cursor) :
    Option Match → Option (Except Error Token) × Cursor
  | some ⟨none, text, rest⟩ => (⟨c.offset + Text.size text, rest⟩ : Cursor).next file
  | some ⟨some k, text, rest⟩ =>
    let after := c.offset + Text.size text
    (some (.ok ⟨k, String.ofList text, ⟨⟨c.offset, file⟩, ⟨after, file⟩⟩⟩), ⟨after, rest⟩)
  | none =>
    (some (.error ⟨.unrecognised (String.ofList (c.rest.take 1)), ⟨c.offset, file⟩⟩), c.finish)

/-- The kinds of the reserved words. -/
def Kind.keywords : List Kind := [.letWord, .ifWord, .elseWord, .trueWord, .falseWord, .nullWord]

variable {ts us : List Trial} {c : Char} {cs : List Char} {i j : Nat} {m n : Match}

/-! ## Trials that match in the order of length -/

/-- Where two trials both match, the first matches the longer text. -/
def Trial.Outmatches (cs : List Char) (t u : Trial) : Prop :=
  ∀ m n, t.match? cs = some m → u.match? cs = some n → n.text.length < m.text.length

lemma length_lt_of_matchAt? (h : ts.Pairwise (Trial.Outmatches cs)) (hij : i < j)
    (hm : matchAt? ts cs i = some m) (hn : matchAt? ts cs j = some n) :
    n.text.length < m.text.length := by
  obtain ⟨t, ht, hm⟩ := Option.bind_eq_some_iff.mp hm
  obtain ⟨u, hu, hn⟩ := Option.bind_eq_some_iff.mp hn
  obtain ⟨hi, rfl⟩ := List.getElem?_eq_some_iff.mp ht
  obtain ⟨hj, rfl⟩ := List.getElem?_eq_some_iff.mp hu
  exact List.pairwise_iff_getElem.mp h i j hi hj hij m n hm hn

/-- **The longest match is the first one.** -/
lemma isLongest_iff_isFirst (h : ts.Pairwise (Trial.Outmatches cs)) :
    IsLongest ts cs i ↔ IsFirst ts cs i := by
  constructor
  · rintro ⟨m, hm, hlongest⟩
    refine ⟨⟨m, hm⟩, fun j hj => ?_⟩
    by_contra hsome
    obtain ⟨n, hn⟩ := Option.ne_none_iff_exists'.mp hsome
    have hlt := length_lt_of_matchAt? h hj hn hm
    have hle := hlongest j n hn
    omega
  · rintro ⟨⟨m, hm⟩, hfirst⟩
    refine ⟨m, hm, fun j n hn => ?_⟩
    rcases Nat.lt_trichotomy j i with hj | rfl | hj
    · rw [hfirst j hj] at hn
      cases hn
    · rw [Option.some.inj (hm.symm.trans hn)]
    · exact (length_lt_of_matchAt? h hj hm hn).le

lemma IsFirst.eq (hi : IsFirst ts cs i) (hj : IsFirst ts cs j) : i = j := by
  obtain ⟨⟨m, hm⟩, hbefore⟩ := hi
  obtain ⟨⟨n, hn⟩, hbefore'⟩ := hj
  rcases Nat.lt_trichotomy i j with hij | hij | hij
  · simp [hbefore' i hij] at hm
  · exact hij
  · simp [hbefore j hij] at hn

/-- **The longest match does not depend on the order of the trials**, and it is what the first match
is in the right order. -/
lemma longestMatch?_of_perm (h : ts.Pairwise (Trial.Outmatches cs)) (hperm : us.Perm ts) :
    longestMatch? us cs = firstMatch? ts cs := by
  have hmatches : (us.filterMap (·.match? cs)).Perm (ts.filterMap (·.match? cs)) :=
    hperm.filterMap _
  have hpairwise : (ts.filterMap (·.match? cs)).Pairwise
      (fun m n => n.text.length < m.text.length) :=
    List.pairwise_filterMap.mpr (h.imp fun htu m hm n hn => htu m n hm hn)
  rw [longestMatch?, firstMatch?, ← List.head?_filterMap]
  generalize us.filterMap (·.match? cs) = found at hmatches
  generalize ts.filterMap (·.match? cs) = ordered at hmatches hpairwise
  cases ordered with
  | nil => rw [hmatches.eq_nil]; rfl
  | cons m ms =>
    have hle : ∀ n ∈ found, n.text.length < m.text.length ∨ n = m := by
      intro n hn
      rcases List.mem_cons.mp (hmatches.mem_iff.mp hn) with rfl | hn
      · exact .inr rfl
      · exact .inl ((List.pairwise_cons.mp hpairwise).1 n hn)
    refine List.mem_argmax_iff.mpr ⟨hmatches.mem_iff.mpr List.mem_cons_self, ?_, ?_⟩
    · intro n hn
      rcases hle n hn with hlt | rfl
      · exact hlt.le
      · exact le_rfl
    · intro n hn hlen
      rcases hle n hn with hlt | rfl
      · omega
      · exact le_rfl

/-! ## The rows that may match -/

namespace Pattern

/-- Whether a pattern matches wherever its first character is. -/
def isSure : Pattern → Bool
  | one _ | run _ | oneOrTwo .. => true
  | _ => false

variable {pattern : Pattern} {text rest : List Char}

@[simp] lemma starts_one (p : Char → Bool) : (one p).starts c = p c := rfl

@[simp] lemma starts_run (p : Char → Bool) : (run p).starts c = p c := rfl

@[simp] lemma starts_two (p : Char → Bool) (d : Char) : (two p d).starts c = p c := rfl

@[simp] lemma starts_oneOrTwo (p : Char → Bool) (d : Char) : (oneOrTwo p d).starts c = p c := rfl

@[simp] lemma starts_quoted (q : Char) : (quoted q).starts c = (c == q) := rfl

lemma starts_of_split? (h : pattern.split? (c :: cs) = some (text, rest)) : pattern.starts c := by
  by_contra hstarts
  rw [split?_eq_none_of_starts (Bool.eq_false_iff.mpr hstarts)] at h
  cases h

lemma split?_ne_none_of_isSure (hsure : pattern.isSure) (h : pattern.starts c) (cs : List Char) :
    pattern.split? (c :: cs) ≠ none := by
  cases pattern with
  | one p | run p => simp_all [starts, split?]
  | oneOrTwo p d =>
    have hp : p c := h
    rw [split?_oneOrTwo_cons, if_pos hp]
    split <;> exact Option.some_ne_none _
  | two p d | quoted q => cases hsure

/-- A quoted text needs its closing quote. -/
lemma split?_quoted_eq_none_iff : (quoted c).split? (c :: cs) = none ↔ c ∉ cs := by
  rw [split?, if_pos rfl]
  split
  · next hdrop => simpa [List.dropWhile_eq_nil_iff, List.forall_mem_ne'] using hdrop
  · next e ds hdrop =>
    have hne : cs.dropWhile (· ≠ c) ≠ [] := fun hnil => by cases hdrop.symm.trans hnil
    simpa [List.dropWhile_eq_nil_iff] using hne

end Pattern

/-- Texts that do not begin with a mark may only be numbers and words. -/
lemma candidates_of_not_mem_marks (h : c ∉ marks) :
    candidates c =
      [.always (.run Char.isDigit) .number, ⟨.run isWordChar, Kind.ofWord⟩].filter
        (·.pattern.starts c) := by
  have htable : tokenTable = tokenTable.take 6 ++
      ([.always (.run Char.isDigit) .number, ⟨.run isWordChar, Kind.ofWord⟩] ++
        tokenTable.drop 8) := rfl
  simp only [marks, List.mem_cons, List.not_mem_nil, or_false, not_or] at h
  have hbefore : ∀ row ∈ tokenTable.take 6, ¬row.pattern.starts c := by
    simp [tokenTable, Row.always, h]
  have hafter : ∀ row ∈ tokenTable.drop 8, ¬row.pattern.starts c := by
    simp [tokenTable, Row.always, h]
  rw [candidates, htable, List.filter_append, List.filter_append,
    List.filter_eq_nil_iff.mpr hbefore, List.filter_eq_nil_iff.mpr hafter, List.append_nil,
    List.nil_append]

/-- Of two rows that may match a text that begins with a mark, the first asks for two characters and
the second for one. -/
lemma candidates_of_mem_marks (h : c ∈ marks) :
    (∃ row, candidates c = [row]) ∨
      ∃ p k q l, candidates c = [.always (.two p '=') k, .always (.one q) l] := by
  simp only [marks, List.mem_cons, List.not_mem_nil, or_false] at h
  rcases h with rfl | rfl | rfl | rfl | rfl | rfl | rfl | rfl | rfl | rfl | rfl | rfl | rfl | rfl |
      rfl | rfl | rfl | rfl <;>
    first
      | exact .inl ⟨_, rfl⟩
      | exact .inr ⟨_, _, _, _, rfl⟩

/-- Some row matches wherever a mark is that is no quote, `&` or `|`. -/
lemma exists_isSure_of_mem_marks (h : c ∈ marks) (hquote : ¬isQuote c) (hand : c ≠ '&')
    (hor : c ≠ '|') : ∃ row ∈ candidates c, row.pattern.isSure := by
  have hmarks : marks.all fun c =>
      c == '\x22' || c == '\x27' || c == '&' || c == '|' ||
        (candidates c).any (·.pattern.isSure) := rfl
  have hc := List.all_eq_true.mp hmarks c h
  simp only [Bool.or_eq_true, beq_iff_eq, List.any_eq_true] at hc
  rcases hc with (((hc | hc) | hc) | hc) | hc
  · exact absurd (.inl hc) hquote
  · exact absurd (.inr hc) hquote
  · exact absurd hc hand
  · exact absurd hc hor
  · exact hc

lemma not_mem_marks_of_isWordChar (h : isWordChar c) : c ∉ marks := by
  have hmarks : marks.all (fun d => !isWordChar d) := rfl
  intro hc
  simpa [h] using List.all_eq_true.mp hmarks c hc

lemma not_mem_marks_of_isBlank (h : Text.isBlank c) : c ∉ marks := by
  have hmarks : marks.all (fun d => !Text.isBlank d) := rfl
  intro hc
  simpa [h] using List.all_eq_true.mp hmarks c hc

/-! ## The trials in their order -/

lemma Trial.match?_eq_some_iff {t : Trial} :
    t.match? cs = some m ↔ t.pattern.split? cs = some (m.text, m.rest) ∧
      m.kind? = t.kind? (String.ofList m.text) := by
  rw [match?, Option.map_eq_some_iff]
  constructor
  · rintro ⟨⟨text, rest⟩, hsplit, rfl⟩
    exact ⟨hsplit, rfl⟩
  · rintro ⟨hsplit, hkind⟩
    refine ⟨_, hsplit, ?_⟩
    show Match.mk (t.kind? (String.ofList m.text)) m.text m.rest = m
    rw [← hkind]

/-- Rows outmatch each other if those do that may match at all. -/
lemma pairwise_outmatches_of_candidates
    (h : ((candidates c).map .token).Pairwise (Trial.Outmatches (c :: cs))) :
    trials.Pairwise (Trial.Outmatches (c :: cs)) := by
  have hstarts {t : Trial} {m : Match} (hm : t.match? (c :: cs) = some m) : t.pattern.starts c :=
    Pattern.starts_of_split? (Trial.match?_eq_some_iff.mp hm).1
  refine List.pairwise_cons.mpr ⟨?_, ?_⟩
  · intro t ht m n hm hn
    obtain ⟨row, hrow, rfl⟩ := List.mem_map.mp ht
    have hblank : Text.isBlank c := hstarts hm
    rcases starts_cases hrow (hstarts hn) with hword | hmark
    · simp [not_isBlank_of_isWordChar hword] at hblank
    · exact absurd hmark (not_mem_marks_of_isBlank hblank)
  · rw [candidates, List.pairwise_map, List.pairwise_filter] at h
    refine List.pairwise_map.mpr (h.imp fun hrows m n hm hn => ?_)
    exact hrows (hstarts hm) (hstarts hn) m n hm hn

/-- **Where there is no digit, a trial that matches is longer than any later one.** -/
theorem pairwise_outmatches (hdigit : c.isDigit = false) (cs : List Char) :
    trials.Pairwise (Trial.Outmatches (c :: cs)) := by
  apply pairwise_outmatches_of_candidates
  by_cases hmark : c ∈ marks
  · rcases candidates_of_mem_marks hmark with ⟨row, hrow⟩ | ⟨p, k, q, l, hrows⟩
    · rw [hrow]
      exact List.pairwise_singleton _ _
    · rw [hrows]
      refine List.pairwise_pair.mpr fun m n hm hn => ?_
      obtain ⟨hm, -⟩ := Trial.match?_eq_some_iff.mp hm
      obtain ⟨hn, -⟩ := Trial.match?_eq_some_iff.mp hn
      obtain ⟨_, -, htext⟩ := Pattern.split?_two hm
      obtain ⟨_, -, htext'⟩ := Pattern.split?_one hn
      simp [htext, htext']
  · -- of the rows of numbers and of words only the second is left
    have hnumber : (Row.always (.run Char.isDigit) .number).pattern.starts c = false := hdigit
    rw [candidates_of_not_mem_marks hmark, List.filter_cons_of_neg (by simp [hnumber])]
    cases hword : isWordChar c <;> simp [hword]

/-! ## The first match -/

/-- Blanks are passed over, as many as there are. -/
lemma firstMatch?_of_isBlank (h : Text.isBlank c) (cs : List Char) :
    firstMatch? trials (c :: cs) =
      some ⟨none, c :: cs.takeWhile Text.isBlank, cs.dropWhile Text.isBlank⟩ := by
  simp [firstMatch?, trials, Trial.match?, Trial.pattern, Trial.kind?, Pattern.split?, h]

/-- Where there is no blank, a scan finds the lexeme of the table. -/
lemma firstMatch?_of_not_isBlank (h : Text.isBlank c = false) (cs : List Char) :
    firstMatch? trials (c :: cs) =
      (lexeme? (c :: cs)).map fun x => ⟨some x.kind, x.text, x.rest⟩ := by
  have hblanks : Trial.blanks.match? (c :: cs) = none := by
    simp [Trial.match?, Trial.pattern, Pattern.split?, h]
  have htoken (row : Row) : (Trial.token row).match? (c :: cs) =
      (row.lexeme? (c :: cs)).map fun x => ⟨some x.kind, x.text, x.rest⟩ := by
    rw [Trial.match?, Row.lexeme?, Option.map_map]
    rfl
  rw [firstMatch?, trials, List.findSome?_cons, hblanks, List.findSome?_map, lexeme?,
    List.map_findSome?]
  exact congrArg (tokenTable.findSome? ·) (funext htoken)

/-- **A scan goes by the first match.** -/
lemma Cursor.next_eq_follow (file : String) (offset : Nat) (c : Char) (cs : List Char) :
    (⟨offset, c :: cs⟩ : Cursor).next file =
      (⟨offset, c :: cs⟩ : Cursor).follow file (firstMatch? trials (c :: cs)) := by
  cases hblank : Text.isBlank c with
  | true =>
    have hbs : Text.Blank (c :: cs.takeWhile Text.isBlank) := by
      refine List.forall_mem_cons.mpr ⟨hblank, ?_⟩
      exact List.all_eq_true.mp List.all_takeWhile
    have hcs : c :: cs = (c :: cs.takeWhile Text.isBlank) ++ cs.dropWhile Text.isBlank := by
      rw [List.cons_append, List.takeWhile_append_dropWhile]
    rw [firstMatch?_of_isBlank hblank]
    conv_lhs => rw [hcs, next_blanks file hbs]
    rfl
  | false =>
    have hskip : (⟨offset, c :: cs⟩ : Cursor).skipBlanks = ⟨offset, c :: cs⟩ := by
      simp [skipBlanks, hblank]
    rw [next, hskip, read, firstMatch?_of_not_isBlank hblank]
    cases lexeme? (c :: cs) with
    | none => rfl
    | some x => rfl

/-- **A number is made of the digits alone.** -/
lemma firstMatch?_digit (h : c.isDigit) (cs : List Char) :
    firstMatch? trials (c :: cs) =
      some ⟨some .number, c :: cs.takeWhile Char.isDigit, cs.dropWhile Char.isDigit⟩ := by
  rw [firstMatch?_of_not_isBlank (not_isBlank_of_isWordChar (isWordChar_of_isDigit h)),
    lexeme?_digit h]
  rfl

lemma firstMatch?_word (h : isWordChar c) (hdigit : c.isDigit = false) (cs : List Char) :
    firstMatch? trials (c :: cs) =
      some ⟨some (Kind.ofWord (String.ofList (c :: cs.takeWhile isWordChar))),
        c :: cs.takeWhile isWordChar, cs.dropWhile isWordChar⟩ := by
  rw [firstMatch?_of_not_isBlank (not_isBlank_of_isWordChar h), lexeme?_word h hdigit]
  rfl

/-! ## Numbers and words -/

/-- A trial that matches where a digit is takes the digits or, with them, the word they begin. -/
lemma text_of_matchAt?_digit (h : c.isDigit) (hm : matchAt? trials (c :: cs) i = some m) :
    m.text = c :: cs.takeWhile Char.isDigit ∨ m.text = c :: cs.takeWhile isWordChar := by
  obtain ⟨t, ht, hm⟩ := Option.bind_eq_some_iff.mp hm
  obtain ⟨hsplit, -⟩ := Trial.match?_eq_some_iff.mp hm
  have hstarts := Pattern.starts_of_split? hsplit
  have hword := isWordChar_of_isDigit h
  rcases List.mem_cons.mp (List.mem_of_getElem? ht) with rfl | ht
  · have hblank : Text.isBlank c := hstarts
    simp [not_isBlank_of_isWordChar hword] at hblank
  · obtain ⟨row, hrow, rfl⟩ := List.mem_map.mp ht
    have hcandidate : row ∈ candidates c := List.mem_filter.mpr ⟨hrow, hstarts⟩
    rw [candidates_of_not_mem_marks (not_mem_marks_of_isWordChar hword)] at hcandidate
    have hrows := List.mem_of_mem_filter hcandidate
    simp only [List.mem_cons, List.not_mem_nil, or_false] at hrows
    rcases hrows with rfl | rfl
    · obtain ⟨d, ds, hcs, -, htext⟩ := Pattern.split?_run hsplit
      obtain ⟨rfl, rfl⟩ := List.cons.inj hcs
      exact .inl htext
    · obtain ⟨d, ds, hcs, -, htext⟩ := Pattern.split?_run hsplit
      obtain ⟨rfl, rfl⟩ := List.cons.inj hcs
      exact .inr htext

/-- **A longer text is matched where digits are** exactly if a word goes on behind them. -/
lemma exists_longer_iff (h : c.isDigit) (cs : List Char) :
    (∃ i m, matchAt? trials (c :: cs) i = some m ∧
        (c :: cs.takeWhile Char.isDigit).length < m.text.length) ↔
      ∃ d, (cs.dropWhile Char.isDigit).head? = some d ∧ isWordChar d := by
  have hword : cs.takeWhile isWordChar =
      cs.takeWhile Char.isDigit ++ (cs.dropWhile Char.isDigit).takeWhile isWordChar := by
    conv_lhs => rw [← List.takeWhile_append_dropWhile (p := Char.isDigit) (l := cs)]
    refine List.takeWhile_append_of_pos fun d hd => isWordChar_of_isDigit ?_
    exact List.all_eq_true.mp List.all_takeWhile d hd
  constructor
  · rintro ⟨i, m, hm, hlonger⟩
    rcases text_of_matchAt?_digit h hm with htext | htext
    · rw [htext] at hlonger
      omega
    · rw [htext, hword] at hlonger
      cases hbehind : cs.dropWhile Char.isDigit with
      | nil => simp [hbehind] at hlonger
      | cons d ds =>
        refine ⟨d, rfl, ?_⟩
        by_contra hd
        simp [hbehind, hd] at hlonger
  · rintro ⟨d, hd, hisWord⟩
    -- the row of words is the eighth of the table
    refine ⟨8, ⟨some (Kind.ofWord (String.ofList (c :: cs.takeWhile isWordChar))),
      c :: cs.takeWhile isWordChar, cs.dropWhile isWordChar⟩, ?_, ?_⟩
    · show (Trial.token ⟨.run isWordChar, Kind.ofWord⟩).match? (c :: cs) = _
      simp [Trial.match?, Trial.pattern, Trial.kind?, Pattern.split?, isWordChar_of_isDigit h]
    · obtain ⟨ds, hds⟩ := List.head?_eq_some_iff.mp hd
      simp [hword, hds, hisWord]

/-- A reserved word begins with a letter. -/
lemma isWordChar_of_reserved
    (h : String.ofList (c :: cs) ∈ ["let", "if", "else", "true", "false", "null"]) :
    isWordChar c ∧ c.isDigit = false := by
  have hwords : ∀ w ∈ ["let", "if", "else", "true", "false", "null"], ∀ d,
      w.toList.head? = some d → isWordChar d ∧ d.isDigit = false := by simp; decide
  exact hwords _ h c (by rw [String.toList_ofList]; rfl)

lemma ofWord_of_reserved {s : String}
    (h : s ∈ ["let", "if", "else", "true", "false", "null"]) :
    Kind.ofWord s ∈ Kind.keywords ∧ (Kind.ofWord s).label = s := by
  simp only [List.mem_cons, List.not_mem_nil, or_false] at h
  rcases h with rfl | rfl | rfl | rfl | rfl | rfl <;> decide

lemma ofWord_of_not_reserved {s : String}
    (h : s ∉ ["let", "if", "else", "true", "false", "null"]) : Kind.ofWord s = .identifier := by
  rw [Kind.ofWord, ofReserved?_eq_none_iff.mpr h]
  rfl

lemma reserved_of_spells {k : Kind} {s : String} (hk : k ∈ Kind.keywords) (h : k.Spells s) :
    s ∈ ["let", "if", "else", "true", "false", "null"] := by
  simp only [Kind.keywords, List.mem_cons, List.not_mem_nil, or_false] at hk
  rcases hk with rfl | rfl | rfl | rfl | rfl | rfl <;>
  · have hs := List.mem_singleton.mp h
    simp [hs]

/-- **A word is a keyword exactly if it is, as a whole, reserved.** -/
lemma exists_keyword_iff (c : Char) (cs : List Char) :
    (∃ k ∈ Kind.keywords, ∃ text rest, firstMatch? trials (c :: cs) = some ⟨some k, text, rest⟩) ↔
      String.ofList ((c :: cs).takeWhile isWordChar) ∈
        ["let", "if", "else", "true", "false", "null"] := by
  constructor
  · rintro ⟨k, hk, text, rest, hfirst⟩
    cases hblank : Text.isBlank c with
    | true => simp [firstMatch?_of_isBlank hblank] at hfirst
    | false =>
      rw [firstMatch?_of_not_isBlank hblank] at hfirst
      obtain ⟨x, hx, hmatch⟩ := Option.map_eq_some_iff.mp hfirst
      obtain ⟨hkind, rfl, rfl⟩ := Match.mk.inj hmatch
      obtain rfl := Option.some.inj hkind
      have hreserved := reserved_of_spells hk (spells_of_lexeme? hx)
      obtain ⟨d, ds, htext⟩ := List.exists_cons_of_ne_nil (text_ne_nil_of_lexeme? hx)
      have happend := append_of_lexeme? hx
      rw [htext, List.cons_append] at happend
      obtain rfl := (List.cons.inj happend).1
      obtain ⟨hword, hdigit⟩ := isWordChar_of_reserved (htext ▸ hreserved)
      have hlexeme := Option.some.inj (hx.symm.trans (lexeme?_word hword hdigit cs))
      rw [congrArg Lexeme.text hlexeme] at hreserved
      rwa [List.takeWhile_cons_of_pos hword]
  · intro hreserved
    cases hword : isWordChar c with
    | false => simp [hword] at hreserved
    | true =>
      rw [List.takeWhile_cons_of_pos hword] at hreserved
      obtain ⟨-, hdigit⟩ := isWordChar_of_reserved hreserved
      exact ⟨_, (ofWord_of_reserved hreserved).1, _, _, firstMatch?_word hword hdigit cs⟩

/-! ## Where nothing matches -/

lemma lexeme?_ne_none_of_isSure {row : Row} (hrow : row ∈ candidates c)
    (hsure : row.pattern.isSure) (cs : List Char) : lexeme? (c :: cs) ≠ none := by
  intro hnone
  rw [lexeme?_cons, List.findSome?_eq_none_iff] at hnone
  exact Pattern.split?_ne_none_of_isSure hsure (List.mem_filter.mp hrow).2 cs
    (Option.map_eq_none_iff.mp (hnone row hrow))

lemma lexeme?_eq_none_iff_of_singleton (row : Row) (h : candidates c = [row]) :
    lexeme? (c :: cs) = none ↔ row.pattern.split? (c :: cs) = none := by
  rw [lexeme?_cons, h, List.findSome?_singleton, Row.lexeme?, Option.map_eq_none_iff]

/-- A mark is a token, unless it is a quote that is not closed or one half of `&&` or `||`. -/
lemma lexeme?_eq_none_iff_of_mem_marks (h : c ∈ marks) (cs : List Char) :
    lexeme? (c :: cs) = none ↔
      (isQuote c ∧ c ∉ cs) ∨ (c = '&' ∧ cs.head? ≠ some '&') ∨ (c = '|' ∧ cs.head? ≠ some '|') := by
  by_cases hquote : isQuote c
  · have hne : c ≠ '&' ∧ c ≠ '|' := by rcases hquote with rfl | rfl <;> decide
    rw [lexeme?_eq_none_iff_of_singleton _ (candidates_of_isQuote hquote)]
    simp [Row.always, Pattern.split?_quoted_eq_none_iff, hquote, hne]
  by_cases hand : c = '&'
  · subst hand
    rw [lexeme?_eq_none_iff_of_singleton (.always (.two (· == '&') '&') .logicalAnd) rfl]
    simp [Row.always, Pattern.split?_two_cons, hquote]
  by_cases hor : c = '|'
  · subst hor
    rw [lexeme?_eq_none_iff_of_singleton (.always (.two (· == '|') '|') .logicalOr) rfl]
    simp [Row.always, Pattern.split?_two_cons, hquote]
  obtain ⟨row, hrow, hsure⟩ := exists_isSure_of_mem_marks h hquote hand hor
  simp [lexeme?_ne_none_of_isSure hrow hsure, hquote, hand, hor]

/-- Apart from marks, only words and numbers are tokens. -/
lemma lexeme?_eq_none_iff_of_not_mem_marks (h : c ∉ marks) (cs : List Char) :
    lexeme? (c :: cs) = none ↔ isWordChar c = false := by
  have hcandidates := candidates_of_not_mem_marks h
  cases hword : isWordChar c with
  | true =>
    have hrow : ⟨.run isWordChar, Kind.ofWord⟩ ∈ candidates c := by simp [hcandidates, hword]
    simp [lexeme?_ne_none_of_isSure hrow rfl]
  | false =>
    have hdigit : ¬c.isDigit := by
      intro hdigit
      simp [isWordChar_of_isDigit hdigit] at hword
    have hnone : candidates c = [] := by simp [hcandidates, Row.always, hword, hdigit]
    simp [lexeme?_cons, hnone]

/-- **Nothing matches** at a quote that is not closed, at a single `&` or `|`, and at a character that
no token begins with. -/
lemma firstMatch?_eq_none_iff (c : Char) (cs : List Char) :
    firstMatch? trials (c :: cs) = none ↔
      Text.isBlank c = false ∧
        ((isQuote c ∧ c ∉ cs) ∨ (c = '&' ∧ cs.head? ≠ some '&') ∨
          (c = '|' ∧ cs.head? ≠ some '|') ∨ (isWordChar c = false ∧ c ∉ marks)) := by
  cases hblank : Text.isBlank c with
  | true => simp [firstMatch?_of_isBlank hblank]
  | false =>
    rw [firstMatch?_of_not_isBlank hblank, Option.map_eq_none_iff]
    by_cases hmark : c ∈ marks
    · rw [lexeme?_eq_none_iff_of_mem_marks hmark]
      simp [hmark]
    · rw [lexeme?_eq_none_iff_of_not_mem_marks hmark]
      have hne : ¬isQuote c ∧ c ≠ '&' ∧ c ≠ '|' := by
        refine ⟨?_, ?_, ?_⟩
        · rintro (rfl | rfl) <;> exact hmark (by decide)
        · rintro rfl
          exact hmark (by decide)
        · rintro rfl
          exact hmark (by decide)
      simp [hne, hmark]

/-! ## The table as a longest-match scanner -/

/-- **The table of tokens is a longest-match scanner, with one exception.**  A scan goes by the first
trial that matches.  Where the text does not begin with a digit, only one trial matches as much as
any, and it is the first; so the scan finds the longest match, in whatever order the trials are
listed.  Where it begins with a digit, the scan finds a number, made of all the digits that follow
each other there; a trial matches more than that exactly if a word goes on behind them.  A word that
is reserved as a whole is a keyword, and every other one that does not begin with a digit is an
identifier.  Nothing matches at a quote that is not closed, at a single `&` or `|`, and at a character
that no token begins with. -/
theorem scan_longest_match (c : Char) (cs : List Char) :
    (∀ file offset, (⟨offset, c :: cs⟩ : Cursor).next file =
      (⟨offset, c :: cs⟩ : Cursor).follow file (firstMatch? trials (c :: cs))) ∧
    (c.isDigit = false →
      (∀ i j, IsLongest trials (c :: cs) i → IsLongest trials (c :: cs) j → i = j) ∧
      (∀ i, IsLongest trials (c :: cs) i ↔ IsFirst trials (c :: cs) i) ∧
      ∀ ts : List Trial, ts.Perm trials →
        longestMatch? ts (c :: cs) = firstMatch? trials (c :: cs)) ∧
    (c.isDigit →
      firstMatch? trials (c :: cs) =
        some ⟨some .number, c :: cs.takeWhile Char.isDigit, cs.dropWhile Char.isDigit⟩ ∧
      ((∃ i m, matchAt? trials (c :: cs) i = some m ∧
          (c :: cs.takeWhile Char.isDigit).length < m.text.length) ↔
        ∃ d, (cs.dropWhile Char.isDigit).head? = some d ∧ isWordChar d)) ∧
    ((∃ k ∈ Kind.keywords, ∃ text rest,
        firstMatch? trials (c :: cs) = some ⟨some k, text, rest⟩) ↔
      String.ofList ((c :: cs).takeWhile isWordChar) ∈
        ["let", "if", "else", "true", "false", "null"]) ∧
    (isWordChar c → c.isDigit = false →
      ∃ k, firstMatch? trials (c :: cs) =
          some ⟨some k, c :: cs.takeWhile isWordChar, cs.dropWhile isWordChar⟩ ∧
        (k = .identifier ∨ k ∈ Kind.keywords ∧
          k.label = String.ofList (c :: cs.takeWhile isWordChar))) ∧
    ((∀ t ∈ trials, t.match? (c :: cs) = none) ↔
      Text.isBlank c = false ∧
        ((isQuote c ∧ c ∉ cs) ∨ (c = '&' ∧ cs.head? ≠ some '&') ∨
          (c = '|' ∧ cs.head? ≠ some '|') ∨ (isWordChar c = false ∧ c ∉ marks))) := by
  refine ⟨fun file offset => Cursor.next_eq_follow file offset c cs, ?_, ?_,
    exists_keyword_iff c cs, ?_, ?_⟩
  · intro hdigit
    have hpairwise := pairwise_outmatches hdigit cs
    refine ⟨?_, fun i => isLongest_iff_isFirst hpairwise,
      fun ts hperm => longestMatch?_of_perm hpairwise hperm⟩
    intro i j hi hj
    exact ((isLongest_iff_isFirst hpairwise).mp hi).eq ((isLongest_iff_isFirst hpairwise).mp hj)
  · intro hdigit
    exact ⟨firstMatch?_digit hdigit cs, exists_longer_iff hdigit cs⟩
  · intro hword hdigit
    refine ⟨_, firstMatch?_word hword hdigit cs, ?_⟩
    by_cases hreserved : String.ofList (c :: cs.takeWhile isWordChar) ∈
        ["let", "if", "else", "true", "false", "null"]
    · exact .inr (ofWord_of_reserved hreserved)
    · exact .inl (ofWord_of_not_reserved hreserved)
  · rw [← firstMatch?_eq_none_iff, firstMatch?, List.findSome?_eq_none_iff]

/-- `==` is found in any order of the trials, and `12` is found in `12a`, where `12a` matches too. -/
theorem scan_longest_match_equality_number :
    (∀ ts : List Trial, ts.Perm trials →
      longestMatch? ts ['=', '=', 'x'] = some ⟨some .equality, ['=', '='], ['x']⟩) ∧
    firstMatch? trials ['1', '2', 'a'] = some ⟨some .number, ['1', '2'], ['a']⟩ ∧
    ∃ i m, matchAt? trials ['1', '2', 'a'] i = some m ∧ 2 < m.text.length := by
  have hequality := (scan_longest_match '=' ['=', 'x']).2.1 rfl
  have hnumber := (scan_longest_match '1' ['2', 'a']).2.2.1 rfl
  refine ⟨fun ts hperm => ?_, hnumber.1, hnumber.2.mpr ⟨'a', rfl, rfl⟩⟩
  rw [hequality.2.2 ts hperm]
  rfl

end Scriptlet
