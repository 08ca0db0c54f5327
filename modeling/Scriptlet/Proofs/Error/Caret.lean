/-
# Where the caret stands

A report shows the line of an error without the spaces it begins with, and below it a caret that is
moved to the left by as many places.  It is made up of a few rows (`Error.rows`), and there is one
unless the caret is too far to the right for a field (`Error.isSome_report?_iff`).

For every error and every source the two rows are laid out as they should be: the bars of their
margins are in one column, and in front of the caret there are as many characters as there are
bytes between the spaces and the place.  So the caret stands below the character at the place if
all characters before it are ASCII.

An error of a parse is at the end of the source or at a character that is not blank, so the place
is never among the spaces that are left out.  But the column of the caret is counted in bytes, and
that of the character in characters: the caret stands too far to the right by as many places as
the characters before it have bytes in excess of one each.
-/
import Scriptlet.Error.Report
import Scriptlet.Proofs.Grammar.Fault
import Scriptlet.Proofs.Text.Line
import Scriptlet.Proofs.Token.FreeCursor

namespace Scriptlet

/-! ## The rows of a report

What `Error.report?` writes where it writes anything, without regard to the limit on fields. -/

/-- The parts of a report that depend on where in the source the error is. -/
structure Snippet where
  /-- The number of the line. -/
  number : List Char
  /-- The line as it is shown. -/
  text : List Char
  /-- How many places into the shown line the caret is. -/
  column : Nat
deriving DecidableEq, Repr

namespace Snippet

/-- The snippet for a place in a line. -/
def ofLine (line : Text.Line) : Snippet where
  number := Nat.toDigits 10 line.number
  text := Text.trimEnd (line.text.dropWhile (· = ' '))
  column := line.offset - line.indent

/-- The margin of a row, with the sign that divides it from the row. -/
def margin (s : Snippet) (sign : Char) : List Char := [sign].leftpad (s.number.length + 2) ' '

/-- The row that shows the line. -/
def textRow (s : Snippet) : List Char := s.number ++ [' ', '|', ' '] ++ s.text

/-- The row that points into the line. -/
def caretRow (s : Snippet) : List Char :=
  s.margin '|' ++ ' ' :: ['^'].leftpad (s.column + 1) '-'

end Snippet

namespace Error

/-- The snippet of an error found in `source`. -/
def snippet (e : Error) (source : String) : Snippet :=
  .ofLine (Text.lineAt source.toList e.position.offset)

/-- The rows of a report. -/
def rows (e : Error) (source : String) : List String :=
  let s := e.snippet source
  ["Error: " ++ e.cause.name ++ " (" ++ e.cause.message ++ ")",
    "-> " ++ e.position.file,
    String.ofList (s.margin '|'),
    String.ofList s.textRow,
    String.ofList s.caretRow]
  ++ (e.cause.tip?.map fun tip => String.ofList (s.margin '=') ++ " help: " ++ tip).toList

/-- The rows of a report as one text. -/
def report (e : Error) (source : String) : String := "\n".intercalate (e.rows source)

end Error

/-! ## The two ends of a line -/

namespace Text

/-- A text of ASCII characters only. -/
def Ascii (cs : List Char) : Prop := ∀ c ∈ cs, c.toNat < 128

lemma utf8Size_eq_one_iff {c : Char} : c.utf8Size = 1 ↔ c.toNat < 128 := by
  rw [Char.utf8Size_eq_one_iff, UInt32.le_iff_toNat_le]
  exact Nat.lt_succ_iff.symm

/-- A text has as many bytes as characters exactly if all of them are ASCII. -/
lemma size_eq_length_iff {cs : List Char} : size cs = cs.length ↔ Ascii cs := by
  induction cs with
  | nil => simp [Ascii]
  | cons c cs ih =>
    have hc := c.utf8Size_pos
    have hcs := length_le_size cs
    rw [Ascii, List.forall_mem_cons, ← Ascii, ← ih, ← utf8Size_eq_one_iff, size_cons,
      List.length_cons]
    omega

variable {c : Char} {cs ds before after : List Char}

/-- What is cut off the end of a text is behind its last character that is not blank. -/
lemma trimEnd_append (cs : List Char) (h : ∃ d ∈ ds, isBlank d = false) :
    trimEnd (cs ++ ds) = cs ++ trimEnd ds := by
  have hne : ¬(ds.reverse.dropWhile isBlank).isEmpty := by
    rw [List.isEmpty_iff, List.dropWhile_eq_nil_iff]
    obtain ⟨d, hd, hblank⟩ := h
    exact fun hall => by simp [hall d (List.mem_reverse.mpr hd)] at hblank
  rw [trimEnd, List.reverse_append, List.dropWhile_append, if_neg hne, List.reverse_append,
    List.reverse_reverse]
  rfl

lemma trimEnd_append_blank (cs : List Char) (h : Blank ds) : trimEnd (cs ++ ds) = trimEnd cs := by
  have hrev : ∀ d ∈ ds.reverse, isBlank d := fun d hd => h d (List.mem_reverse.mp hd)
  rw [trimEnd, List.reverse_append, List.dropWhile_append_of_pos hrev]
  rfl

lemma trimEnd_cons (h : ∃ d ∈ c :: ds, isBlank d = false) :
    trimEnd (c :: ds) = c :: trimEnd ds := by
  by_cases hds : ∃ d ∈ ds, isBlank d = false
  · exact trimEnd_append [c] hds
  · have hblank : Blank ds := by simpa [Blank] using hds
    have hc : isBlank c = false := by
      obtain ⟨d, hd, hd'⟩ := h
      rcases List.mem_cons.mp hd with rfl | hd
      · exact hd'
      · exact absurd ⟨d, hd, hd'⟩ hds
    calc
      trimEnd (c :: ds) = trimEnd [c] := trimEnd_append_blank [c] hblank
      _ = c :: trimEnd [] := by simp [trimEnd, hc]
      _ = c :: trimEnd ([] ++ ds) := by rw [trimEnd_append_blank [] hblank]

lemma mem_of_mem_trimEnd (h : c ∈ trimEnd cs) : c ∈ cs := by
  rw [trimEnd, List.mem_reverse] at h
  exact List.mem_reverse.mp ((List.dropWhile_suffix isBlank).subset h)

namespace Line

variable {l : Line}

lemma indent_le_length (l : Line) : l.indent ≤ l.text.length :=
  (List.takeWhile_prefix _).length_le

lemma drop_indent (l : Line) : l.text.drop l.indent = l.text.dropWhile (· = ' ') := by
  conv_lhs => rw [← List.takeWhile_append_dropWhile (p := (· = ' ')) (l := l.text)]
  exact List.drop_left

/-- The spaces a line begins with are all before any other character. -/
lemma indent_le_of_ne_space (h : l.text = before ++ c :: after) (hc : c ≠ ' ') :
    l.indent ≤ before.length := by
  rw [indent, h, List.takeWhile_append]
  split
  · simp [hc]
  · exact (List.takeWhile_prefix _).length_le

/-- Spaces are as many bytes as characters, so a line can be cut behind its spaces. -/
lemma from?_indent (l : Line) : from? l.indent l.text = some (l.text.drop l.indent) := by
  have hsize : size (l.text.takeWhile (· = ' ')) = l.indent := by
    refine size_eq_length_iff.mpr fun c hc => ?_
    obtain rfl : c = ' ' := by simpa using List.mem_takeWhile_imp hc
    decide
  rw [from?_eq_some_iff, drop_indent]
  exact ⟨_, List.takeWhile_append_dropWhile.symm, hsize⟩

end Line

end Text

/-! ## The rows of a snippet -/

namespace Snippet

open Text

variable {l : Line} {c : Char} {before after : List Char}

lemma margin_eq (s : Snippet) (sign : Char) :
    s.margin sign = List.replicate (s.number.length + 1) ' ' ++ [sign] := rfl

lemma caretRow_eq (s : Snippet) :
    s.caretRow = List.replicate (s.number.length + 1) ' ' ++ ['|', ' '] ++
      List.replicate s.column '-' ++ ['^'] := by
  simp [caretRow, margin_eq, List.leftpad]

@[simp] lemma number_ofLine (l : Line) : (ofLine l).number = (toString l.number).toList := by
  rw [Nat.toString_eq_ofList_toDigits, String.toList_ofList]
  rfl

@[simp] lemma column_ofLine (l : Line) : (ofLine l).column = l.offset - l.indent := rfl

lemma textRow_ofLine (l : Line) :
    (ofLine l).textRow =
      (toString l.number).toList ++ [' ', '|', ' '] ++ trimEnd (l.text.drop l.indent) := by
  rw [textRow, number_ofLine, Line.drop_indent]
  rfl

/-- In front of the caret there are the margin, with its bar, and the places up to the caret. -/
lemma exists_caretRow_ofLine (l : Line) :
    ∃ front, (ofLine l).caretRow = front ++ ['^'] ∧ '^' ∉ front ∧ '\n' ∉ front ∧
      front.length = (toString l.number).length + 3 + (l.offset - l.indent) ∧
      front[(toString l.number).length + 1]? = some '|' := by
  refine ⟨_, caretRow_eq _, by simp, by simp, ?_, ?_⟩
  · simp only [number_ofLine, column_ofLine, List.length_append, List.length_replicate,
      List.length_cons, List.length_nil, String.length_toList]
  · rw [number_ofLine, String.length_toList, List.append_assoc,
      List.getElem?_append_right (by simp), List.length_replicate, Nat.sub_self]
    rfl

lemma idxOf_caretRow_ofLine (l : Line) :
    (ofLine l).caretRow.idxOf '^' = (toString l.number).length + 3 + (l.offset - l.indent) := by
  obtain ⟨front, hrow, hfront, -, hlength, -⟩ := exists_caretRow_ofLine l
  rw [hrow, List.idxOf_append_of_notMem hfront, List.idxOf_cons_self, hlength]
  rfl

/-- What the row of a line shows of the text `before`, with which the line begins. -/
def shownBefore (l : Line) (before : List Char) : List Char :=
  (toString l.number).toList ++ [' ', '|', ' '] ++ before.drop l.indent

/-- Up to a character that is not cut off, the row shows the line as it is. -/
lemma textRow_of_text_eq (htext : l.text = before ++ c :: after) (hle : l.indent ≤ before.length)
    (hshown : ∃ d ∈ c :: after, isBlank d = false) :
    (ofLine l).textRow = shownBefore l before ++ c :: trimEnd after := by
  rw [textRow_ofLine, htext, List.drop_append_of_le_length hle, trimEnd_append _ hshown,
    trimEnd_cons hshown, shownBefore]
  simp only [List.append_assoc]

/-- The caret is in the column of the place, moved to the right by the bytes that the characters
before have in excess of one each. -/
lemma idxOf_caretRow_of_size (hsize : size before = l.offset) (hle : l.indent ≤ before.length) :
    (ofLine l).caretRow.idxOf '^' =
      (shownBefore l before).length + (size before - before.length) := by
  have hlength := length_le_size before
  rw [idxOf_caretRow_ofLine, ← hsize, shownBefore]
  simp only [List.length_append, String.length_toList, List.length_drop, List.length_cons,
    List.length_nil]
  omega

/-- A row shows nothing of the newline that ends its line. -/
lemma newline_not_mem_textRow {head tail : List Char} (h : l.LiesBetween head tail) :
    '\n' ∉ (ofLine l).textRow := by
  have hnumber : '\n' ∉ Nat.toDigits 10 l.number := fun hmem =>
    absurd (Nat.isDigit_of_mem_toDigits (by omega) (by omega) hmem) (by decide)
  have htext : '\n' ∉ trimEnd (l.text.drop l.indent) := by
    rcases h.text_eq with ⟨init, htext, hplain, -⟩ | ⟨hplain, -, -⟩
    · have hle : l.indent ≤ init.length := Line.indent_le_of_ne_space htext (by decide)
      have hblank : Blank ['\n'] := by
        intro d hd
        rw [List.mem_singleton.mp hd]
        rfl
      rw [htext, List.drop_append_of_le_length hle, trimEnd_append_blank _ hblank]
      exact fun hmem => hplain (List.mem_of_mem_drop (mem_of_mem_trimEnd hmem))
    · exact fun hmem => hplain (List.mem_of_mem_drop (mem_of_mem_trimEnd hmem))
  rw [textRow_ofLine, List.mem_append, List.mem_append]
  simp [hnumber, htext]

end Snippet

/-! ## Where the errors of a parse are -/

/-- `Text.SolidAt n cs`: a character that is not blank stands `n` bytes into the text. -/
def Text.SolidAt (n : Nat) (cs : List Char) : Prop :=
  ∃ c rest, from? n cs = some (c :: rest) ∧ isBlank c = false

/-- Where what a scan yields begins. -/
def scannedAt : Except Error Token → Nat
  | .ok t => t.span.start.offset
  | .error e => e.position.offset

section Places

variable {source : String} {file : Option String} {e : Error}

/-- What a step yields begins at a character that is not blank. -/
lemma Cursor.IsAt.solidAt_of_next {name : String} {c d : Cursor} {item : Except Error Token}
    (h : c.IsAt source) (hnext : c.next name = (some item, d)) :
    Text.SolidAt (scannedAt item) source.toList := by
  have hskip : c.skipBlanks.IsAt source := h.move List.takeWhile_append_dropWhile.symm
  have hhead := List.head?_dropWhile_not Text.isBlank c.rest
  rw [Cursor.next, read] at hnext
  split at hnext
  · cases hnext
  · next ch cs hrest =>
    have hsolid : Text.SolidAt c.skipBlanks.offset source.toList := by
      refine ⟨ch, cs, ?_, ?_⟩
      · rw [isAt_iff.mp hskip, hrest]
      · have hdrop : c.rest.dropWhile Text.isBlank = ch :: cs := hrest
        rwa [hdrop] at hhead
    split at hnext <;> (cases hnext; exact hsolid)

/-- So does all that a whole scan yields. -/
lemma Cursor.IsAt.solidAt_of_mem_drain (name : String) (c : Cursor) (h : c.IsAt source) :
    ∀ item ∈ (c.drain name).1, Text.SolidAt (scannedAt item) source.toList := by
  -- along the scan; a step hands the invariant on to the cursor behind its item
  induction hn : c.rest.length using Nat.strongRecOn generalizing c with
  | ind n ih =>
    obtain ⟨item?, d, hnext⟩ : ∃ item? d, c.next name = (item?, d) := ⟨_, _, rfl⟩
    cases item? with
    | none => simp [drain_of_next_none hnext]
    | some item =>
      have hd : d.IsAt source := by simpa only [hnext] using h.next name
      rw [drain_of_next_some hnext]
      exact List.forall_mem_cons.mpr
        ⟨h.solidAt_of_next hnext, ih _ (hn ▸ length_rest_next_lt hnext) d hd rfl⟩

/-- **An error of a parse** is at the end of the source or at a character that is not blank. -/
lemma solidAt_of_parse (h : parse source file = .error e) :
    e.position.offset = Text.bytes source ∨ Text.SolidAt e.position.offset source.toList := by
  have hscan : ∀ item ∈ scan source file, Text.SolidAt (scannedAt item) source.toList :=
    (Cursor.isAt_start source).solidAt_of_mem_drain _ _
  obtain ⟨ws, hfault, -⟩ := exists_fault_of_parse h
  cases hfault with
  | lexical hitems => exact .inr (hscan (.error e) (by simp [hitems]))
  | ended _ _ he => exact .inl (by rw [he])
  | @misplaced _ t _ hitems _ _ _ hposition =>
    rw [hposition]
    exact .inr (hscan (.ok t) (by simp [hitems]))

/-- A character that is not blank is in its line behind the spaces. -/
lemma Text.SolidAt.exists_text_eq {cs : List Char} {n : Nat} (h : SolidAt n cs) :
    ∃ c rest before after, from? n cs = some (c :: rest) ∧ isBlank c = false ∧
      (lineAt cs n).text = before ++ c :: after ∧ size before = (lineAt cs n).offset ∧
      (lineAt cs n).indent ≤ before.length := by
  obtain ⟨c, rest, hfrom, hc⟩ := h
  obtain ⟨before, after, htext, hsize⟩ := Text.exists_text_eq hfrom
  have hspace : c ≠ ' ' := by
    rintro rfl
    exact absurd hc (by decide)
  exact ⟨c, rest, before, after, hfrom, hc, htext, hsize, Line.indent_le_of_ne_space htext hspace⟩

/-- The place of an error of a parse is not among the spaces its line begins with. -/
lemma indent_le_offset_of_parse (h : parse source file = .error e) :
    (Text.lineAt source.toList e.position.offset).indent ≤
      (Text.lineAt source.toList e.position.offset).offset := by
  rcases solidAt_of_parse h with hend | hsolid
  · have hle := Text.size_text_le_offset hend.ge
    exact ((Text.Line.indent_le_length _).trans (Text.length_le_size _)).trans hle
  · obtain ⟨c, rest, before, after, -, -, -, hsize, hle⟩ := hsolid.exists_text_eq
    rw [← hsize]
    exact hle.trans (Text.length_le_size before)

end Places

/-! ## Where there is a report -/

namespace Error

variable {e : Error} {source : String}

lemma field?_of_le {width : Nat} (h : width ≤ widthLimit) (filler sign : Char) :
    field? width filler sign = some (String.ofList ([sign].leftpad width filler)) := if_pos h

lemma le_of_field? {width : Nat} {filler sign : Char} {text : String}
    (h : field? width filler sign = some text) : width ≤ widthLimit := by
  by_contra hlt
  rw [field?, if_neg hlt] at h
  cases h

lemma length_repr (n : Nat) : n.repr.length = (Nat.toDigits 10 n).length := by
  rw [← String.length_toList, Nat.toList_repr]

/-- A report whose fields are not too wide can be written out. -/
lemma report?_of_le {l : Text.Line} (hl : Text.lineAt source.toList e.position.offset = l)
    (hnumber : (toString l.number).length + 2 ≤ widthLimit)
    (hcaret : l.offset - l.indent + 1 ≤ widthLimit) :
    e.report? source = some (e.report source) := by
  rw [report?, report, rows, snippet, hl]
  simp only [field?_of_le hnumber, field?_of_le hcaret, Text.Line.from?_indent, help?]
  -- Both sides are the same pieces put together in different ways.
  cases e.cause.tip? <;>
    simp [← String.toList_inj, Snippet.textRow_ofLine, Snippet.margin, Snippet.caretRow,
      length_repr]

/-- Where there is a report, no field is too wide, and it is made up of the rows. -/
lemma eq_report_of_report? {text : String} (h : e.report? source = some text) :
    let l := Text.lineAt source.toList e.position.offset
    l.offset - l.indent + 1 ≤ widthLimit ∧ text = e.report source := by
  intro l
  have hsteps := h
  simp only [report?, Option.bind_eq_bind, Option.bind_eq_some_iff] at hsteps
  obtain ⟨bar, hbar, -, -, caret, hcaret, -⟩ := hsteps
  have hreport := report?_of_le rfl (le_of_field? hbar) (le_of_field? hcaret)
  exact ⟨le_of_field? hcaret, Option.some.inj (h.symm.trans hreport)⟩

/-- A source that fits into memory has few enough lines for their numbers to be short. -/
lemma length_number_le (hsource : Text.bytes source < 2 ^ 64) (position : Nat) :
    (toString (Text.lineAt source.toList position).number).length ≤ 20 := by
  obtain ⟨head, tail, hfound⟩ := Text.exists_isFound_lineAt source.toList position
  have hcount : head.count '\n' ≤ Text.bytes source := calc
    head.count '\n' ≤ head.length := List.count_le_length
    _ ≤ Text.size head := Text.length_le_size head
    _ ≤ Text.bytes source := by
      rw [Text.bytes, hfound.eq_append, Text.size_append]
      exact Nat.le_add_right _ _
  rw [Nat.toString_eq_ofList_toDigits, String.length_ofList,
    Nat.length_toDigits_le_iff (by omega) (by omega), hfound.number_eq]
  omega

/-- Unless the caret is too far to the right, there is a report. -/
lemma report?_eq_some (e : Error) {source : String} (hsource : Text.bytes source < 2 ^ 64)
    (hcaret : (Text.lineAt source.toList e.position.offset).offset -
      (Text.lineAt source.toList e.position.offset).indent < 65535) :
    e.report? source = some (e.report source) := by
  have hnumber := length_number_le hsource e.position.offset
  exact report?_of_le rfl (by rw [widthLimit]; omega) hcaret

/-- **There is a report** exactly if the caret is not too far to the right. -/
lemma isSome_report?_iff (e : Error) {source : String} (hsource : Text.bytes source < 2 ^ 64) :
    let l := Text.lineAt source.toList e.position.offset
    (e.report? source).isSome ↔ l.offset - l.indent < 65535 := by
  intro l
  constructor
  · intro h
    obtain ⟨text, htext⟩ := Option.isSome_iff_exists.mp h
    exact (eq_report_of_report? htext).1
  · intro hcaret
    rw [e.report?_eq_some hsource hcaret]
    rfl

end Error

/-! ## The layout of a report -/

/-- `s.Shows l`: the two rows of the snippet `s` that show the place in the line `l`. -/
structure Snippet.Shows (s : Snippet) (l : Text.Line) : Prop where
  /-- One row has the number of the line, and the line without the spaces it begins with and the
  blanks it ends in. -/
  textRow_eq : s.textRow =
    (toString l.number).toList ++ " | ".toList ++ Text.trimEnd (l.text.drop l.indent)
  /-- The other one ends with the caret, which is the only one in it. -/
  caretRow_eq : ∃ front, s.caretRow = front ++ ['^'] ∧ '^' ∉ front ∧
    front.length = (toString l.number).length + 3 + (l.offset - l.indent)
  /-- In both of them the bar is in the same column. -/
  bar_eq : s.textRow[(toString l.number).length + 1]? = some '|' ∧
    s.caretRow[(toString l.number).length + 1]? = some '|'
  /-- Neither of them goes on in another row. -/
  newline_not_mem : '\n' ∉ s.textRow ∧ '\n' ∉ s.caretRow
  /-- If only ASCII is before a character at the place, and the place is not among the spaces, the
  caret is in its column.  The character itself is above, unless it is cut off with the blanks. -/
  caret_eq : ∀ before c after, l.text = before ++ c :: after → Text.size before = l.offset →
    Text.Ascii before → l.indent ≤ l.offset →
      ((toString l.number).toList ++ " | ".toList ++ l.text.drop l.indent)[s.caretRow.idxOf '^']? =
        some c ∧
      ((∃ d ∈ c :: after, Text.isBlank d = false) → s.textRow[s.caretRow.idxOf '^']? = some c)

lemma Snippet.shows_ofLine {l : Text.Line} {head tail : List Char} (h : l.LiesBetween head tail) :
    (ofLine l).Shows l := by
  obtain ⟨front, hrow, hcaret, hnewline, hlength, hbar⟩ := exists_caretRow_ofLine l
  refine ⟨textRow_ofLine l, ⟨front, hrow, hcaret, hlength⟩, ⟨?_, ?_⟩, ⟨?_, ?_⟩, ?_⟩
  · have hle : (toString l.number).toList.length ≤ (toString l.number).length + 1 := by
      rw [String.length_toList]
      omega
    rw [textRow_ofLine, List.append_assoc, List.getElem?_append_right hle, String.length_toList,
      Nat.add_sub_cancel_left]
    rfl
  · rw [hrow, List.getElem?_append_left (by omega)]
    exact hbar
  · exact newline_not_mem_textRow h
  · simp [hrow, hnewline]
  · intro before c after htext hsize hascii hle
    have hbefore := Text.size_eq_length_iff.mpr hascii
    have hle' : l.indent ≤ before.length := by omega
    have hcolumn := idxOf_caretRow_of_size hsize hle'
    rw [hbefore, Nat.sub_self, Nat.add_zero] at hcolumn
    have habove (back : List Char) :
        (shownBefore l before ++ c :: back)[(ofLine l).caretRow.idxOf '^']? = some c := by
      rw [hcolumn]
      simp
    refine ⟨?_, fun hshown => ?_⟩
    · have hline := habove after
      rw [shownBefore, List.append_assoc, ← List.drop_append_of_le_length hle', ← htext] at hline
      exact hline
    · rw [textRow_of_text_eq htext hle' hshown]
      exact habove _

/-- **Every report is laid out around its caret**, wherever the error is.  Unless the caret is too
far to the right for a field, the report can be written out without a failure.  Its rows show the
line and the place in it.  If the error is one of a parse of the source, the place is not among the
spaces that are left out. -/
theorem report_layout (e : Error) (source : String) :
    let l := Text.lineAt source.toList e.position.offset
    (Text.bytes source < 2 ^ 64 → l.offset - l.indent < 65535 →
      e.report? source = some (e.report source)) ∧
    (e.report source = "\n".intercalate (e.rows source) ∧
      (e.rows source)[3]? = some (String.ofList (e.snippet source).textRow) ∧
      (e.rows source)[4]? = some (String.ofList (e.snippet source).caretRow)) ∧
    (e.snippet source).Shows l ∧
    ∀ file, parse source file = .error e → l.indent ≤ l.offset := by
  intro l
  refine ⟨e.report?_eq_some, ⟨rfl, rfl, rfl⟩, ?_, fun file => indent_le_offset_of_parse⟩
  obtain ⟨head, tail, hfound⟩ := Text.exists_isFound_lineAt source.toList e.position.offset
  exact Snippet.shows_ofLine hfound.toLiesBetween

/-- In an indented line a semicolon is missing. -/
theorem report_layout_indented :
    let source := "a;\n  let x 5;"
    let e : Error := ⟨.unexpected "5" ";", ⟨11, "shell"⟩⟩
    let l := Text.lineAt source.toList e.position.offset
    let s := e.snippet source
    e.report? source = some (e.report source) ∧
    s.textRow = "2 | let x 5;".toList ∧ s.caretRow = "  | ------^".toList ∧
    s.textRow[s.caretRow.idxOf '^']? = some '5' ∧
    parse source none = .error e ∧ l.indent ≤ l.offset := by
  intro source e l s
  have hlayout := report_layout e source
  have hparse : parse source none = .error e := by cbv
  refine ⟨hlayout.1 (by decide) (by decide), by decide, by decide, ?_, hparse,
    hlayout.2.2.2 none hparse⟩
  exact (hlayout.2.2.1.caret_eq "  let x ".toList '5' [';'] (by decide) (by decide)
    (by simp [Text.Ascii]) (by decide)).2 ⟨'5', by decide, by decide⟩

/-- **The caret of a parse error** is to the right of the character that the error is at, by as many
places as the characters before it in the line have bytes in excess of one each.  So it is in the
column of the character exactly if these are all ASCII, and then the character is above it.  If the
caret is more than 65534 places to the right of the margin, there is no report. -/
theorem caret_of_parse_error {source : String} {file : Option String} {e : Error}
    (h : parse source file = .error e) (hpos : e.position.offset < Text.bytes source) :
    ∃ (c : Char) (rest before after : List Char),
      let l := Text.lineAt source.toList e.position.offset
      let s := e.snippet source
      Text.from? e.position.offset source.toList = some (c :: rest) ∧
      (l.text = before ++ c :: after ∧ Text.size before = l.offset) ∧
      (Text.bytes source < 2 ^ 64 →
        ((e.report? source).isSome ↔ l.offset - l.indent < 65535)) ∧
      ∀ text, e.report? source = some text →
        (text = "\n".intercalate (e.rows source) ∧
          (e.rows source)[3]? = some (String.ofList s.textRow) ∧
          (e.rows source)[4]? = some (String.ofList s.caretRow)) ∧
        (∃ back, s.textRow = Snippet.shownBefore l before ++ c :: back) ∧
        s.caretRow.idxOf '^' =
          (Snippet.shownBefore l before).length + (Text.size before - before.length) ∧
        (s.caretRow.idxOf '^' = (Snippet.shownBefore l before).length ↔ Text.Ascii before) ∧
        (Text.Ascii before → s.textRow[s.caretRow.idxOf '^']? = some c) := by
  have hsolid := (solidAt_of_parse h).resolve_left (by omega)
  obtain ⟨c, rest, before, after, hfrom, hc, htext, hsize, hle⟩ := hsolid.exists_text_eq
  have hrow := Snippet.textRow_of_text_eq htext hle ⟨c, List.mem_cons_self, hc⟩
  have hcolumn := Snippet.idxOf_caretRow_of_size hsize hle
  have hlength := Text.length_le_size before
  have hascii : Text.size before = before.length ↔ Text.Ascii before := Text.size_eq_length_iff
  refine ⟨c, rest, before, after, hfrom, ⟨htext, hsize⟩, e.isSome_report?_iff,
    fun text hreport => ⟨⟨(Error.eq_report_of_report? hreport).2, rfl, rfl⟩, ⟨_, hrow⟩, hcolumn,
      ?_, ?_⟩⟩
  · rw [Error.snippet, hcolumn, ← hascii]
    omega
  · intro hplain
    rw [Error.snippet, hcolumn, hrow, hascii.mpr hplain]
    simp

/-- In a line of ASCII the caret is below the token that is not expected. -/
theorem caret_of_parse_error_ascii :
    let source := "let x 5;"
    let e : Error := ⟨.unexpected "5" ";", ⟨6, "shell"⟩⟩
    parse source none = .error e ∧
      e.report? source =
        some ("Error: UnexpectedToken (Unexpected token: \"5\", expected: \";\")\n" ++
          "-> shell\n  |\n1 | let x 5;\n  | ------^\n  = help: did you miss a semicolon?") ∧
      (e.snippet source).textRow[(e.snippet source).caretRow.idxOf '^']? = some '5' := by
  intro source e
  have hparse : parse source none = .error e := by cbv
  have hreport : e.report? source =
      some ("Error: UnexpectedToken (Unexpected token: \"5\", expected: \";\")\n" ++
        "-> shell\n  |\n1 | let x 5;\n  | ------^\n  = help: did you miss a semicolon?") := by
    decide +kernel
  obtain ⟨c, rest, before, after, hfrom, ⟨htext, -⟩, -, hcaret⟩ :=
    caret_of_parse_error hparse (by decide)
  obtain ⟨-, -, -, -, habove⟩ := hcaret _ hreport
  have hline : (Text.lineAt source.toList e.position.offset).text = source.toList := by decide
  have hascii : Text.Ascii source.toList := by simp [Text.Ascii, source]
  have hfrom' : Text.from? e.position.offset source.toList = some ['5', ';'] := by decide
  obtain ⟨rfl, -⟩ := List.cons.inj (Option.some.inj (hfrom'.symm.trans hfrom))
  refine ⟨hparse, hreport, habove fun d hd => hascii d ?_⟩
  rw [← hline, htext]
  exact List.mem_append_left _ hd

/-- Behind a character of two bytes the caret is not below the token but one place further to the
right, below the semicolon. -/
theorem caret_behind_accent :
    ¬∀ (source : String) (file : Option String) (e : Error) (text : String),
      parse source file = .error e → e.position.offset < Text.bytes source →
      e.report? source = some text →
      ∀ c rest, Text.from? e.position.offset source.toList = some (c :: rest) →
        (e.snippet source).textRow[(e.snippet source).caretRow.idxOf '^']? = some c := by
  intro h
  let source := "\"é\" 5;"
  let e : Error := ⟨.unexpected "5" ";", ⟨5, "shell"⟩⟩
  have hparse : parse source none = .error e := by cbv
  have hreport : e.report? source =
      some ("Error: UnexpectedToken (Unexpected token: \"5\", expected: \";\")\n" ++
        "-> shell\n  |\n1 | \"é\" 5;\n  | -----^\n  = help: did you miss a semicolon?") := by
    decide +kernel
  have hbelow : (e.snippet source).textRow[(e.snippet source).caretRow.idxOf '^']? = some ';' := by
    decide
  have habove := h source none e _ hparse (by decide) hreport '5' [';'] (by decide)
  rw [hbelow] at habove
  exact absurd habove (by decide)

end Scriptlet
