/-
# Where a place in a text is

The line of a byte position is found by going through the lines of the text one by one.  The
result is what the bytes of the text say: the number of the line counts the newlines before the
position, the line begins behind the last one of them, and it goes on to the first newline at the
position or behind it.  This holds at every position, also inside a character, on a newline, at the
end of the text and past it.

In UTF-8 the byte of a newline is part of no other character, so newlines may be looked for among
the bytes as well as among the characters.
-/
import Mathlib
import Scriptlet.Proofs.Text.Slice
import Scriptlet.Text.Line

namespace Scriptlet.Text

/-! ## The bytes of a text -/

/-- The bytes of a text in UTF-8. -/
def utf8 (cs : List Char) : List UInt8 := cs.flatMap String.utf8EncodeChar

/-- The byte of a newline. -/
def newline : UInt8 := 10

@[simp] lemma utf8_nil : utf8 [] = [] := rfl

@[simp] lemma utf8_append (cs ds : List Char) : utf8 (cs ++ ds) = utf8 cs ++ utf8 ds :=
  List.flatMap_append

@[simp] lemma utf8_newline : utf8 ['\n'] = [newline] := by decide

lemma size_newline : size ['\n'] = 1 := by decide

@[simp] lemma length_utf8 (cs : List Char) : (utf8 cs).length = size cs := by
  induction cs with
  | nil => rfl
  | cons c cs ih =>
    rw [utf8, List.flatMap_cons, List.length_append, String.length_utf8EncodeChar, size_cons]
    exact congrArg _ ih

/-- The bytes of a string are those of its characters one after another. -/
lemma toUTF8_eq_utf8 (s : String) : s.toUTF8.data.toList = utf8 s.toList := by
  rw [String.toUTF8_eq_toByteArray, ← String.utf8Encode_toList]
  exact List.toList_data_toByteArray

/-- A byte that is given as `n` is no newline unless `n` is its code. -/
lemma newline_ne_ofNat {n : Nat} (hlt : n < 256) (hne : n ≠ 10) : newline ≠ UInt8.ofNat n := by
  intro h
  have := congrArg UInt8.toNat h
  rw [UInt8.toNat_ofNat_of_lt' hlt] at this
  exact hne this.symm

/-- The byte of a newline is part of no other character. -/
lemma newline_not_mem_utf8EncodeChar {c : Char} (hc : c ≠ '\n') :
    newline ∉ String.utf8EncodeChar c := by
  have hval : c.val.toNat ≠ 10 := fun h => hc (Char.ext (UInt32.toNat.inj h))
  rw [String.utf8EncodeChar]
  -- The only byte below 128 is that of a character which takes one byte.
  split_ifs with h₁ h₂ h₃ <;> simp only [List.mem_cons, List.not_mem_nil, or_false, not_or]
  · exact newline_ne_ofNat (by omega) hval
  · exact ⟨newline_ne_ofNat (by omega) (by omega), newline_ne_ofNat (by omega) (by omega)⟩
  · exact ⟨newline_ne_ofNat (by omega) (by omega), newline_ne_ofNat (by omega) (by omega),
      newline_ne_ofNat (by omega) (by omega)⟩
  · exact ⟨newline_ne_ofNat (by omega) (by omega), newline_ne_ofNat (by omega) (by omega),
      newline_ne_ofNat (by omega) (by omega), newline_ne_ofNat (by omega) (by omega)⟩

lemma newline_not_mem_utf8 {cs : List Char} (h : '\n' ∉ cs) : newline ∉ utf8 cs := by
  intro hmem
  obtain ⟨c, hc, hbyte⟩ := List.mem_flatMap.mp hmem
  exact newline_not_mem_utf8EncodeChar (fun heq => h (heq ▸ hc)) hbyte

/-- There are as many newlines among the bytes as among the characters. -/
lemma count_newline_utf8 (cs : List Char) : (utf8 cs).count newline = cs.count '\n' := by
  induction cs with
  | nil => rfl
  | cons c cs ih =>
    rw [← List.singleton_append, utf8_append, List.count_append, List.count_append, ih]
    congr 1
    by_cases hc : c = '\n'
    · subst hc
      rfl
    · have hnot : '\n' ∉ [c] := by simpa using Ne.symm hc
      rw [List.count_eq_zero_of_not_mem (newline_not_mem_utf8 hnot),
        List.count_eq_zero_of_not_mem hnot]

/-! ## The lines of a text -/

/-- `IsLines ls`: each of the lines ends with the only newline in it, save that the last one may
have none. -/
inductive IsLines : List (List Char) → Prop
  /-- There may be no lines. -/
  | nil : IsLines []
  /-- The last line may have no newline. -/
  | last {l : List Char} (hplain : '\n' ∉ l) : IsLines [l]
  /-- A line ends at its newline. -/
  | cons {l : List Char} {ls : List (List Char)} (hplain : '\n' ∉ l) (hls : IsLines ls) :
    IsLines ((l ++ ['\n']) :: ls)

lemma IsLines.attach {ls : List (List Char)} (h : IsLines ls) (c : Char) :
    IsLines (attach c ls) := by
  unfold Text.attach
  split
  · next hc =>
    subst hc
    exact .cons (l := []) List.not_mem_nil h
  · next hc =>
    have hplain {l : List Char} (hl : '\n' ∉ l) : '\n' ∉ c :: l := by
      simpa using ⟨Ne.symm hc, hl⟩
    cases h with
    | nil => exact .last (hplain List.not_mem_nil)
    | last hl => exact .last (hplain hl)
    | cons hl hls => exact .cons (l := c :: _) (hplain hl) hls

lemma isLines_lines (cs : List Char) : IsLines (lines cs) := by
  induction cs with
  | nil => exact .nil
  | cons c cs ih => exact ih.attach c

/-! ## The place in the lines -/

/-- `l.LiesBetween head tail`: the text of `l` is a line with `head` before it and `tail` behind
it, and the place in it is before its newline. -/
structure Line.LiesBetween (l : Line) (head tail : List Char) : Prop where
  /-- A line begins at the beginning or behind a newline. -/
  head_eq : head = [] ∨ ∃ init, head = init ++ ['\n']
  /-- It ends at its only newline, or else it is the last line. -/
  text_eq : (∃ init, l.text = init ++ ['\n'] ∧ '\n' ∉ init ∧ l.offset ≤ size init) ∨
    '\n' ∉ l.text ∧ tail = [] ∧ l.offset ≤ size l.text

/-- What is found among lines: a part of the text, with the place in it. -/
structure Line.IsFound (l : Line) (number pos : Nat) (cs head tail : List Char) : Prop
    extends l.LiesBetween head tail where
  /-- The line is a part of the text. -/
  eq_append : cs = head ++ (l.text ++ tail)
  /-- The place in the line is the place in the text. -/
  pos_eq : pos = size head + l.offset
  /-- The number of the line counts the newlines before it. -/
  number_eq : l.number = number + head.count '\n'

/-- A place that is not behind the end is found in the lines. -/
lemma IsLines.exists_isFound {ls : List (List Char)} (h : IsLines ls) (number : Nat)
    {pos : Nat} (hpos : pos ≤ size ls.flatten) :
    ∃ head tail, (placeIn number pos ls).IsFound number pos ls.flatten head tail := by
  -- along the lines; a line that does not reach the place becomes part of the text before it
  induction h generalizing number pos with
  | nil =>
    obtain rfl : pos = 0 := by simpa using hpos
    exact ⟨[], [], ⟨⟨.inl rfl, .inr ⟨List.not_mem_nil, rfl, le_rfl⟩⟩, rfl, rfl, rfl⟩⟩
  | @last l hplain =>
    have hlast : l.getLast? ≠ some '\n' := fun hmem => hplain (List.mem_of_getLast? hmem)
    rw [placeIn, if_pos (.inr hlast)]
    exact ⟨[], [], ⟨⟨.inl rfl, .inr ⟨hplain, rfl, by simpa using hpos⟩⟩, by simp, by simp, rfl⟩⟩
  | @cons l ls hplain _ ih =>
    rw [placeIn]
    have hsize : size (l ++ ['\n']) = size l + 1 := by rw [size_append, size_newline]
    by_cases hlt : pos < size (l ++ ['\n'])
    · rw [if_pos (.inl hlt)]
      exact ⟨[], ls.flatten, ⟨⟨.inl rfl, .inl ⟨l, rfl, hplain, by simp only; omega⟩⟩, by simp,
        by simp, rfl⟩⟩
    · rw [if_neg (by simpa using hlt)]
      rw [List.flatten_cons, size_append] at hpos
      have hle : pos - size (l ++ ['\n']) ≤ size ls.flatten := by omega
      obtain ⟨head, tail, hfound⟩ := ih (number + 1) hle
      refine ⟨(l ++ ['\n']) ++ head, tail, ⟨⟨.inr ?_, hfound.text_eq⟩, ?_, ?_, ?_⟩⟩
      · rcases hfound.head_eq with rfl | ⟨init, rfl⟩
        · exact ⟨l, by simp⟩
        · exact ⟨l ++ ['\n'] ++ init, by simp⟩
      · rw [List.flatten_cons, List.append_assoc (l ++ ['\n']), ← hfound.eq_append]
      · rw [size_append, Nat.add_assoc, ← hfound.pos_eq]
        omega
      · rw [hfound.number_eq, List.count_append, List.count_append,
          List.count_eq_zero_of_not_mem hplain, List.count_singleton_self]
        omega

/-- What `lineAt` finds. -/
lemma exists_isFound_lineAt (cs : List Char) (position : Nat) :
    ∃ head tail, (lineAt cs position).IsFound 1 (min position (size cs)) cs head tail := by
  have hpos : min position (size cs) ≤ size (lines cs).flatten := by
    rw [flatten_lines]
    exact Nat.min_le_right _ _
  have hfound := (isLines_lines cs).exists_isFound 1 hpos
  rwa [flatten_lines] at hfound

lemma Line.LiesBetween.offset_le {l : Line} {head tail : List Char}
    (h : l.LiesBetween head tail) : l.offset ≤ size l.text := by
  rcases h.text_eq with ⟨init, htext, -, hle⟩ | ⟨-, -, hle⟩
  · rw [htext, size_append]
    omega
  · exact hle

/-- At the end of a text the place is at the end of its line. -/
lemma size_text_le_offset {cs : List Char} {position : Nat} (h : size cs ≤ position) :
    size (lineAt cs position).text ≤ (lineAt cs position).offset := by
  obtain ⟨head, tail, hfound⟩ := exists_isFound_lineAt cs position
  have hpos := hfound.pos_eq
  have hsize := congrArg size hfound.eq_append
  rw [size_append, size_append] at hsize
  omega

/-- Of two beginnings of a text, the one with more bytes begins with the other. -/
lemma exists_append_of_size_le {as bs cs ds : List Char} (h : as ++ bs = cs ++ ds)
    (hle : size as ≤ size cs) : ∃ us, cs = as ++ us ∧ bs = us ++ ds := by
  rcases List.append_eq_append_iff.mp h with hus | ⟨us, rfl, rfl⟩
  · exact hus
  · have hlength := length_le_size us
    rw [size_append] at hle
    obtain rfl : us = [] := List.length_eq_zero_iff.mp (by omega)
    exact ⟨[], by simp, by simp⟩

/-- A character of a text is found in its line. -/
lemma exists_text_eq {cs rest : List Char} {position : Nat} {c : Char}
    (h : from? position cs = some (c :: rest)) :
    ∃ before after, (lineAt cs position).text = before ++ c :: after ∧
      size before = (lineAt cs position).offset := by
  obtain ⟨head, tail, hfound⟩ := exists_isFound_lineAt cs position
  obtain ⟨pre, hcs, hpre⟩ := from?_eq_some_iff.mp h
  have hpos : size pre = size head + (lineAt cs position).offset := by
    rw [← hfound.pos_eq, hpre, hcs, size_append]
    omega
  obtain ⟨before, rfl, hline⟩ :=
    exists_append_of_size_le (hfound.eq_append.symm.trans hcs) (by omega)
  have hbefore : size before = (lineAt cs position).offset := by
    rw [size_append] at hpos
    omega
  obtain ⟨us, htext, hus⟩ :=
    exists_append_of_size_le hline.symm (hbefore.trans_le hfound.offset_le)
  cases us with
  | cons u us =>
    obtain ⟨rfl, -⟩ := List.cons.inj hus
    exact ⟨before, us, htext, hbefore⟩
  | nil =>
    -- Only the last line has its end as a place, and there is no character behind it.
    rcases hfound.text_eq with ⟨init, hinit, -, hle⟩ | ⟨-, rfl, -⟩
    · have hsize := congrArg size hinit
      rw [htext, List.append_nil, hbefore, size_append, size_newline] at hsize
      omega
    · cases hus

/-! ## The place among the bytes -/

/-- How far into the bytes the last newline ends; zero if there is none. -/
def lineStart (bs : List UInt8) : Nat := bs.length - bs.reverse.idxOf newline

/-- How many bytes there are up to the first newline, itself included; all of them if there is
none. -/
def lineLength (bs : List UInt8) : Nat := min (bs.idxOf newline + 1) bs.length

lemma lineStart_append {as bs : List UInt8} (has : as = [] ∨ ∃ init, as = init ++ [newline])
    (hbs : newline ∉ bs) : lineStart (as ++ bs) = as.length := by
  have hrev : newline ∉ bs.reverse := by simpa using hbs
  have hzero : as.reverse.idxOf newline = 0 := by
    rcases has with rfl | ⟨init, rfl⟩ <;> simp
  rw [lineStart, List.reverse_append, List.idxOf_append_of_notMem hrev, hzero]
  simp

lemma lineLength_of_not_mem {bs : List UInt8} (h : newline ∉ bs) : lineLength bs = bs.length := by
  rw [lineLength, List.idxOf_eq_length h]
  omega

lemma lineLength_append_newline {as : List UInt8} (bs : List UInt8) (h : newline ∉ as) :
    lineLength (as ++ newline :: bs) = as.length + 1 := by
  rw [lineLength, List.idxOf_append_of_notMem h, List.idxOf_cons_self]
  simp

namespace Line.LiesBetween

variable {l : Line} {head tail : List Char} (h : l.LiesBetween head tail)

include h

lemma utf8_head_eq : utf8 head = [] ∨ ∃ init, utf8 head = init ++ [newline] := by
  rcases h.head_eq with rfl | ⟨init, rfl⟩
  · exact .inl rfl
  · exact .inr ⟨utf8 init, by simp⟩

/-- Before the place there is no newline in the line. -/
lemma newline_not_mem_take : newline ∉ (utf8 l.text).take l.offset := by
  rcases h.text_eq with ⟨init, htext, hplain, hle⟩ | ⟨hplain, -, -⟩
  · rw [htext, utf8_append, List.take_append_of_le_length (by simpa using hle)]
    exact fun hmem => newline_not_mem_utf8 hplain (List.mem_of_mem_take hmem)
  · exact fun hmem => newline_not_mem_utf8 hplain (List.mem_of_mem_take hmem)

/-- The line goes on to the first newline behind the place. -/
lemma lineLength_drop :
    lineLength ((utf8 l.text).drop l.offset ++ utf8 tail) = size l.text - l.offset := by
  rcases h.text_eq with ⟨init, htext, hplain, hle⟩ | ⟨hplain, rfl, -⟩
  · have hdrop : newline ∉ (utf8 init).drop l.offset :=
      fun hmem => newline_not_mem_utf8 hplain (List.mem_of_mem_drop hmem)
    rw [htext, utf8_append, List.drop_append_of_le_length (by simpa using hle), utf8_newline,
      List.append_assoc, List.singleton_append, lineLength_append_newline _ hdrop,
      List.length_drop, length_utf8, size_append, size_newline]
    omega
  · rw [utf8_nil, List.append_nil, lineLength_of_not_mem, List.length_drop, length_utf8]
    exact fun hmem => newline_not_mem_utf8 hplain (List.mem_of_mem_drop hmem)

end Line.LiesBetween

/-- **The line of a byte position**, described by the bytes of the source. -/
theorem lineAt_eq_bytes (source : String) (position : Nat) :
    let bs := source.toUTF8.data.toList
    let pos := min position bs.length
    let l := lineAt source.toList position
    l.number = 1 + (bs.take pos).count newline ∧
      l.offset = pos - lineStart (bs.take pos) ∧
      (String.ofList l.text).toUTF8.data.toList =
        (bs.take (pos + lineLength (bs.drop pos))).drop (lineStart (bs.take pos)) := by
  intro bs pos l
  obtain ⟨head, tail, hfound⟩ := exists_isFound_lineAt source.toList position
  have hlies : l.LiesBetween head tail := hfound.toLiesBetween
  have hoffset := hlies.offset_le
  have hbs : bs = utf8 head ++ (utf8 l.text ++ utf8 tail) := by
    rw [← utf8_append, ← utf8_append, ← hfound.eq_append]
    exact toUTF8_eq_utf8 source
  have hpos : pos = (utf8 head).length + l.offset := by
    have hlength : bs.length = size source.toList := by
      rw [← length_utf8]
      exact congrArg _ (toUTF8_eq_utf8 source)
    rw [length_utf8, ← hfound.pos_eq, ← hlength]
  have htake : bs.take pos = utf8 head ++ (utf8 l.text).take l.offset := by
    rw [hbs, hpos, List.take_length_add_append,
      List.take_append_of_le_length (by simpa using hoffset)]
  have hdrop : bs.drop pos = (utf8 l.text).drop l.offset ++ utf8 tail := by
    rw [hbs, hpos, List.drop_length_add_append,
      List.drop_append_of_le_length (by simpa using hoffset)]
  have hstart : lineStart (bs.take pos) = (utf8 head).length := by
    rw [htake]
    exact lineStart_append hlies.utf8_head_eq hlies.newline_not_mem_take
  refine ⟨?_, ?_, ?_⟩
  · rw [htake, List.count_append, List.count_eq_zero_of_not_mem hlies.newline_not_mem_take,
      count_newline_utf8]
    exact hfound.number_eq
  · rw [hstart, hpos]
    omega
  · have hend : pos + lineLength (bs.drop pos) = (utf8 head).length + (utf8 l.text).length := by
      rw [hdrop, hlies.lineLength_drop, hpos, length_utf8 l.text]
      omega
    rw [toUTF8_eq_utf8, String.toList_ofList, hend, hstart, hbs, List.take_length_add_append,
      List.take_left, List.drop_left]

end Scriptlet.Text
