import TextParsing.Proofs.Moving

/-!
The line on which a cursor stands. What is before the cursor on its line is found by looking back
and what is after it by looking ahead, while its location has been counted on the way; the two
agree. So the marks that are shown under the line are where they should be.
-/

namespace TextParsing

namespace Text

/-- The text before the byte `n` and the text from there on, unless that byte is inside a character
or after the end. -/
def split? (n : Nat) (cs : List Char) : Option (List Char × List Char) :=
  if byteLength (takeBytes n cs) = n then some (takeBytes n cs, dropBytes n cs) else none

/-- What stands after the last line feed. -/
def lastLine (cs : List Char) : List Char := (cs.reverse.takeWhile (· != '\n')).reverse

/-- What stands before the first line feed. -/
def firstLine (cs : List Char) : List Char := cs.takeWhile (· != '\n')

variable {cs ds : List Char}

theorem split?_append (cs ds : List Char) : split? (byteLength cs) (cs ++ ds) = some (cs, ds) := by
  simp [split?]

theorem split?_eq_some_iff {n : Nat} {es : List Char} :
    split? n cs = some (ds, es) ↔ cs = ds ++ es ∧ n = byteLength ds := by
  constructor
  · intro h
    rw [split?, Option.ite_none_right_eq_some] at h
    obtain ⟨whole, ⟨⟩⟩ := h
    exact ⟨(takeBytes_append_dropBytes n cs).symm, whole.symm⟩
  · rintro ⟨rfl, rfl⟩
    exact split?_append ds es

theorem newline_notMem_firstLine (cs : List Char) : '\n' ∉ firstLine cs := fun h => by
  have := List.mem_takeWhile_imp h
  simp at this

theorem newline_notMem_lastLine (cs : List Char) : '\n' ∉ lastLine cs := by
  rw [lastLine, List.mem_reverse]
  exact newline_notMem_firstLine cs.reverse

theorem firstLine_prefix (cs : List Char) : firstLine cs <+: cs := List.takeWhile_prefix _

theorem lastLine_suffix (cs : List Char) : lastLine cs <:+ cs := by
  rw [← List.reverse_prefix, lastLine, List.reverse_reverse]
  exact firstLine_prefix cs.reverse

@[simp] theorem firstLine_nil : firstLine [] = [] := rfl

theorem head?_firstLine (cs : List Char) : (firstLine cs).head? = cs.head?.filter (· != '\n') :=
  List.head?_takeWhile

theorem firstLine_append (h : '\n' ∉ cs) (ds : List Char) :
    firstLine (cs ++ ds) = cs ++ firstLine ds := by
  apply List.takeWhile_append_of_pos
  intro x hx
  rw [bne_iff_ne]
  rintro rfl
  exact h hx

theorem firstLine_append_newline (h : '\n' ∉ cs) (ds : List Char) :
    firstLine (cs ++ '\n' :: ds) = cs :=
  (firstLine_append h _).trans (List.append_nil cs)

theorem firstLine_of_notMem (h : '\n' ∉ cs) : firstLine cs = cs := by
  have := firstLine_append h []
  rwa [List.append_nil, firstLine_nil, List.append_nil] at this

theorem lastLine_eq (cs : List Char) : lastLine cs = (firstLine cs.reverse).reverse := rfl

theorem lastLine_of_notMem (h : '\n' ∉ cs) : lastLine cs = cs := by
  rw [lastLine_eq, firstLine_of_notMem (mt List.mem_reverse.1 h), List.reverse_reverse]

/-- A text with a line feed in it is its last line and, before that, what ends in a line feed. -/
theorem exists_eq_append_lastLine (h : '\n' ∈ cs) :
    ∃ earlier, cs = earlier ++ '\n' :: lastLine cs := by
  obtain ⟨last, earlier, split, none⟩ := List.eq_append_cons_of_mem (List.mem_reverse.2 h)
  rw [lastLine_eq, split, firstLine_append_newline none]
  refine ⟨earlier.reverse, ?_⟩
  rw [← List.reverse_reverse cs, split]
  simp

theorem length_splitOn (cs : List Char) : (cs.splitOn '\n').length = cs.count '\n' + 1 := by
  induction cs with
  | nil => rfl
  | cons x cs ih =>
    rw [List.splitOn_cons_eq_if_modifyHead, List.count_cons]
    split
    · rw [List.length_cons, ih]
    · rw [List.length_modifyHead, ih]

theorem head?_splitOn (cs : List Char) : (cs.splitOn '\n').head? = some (firstLine cs) := by
  by_cases h : '\n' ∈ cs
  · obtain ⟨first, later, rfl, none⟩ := List.eq_append_cons_of_mem h
    rw [List.splitOn_append_cons_self_of_not_mem none, firstLine_append_newline none]
    rfl
  · rw [List.splitOn_eq_singleton h, firstLine_of_notMem h]
    rfl

/-- Of the lines of a text, the one that goes over a place in it has the number of line feeds before
that place. -/
theorem getElem?_splitOn (cs ds : List Char) :
    ((cs ++ ds).splitOn '\n')[cs.count '\n']? = some (lastLine cs ++ firstLine ds) := by
  have none := newline_notMem_lastLine cs
  by_cases h : '\n' ∈ cs
  · obtain ⟨earlier, he⟩ := exists_eq_append_lastLine h
    generalize lastLine cs = last at *
    have index : cs.count '\n' = (earlier.splitOn '\n').length := by
      rw [he, length_splitOn, List.count_append, List.count_cons_self, List.count_eq_zero.2 none]
    rw [index, he, List.append_assoc, List.cons_append, List.splitOn_append_cons_self,
      List.getElem?_append_right (Nat.le_refl _), Nat.sub_self, ← List.head?_eq_getElem?,
      head?_splitOn, firstLine_append none]
  · rw [List.count_eq_zero.2 h, ← List.head?_eq_getElem?, head?_splitOn, firstLine_append h,
      lastLine_of_notMem h]

/-- The last two lines of a text that ends in two lines. -/
theorem splitOn_append_two {line last : List Char} (hline : '\n' ∉ line) (hlast : '\n' ∉ last)
    (cs : List Char) :
    (cs ++ '\n' :: (line ++ '\n' :: last)).splitOn '\n' = cs.splitOn '\n' ++ [line, last] := by
  rw [List.splitOn_append_cons_self, List.splitOn_append_cons_self_of_not_mem hline,
    List.splitOn_eq_singleton hlast]

end Text

open Text

/-- A caret after some blanks, and tildes after it. -/
def marks (blanks tildes : Nat) : List Char :=
  List.replicate blanks ' ' ++ '^' :: List.replicate tildes '~'

theorem length_marks (blanks tildes : Nat) :
    (marks blanks tildes).length = blanks + 1 + tildes := by
  rw [marks, List.length_append, List.length_cons, List.length_replicate, List.length_replicate]
  omega

theorem toList_marker (indent width : Nat) :
    (marker indent width).toList = marks indent (width - 1) := String.toList_ofList

theorem newline_notMem_marks (blanks tildes : Nat) : '\n' ∉ marks blanks tildes := by
  simp [marks, List.mem_replicate]

theorem Location.newline_notMem_display (l : Location) : '\n' ∉ l.display.toList := by
  have digits (n : Nat) : '\n' ∉ Nat.toDigits 10 n := fun h =>
    absurd (Nat.isDigit_of_mem_toDigits (by decide) (by decide) h) (by decide)
  simp [Location.display, digits]

namespace Cursor

variable {text : List Char} {a : Cursor}

theorem On.reads_consumed (h : a.On text) : (ofText text).Reads a.consumed a := by
  obtain ⟨cs, read, ht⟩ := h.reads
  have consumed : a.consumed = cs := by
    rw [Cursor.consumed, read.offset, read.source, ofText, ht, Nat.zero_add,
      takeBytes_byteLength_append]
  rwa [consumed]

theorem On.line_eq (h : a.On text) : a.location.line = a.consumed.count '\n' + 1 := by
  rw [h.reads_consumed.location, ofText, Location.scan_start, Nat.add_comm]

theorem On.column_eq (h : a.On text) : a.location.column = a.lineBefore.length + 1 := by
  rw [h.reads_consumed.location, ofText, Location.scan_start, lineBefore, List.length_reverse]
  exact Nat.add_comm ..

theorem On.line_getElem? (h : a.On text) :
    (text.splitOn '\n')[a.location.line - 1]? = some a.line := by
  have split := getElem?_splitOn a.consumed a.rest
  rw [← h.reads_consumed.rest] at split
  rw [h.line_eq, Nat.add_sub_cancel]
  exact split

theorem newline_notMem_line (a : Cursor) : '\n' ∉ a.line := by
  rw [line, List.mem_append]
  exact not_or.2 ⟨newline_notMem_lastLine a.consumed, newline_notMem_firstLine a.rest⟩

/-- The character under the caret. -/
theorem getElem?_line (a : Cursor) : a.line[a.lineBefore.length]? = a.peek.filter (· != '\n') := by
  rw [line, List.getElem?_append_right (Nat.le_refl _), Nat.sub_self, ← List.head?_eq_getElem?]
  exact head?_firstLine a.rest

theorem toList_display (a : Cursor) : a.display.toList =
    a.location.display.toList ++ [':'] ++
      '\n' :: (a.line ++ '\n' :: marks (a.location.column - 1) (a.lineRemaining - 1)) := by
  simp [display, toList_marker]

/-- A cursor is displayed in three lines. -/
theorem splitOn_display (a : Cursor) : a.display.toList.splitOn '\n' =
    [a.location.display.toList ++ [':'], a.line,
      marks (a.location.column - 1) (a.lineRemaining - 1)] := by
  have head : '\n' ∉ a.location.display.toList ++ [':'] := by
    simp [a.location.newline_notMem_display]
  rw [toList_display, splitOn_append_two a.newline_notMem_line (newline_notMem_marks _ _),
    List.splitOn_eq_singleton head]
  rfl

/-- The display of a cursor: three lines, of which the last has its marks under the second. The
caret is under the character at the cursor, or after the line, and the tildes go on to where the
line ends. -/
structure Marks (a : Cursor) (blanks tildes : Nat) : Prop where
  display : a.display.toList.splitOn '\n' =
    [a.location.display.toList ++ [':'], a.line, marks blanks tildes]
  column : a.location.column = blanks + 1
  remaining : max a.lineRemaining 1 = tildes + 1
  caret : a.line[blanks]? = a.peek.filter (· != '\n')
  caret_le : blanks ≤ a.line.length
  tildes_end : blanks + 1 + tildes = max a.line.length (blanks + 1)

/-- What a cursor on `text` shows of the line on which it stands. -/
structure LineView (text : List Char) (a : Cursor) : Prop where
  line_pos : 0 < a.location.line
  line : (text.splitOn '\n')[a.location.line - 1]? = some a.line
  /-- The line is cut out of the text where the cursor is as far into it as it says. -/
  place : ∃ earlier later, text = earlier ++ a.line ++ later ∧
    byteLength earlier + a.lineOffset = a.offset
  split : split? a.lineOffset a.line = some (a.lineBefore, a.lineAfter)
  column : a.location.column = a.lineBefore.length + 1
  remaining : a.lineRemaining = a.lineAfter.length
  ahead : a.lineAfter <+: a.rest
  marks : ∃ blanks tildes, a.Marks blanks tildes

theorem On.marks (h : a.On text) : a.Marks a.lineBefore.length (a.lineRemaining - 1) where
  display := by
    rw [splitOn_display, h.column_eq, Nat.add_sub_cancel]
  column := h.column_eq
  remaining := by
    omega
  caret := a.getElem?_line
  caret_le := by
    rw [line, List.length_append]
    exact Nat.le_add_right ..
  tildes_end := by
    rw [line, List.length_append, ← lineRemaining]
    omega

theorem On.lineView (h : a.On text) : a.LineView text where
  line_pos := h.line_eq ▸ Nat.succ_pos _
  line := h.line_getElem?
  place := by
    obtain ⟨earlier, before⟩ : a.lineBefore <:+ a.consumed := lastLine_suffix a.consumed
    obtain ⟨later, after⟩ : a.lineAfter <+: a.rest := firstLine_prefix a.rest
    have read := h.reads_consumed
    refine ⟨earlier, later, ?_, ?_⟩
    · calc
        text = a.consumed ++ a.rest := read.rest
        _ = earlier ++ a.lineBefore ++ (a.lineAfter ++ later) := by rw [before, after]
        _ = earlier ++ a.line ++ later := by simp only [line, List.append_assoc]
    · rw [lineOffset, ← byteLength_append, before, read.offset]
      exact (Nat.zero_add _).symm
  split := split?_append a.lineBefore a.lineAfter
  column := h.marks.column
  remaining := rfl
  ahead := firstLine_prefix a.rest
  marks := ⟨_, _, h.marks⟩

/-- Wherever moves from the start of a text lead, the line that the cursor shows is the one that its
location names, and is as long before and after the cursor as its location and its marks say. -/
theorem line_agrees_with_location (h : Walk.Visits text a) : a.LineView text := h.on.lineView

/-- On the second of three lines, behind a character of two bytes and at one of four. -/
theorem line_agrees_with_location_of_moves :
    let text := ['a', '\n', 'é', '🐶', '\n']
    let a := ((Walk.start text).run [.consume ['a'], .save "b", .drop 9, .load "b", .drop 2]).here
    Walk.Visits text a ∧ a.location = ⟨2, 2, 3⟩ ∧ a.line = ['é', '🐶'] ∧ a.lineOffset = 2 ∧
      a.LineView text := by
  intro text a
  have ha : Walk.Visits text a := ⟨_, .head _⟩
  exact ⟨ha, rfl, rfl, rfl, line_agrees_with_location ha⟩

end Cursor

end TextParsing
