import Mathlib.Data.List.DropRight
import TextParsing.Proofs.Window

/-!
A report as it is shown. Its label counts bytes of the line that is reported, its preview counts
characters of it, and the display of the cursor of the failure counts characters of the whole line
and goes by the column. They mark the same.
-/

namespace TextParsing

open Text

/-- The last two lines of a text that is shown. -/
def lastTwoLines (s : String) : List (List Char) := (s.toList.splitOn '\n').rtake 2

theorem lastTwoLines_eq {s : String} {cs line last : List Char}
    (h : s.toList = cs ++ '\n' :: (line ++ '\n' :: last)) (hline : '\n' ∉ line)
    (hlast : '\n' ∉ last) : lastTwoLines s = [line, last] := by
  rw [lastTwoLines, h, splitOn_append_two hline hlast]
  simp [List.rtake]

theorem Cursor.lastTwoLines_display (a : Cursor) : lastTwoLines a.display =
    [a.line, marks (a.location.column - 1) (a.lineRemaining - 1)] :=
  lastTwoLines_eq a.toList_display a.newline_notMem_line (newline_notMem_marks _ _)

namespace Report

theorem toList_preview (r : Report) : r.preview.toList = r.display.toList ++ '\n' ::
    (r.line ++ '\n' :: marks (takeBytes r.markerStart r.line).length (r.markerLength - 1)) := by
  simp [preview, toList_marker]

variable {c : Cursor} {width : Nat} {r : Report} {kept shown : List Char}

namespace Shows

theorem line_eq (h : r.Shows c width kept shown) : r.line = kept ++ shown :=
  (split?_eq_some_iff.1 h.marked).1

theorem markerStart_eq (h : r.Shows c width kept shown) : r.markerStart = byteLength kept :=
  (split?_eq_some_iff.1 h.marked).2

theorem newline_notMem_line (h : r.Shows c width kept shown) : '\n' ∉ r.line := fun found => by
  rw [h.line_eq] at found
  exact c.newline_notMem_line (h.frames.contiguous.subset found)

theorem dropBytes_eq (h : r.Shows c width kept shown) : dropBytes r.markerStart r.line = shown := by
  rw [h.line_eq, h.markerStart_eq, dropBytes_byteLength_append]

theorem toList_preview (h : r.Shows c width kept shown) : r.preview.toList = r.display.toList ++
    '\n' :: (r.line ++ '\n' :: marks kept.length (r.markerLength - 1)) := by
  rw [r.toList_preview, h.line_eq, h.markerStart_eq, takeBytes_byteLength_append]

/-- The label goes on to the end of the line, as the marker is as long as that. -/
theorem label_length (h : r.Shows c width kept shown) (hm : r.markerLength = max shown.length 1) :
    r.label.length = byteLength shown := by
  change byteLength ((dropBytes r.markerStart r.line).take r.markerLength) = byteLength shown
  rw [h.dropBytes_eq, hm, List.take_of_length_le (Nat.le_max_left _ _)]

end Shows

/-- How a report is shown of which `width` characters of the line are kept, `before` and `after` the
marker. -/
structure Rendered (width : Nat) (r : Report) (before after : List Char) : Prop where
  marked : split? r.markerStart r.line = some (before, after)
  label_start : r.label.start = r.markerStart
  label_stop : split? (r.label.start + r.label.length) r.line = some (r.line, [])
  label_length : r.label.length = byteLength after
  label_empty : r.label.length = 0 ↔ after = []
  markerLength : r.markerLength = max after.length 1
  preview : r.preview.toList = r.display.toList ++
    '\n' :: (r.line ++ '\n' :: marks before.length (r.markerLength - 1))
  last_lines : lastTwoLines r.preview = [r.line, marks before.length (r.markerLength - 1)]
  marks_length : (marks before.length (r.markerLength - 1)).length ≤ max width 1 + 1

theorem Shows.rendered (h : r.Shows c width kept shown)
    (hm : r.markerLength = max shown.length 1) : r.Rendered width kept shown where
  marked := h.marked
  label_start := rfl
  label_stop := by
    have stop : r.label.start + r.label.length = byteLength r.line := by
      rw [h.label_length hm, h.line_eq, byteLength_append, ← h.markerStart_eq]
      rfl
    rw [stop, split?_eq_some_iff]
    exact ⟨(List.append_nil _).symm, rfl⟩
  label_length := h.label_length hm
  label_empty := by
    rw [h.label_length hm, byteLength_eq_zero]
  markerLength := hm
  preview := h.toList_preview
  last_lines := lastTwoLines_eq h.toList_preview h.newline_notMem_line (newline_notMem_marks _ _)
  marks_length := by
    have fits := h.frames.length_le
    rw [List.length_append] at fits
    rw [length_marks]
    omega

end Report

/-- A line that is not cut is shown as it stands. -/
theorem Frames.eq_of_fits {width : Nat} {before after kept shown : List Char}
    (h : Frames width before after kept shown) (fits : (before ++ after).length ≤ max width 1) :
    kept = before ∧ shown = after := by
  have kept_length := h.kept_length
  rw [if_pos fits] at kept_length
  obtain rfl := h.kept_suffix.eq_of_length kept_length
  exact ⟨rfl, List.append_cancel_left (h.whole_iff.2 fits)⟩

/-- Label and preview of a report mark the line from the marker on. If the line is not cut, it is
shown and marked as in the display of the cursor. -/
theorem renderings_agree {text : List Char} {f : Failure} (h : f.cursor.On text)
    (kind : Report.Kind) (width : Nat) : ∃ before after,
      (Report.ofFailure f kind width).Rendered width before after ∧
      (f.cursor.line.length ≤ max width 1 →
        lastTwoLines (Report.ofFailure f kind width).preview = lastTwoLines f.cursor.display) := by
  obtain ⟨kept, shown, shows⟩ := Report.ofFailure_shows f kind width
  have markerLength : (Report.ofFailure f kind width).markerLength = max shown.length 1 := by
    rw [← shows.dropBytes_eq]
    rfl
  have rendered := shows.rendered markerLength
  refine ⟨kept, shown, rendered, ?_⟩
  intro fits
  obtain ⟨rfl, rfl⟩ := shows.frames.eq_of_fits fits
  have tildes : max f.cursor.lineAfter.length 1 - 1 = f.cursor.lineRemaining - 1 := by
    rw [Cursor.lineRemaining]
    omega
  rw [rendered.last_lines, f.cursor.lastTwoLines_display, markerLength, shows.line_eq, h.column_eq,
    tildes, Nat.add_sub_cancel]
  rfl

/-- A failure in the middle of the second line of a text, in a window as wide as the line. -/
theorem renderings_agree_on_second_line :
    let text := ['a', '\n', 'é', 'X', '🐶']
    let f := Failure.expecting (.drop 3 (.ofText text)) "a digit"
    let r := Report.ofFailure f .mismatch 3
    f.cursor.On text ∧ r.line = ['é', 'X', '🐶'] ∧ r.markerStart = 2 ∧ r.label.length = 5 ∧
      ∃ before after, r.Rendered 3 before after ∧
        (f.cursor.line.length ≤ max 3 1 →
          lastTwoLines r.preview = lastTwoLines f.cursor.display) := by
  intro text f r
  have on : f.cursor.On text := ⟨3, rfl⟩
  obtain ⟨line, markerStart, length⟩ :
      r.line = ['é', 'X', '🐶'] ∧ r.markerStart = 2 ∧ r.label.length = 5 := by decide
  exact ⟨on, line, markerStart, length, renderings_agree on .mismatch 3⟩

end TextParsing
