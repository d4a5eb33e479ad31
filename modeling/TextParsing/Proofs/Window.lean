import TextParsing.Answer
import TextParsing.Proofs.Lines

/-!
The window that a report shows of a line. It is cut out around the place of the failure, between
characters, and is small enough; the place that is marked in it is the place of the failure, so what
stands there is what was found.
-/

namespace TextParsing

universe u

open Text

/-- The window, cut out only if no cut is inside a character and no difference is negative. -/
def window? (line : List Char) (offset width : Nat) : Option (List Char × Nat) :=
  let width := max width 1
  if line.length ≤ width then some (line, offset)
  else do
    let (before, _) ← split? offset line
    let skip := before.length - width / 4
    let piece := (line.drop skip).take width
    let skipped := byteLength (line.take skip)
    if skipped ≤ offset then some (piece, min (offset - skipped) (byteLength piece)) else none

/-- Of a line, `before` and `after` a place in it, a window of `width` characters shows `kept` and
`shown`: all before the place or, if the line is cut, at most a quarter of the width, and as much
after it as there is room for. -/
structure Frames (width : Nat) (before after kept shown : List Char) : Prop where
  kept_suffix : kept <:+ before
  kept_length : kept.length =
    if (before ++ after).length ≤ max width 1 then before.length else min before.length (width / 4)
  shown_prefix : shown <+: after
  shown_length : shown.length = min after.length (max width 1 - kept.length)
  contiguous : kept ++ shown <:+: before ++ after
  length_le : (kept ++ shown).length ≤ max width 1
  whole_iff : kept ++ shown = before ++ after ↔ (before ++ after).length ≤ max width 1

section

variable {width : Nat} {before after kept shown : List Char}

theorem frames_of_lengths (hk : kept <:+ before) (hs : shown <+: after)
    (kept_length : kept.length = if (before ++ after).length ≤ max width 1 then before.length
      else min before.length (width / 4))
    (shown_length : shown.length = min after.length (max width 1 - kept.length)) :
    Frames width before after kept shown where
  kept_suffix := hk
  kept_length := kept_length
  shown_prefix := hs
  shown_length := shown_length
  contiguous := by
    obtain ⟨skipped, rfl⟩ := hk
    obtain ⟨dropped, rfl⟩ := hs
    exact ⟨skipped, dropped, by simp only [List.append_assoc]⟩
  length_le := by
    rw [List.length_append]
    split at kept_length
    · rw [List.length_append] at *
      omega
    · omega
  whole_iff := by
    constructor
    · intro whole
      rw [← whole, List.length_append]
      split at kept_length
      · rw [List.length_append] at *
        omega
      · omega
    · intro fits
      rw [if_pos fits] at kept_length
      rw [List.length_append] at fits
      rw [hk.eq_of_length kept_length, hs.eq_of_length (by omega)]

theorem window_of_window? {line : List Char} {offset : Nat} {x : List Char × Nat}
    (h : window? line offset width = some x) : window line offset width = x := by
  simp only [window?, Option.bind_eq_bind] at h
  simp only [window]
  split at h
  · next fits =>
    rw [if_pos fits]
    exact Option.some.inj h
  · next long =>
    obtain ⟨⟨before, after⟩, cut, h⟩ := Option.bind_eq_some_iff.1 h
    rw [if_neg long]
    obtain ⟨rfl, rfl⟩ := split?_eq_some_iff.1 cut
    rw [takeBytes_byteLength_append]
    split at h
    · exact Option.some.inj h
    · cases h

theorem exists_window (width : Nat) (before after : List Char) : ∃ kept shown,
    window? (before ++ after) (byteLength before) width = some (kept ++ shown, byteLength kept) ∧
    Frames width before after kept shown := by
  by_cases fits : (before ++ after).length ≤ max width 1
  · refine ⟨before, after, ?_, frames_of_lengths (List.suffix_refl _) (List.prefix_refl _) ?_ ?_⟩
    · simp only [window?, if_pos fits]
    · rw [if_pos fits]
    · rw [List.length_append] at fits
      omega
  · let skip := before.length - max width 1 / 4
    let kept := before.drop skip
    have kept_length : kept.length = min before.length (width / 4) := by
      rw [List.length_drop]
      omega
    have small : kept.length ≤ max width 1 := by
      omega
    have bytes : byteLength before = byteLength (before.take skip) + byteLength kept := by
      rw [← byteLength_append, List.take_append_drop]
    refine ⟨kept, after.take (max width 1 - kept.length), ?_, frames_of_lengths
      (List.drop_suffix _ _) (List.take_prefix _ _) ((if_neg fits).symm ▸ kept_length) ?_⟩
    · have piece : ((before ++ after).drop skip).take (max width 1) =
          kept ++ after.take (max width 1 - kept.length) := by
        rw [List.drop_append_of_le_length (Nat.sub_le _ _), List.take_append,
          List.take_of_length_le small]
      have start : min (byteLength before - byteLength (before.take skip))
          (byteLength (kept ++ after.take (max width 1 - kept.length))) = byteLength kept := by
        rw [bytes, byteLength_append]
        omega
      have cut : (before ++ after).take skip = before.take skip :=
        List.take_append_of_le_length (Nat.sub_le _ _)
      have ordered : byteLength (before.take skip) ≤ byteLength before := by
        omega
      simp only [window?, if_neg fits, split?_append, Option.bind_eq_bind, Option.bind_some]
      rw [piece, cut, if_pos ordered, start]
    · rw [List.length_take, Nat.min_comm]

end

/-- What a report shows of the line of a cursor, in a window of `width` characters. -/
structure Report.Shows (c : Cursor) (width : Nat) (r : Report) (kept shown : List Char) :
    Prop where
  place : split? c.lineOffset c.line = some (c.lineBefore, c.lineAfter)
  window : window? c.line c.lineOffset width = some (r.line, r.markerStart)
  frames : Frames width c.lineBefore c.lineAfter kept shown
  marked : split? r.markerStart r.line = some (kept, shown)
  /-- Behind the marker stands what was found, if that is on the line. -/
  found : shown.head? = r.found.filter (· != '\n')

/-- Two reports that differ at most in what they show of the line. -/
structure Report.SameButLine (r r' : Report) : Prop where
  kind : r'.kind = r.kind
  expected : r'.expected = r.expected
  found : r'.found = r.found
  location : r'.location = r.location
  message : r'.message = r.message
  display : r'.display = r.display

/-- Two answers that differ at most in what a report shows of the line. -/
inductive Answer.SameButLine {α : Type u} : Answer α → Answer α → Prop
  | accepted (v : α) : SameButLine (.accepted v) (.accepted v)
  | refused {r r' : Report} (h : r.SameButLine r') : SameButLine (.refused r) (.refused r')
  | unfinished : SameButLine .unfinished .unfinished

theorem Frames.head?_shown {width : Nat} {before after kept shown : List Char}
    (h : Frames width before after kept shown) : shown.head? = after.head? := by
  obtain ⟨dropped, rfl⟩ := h.shown_prefix
  cases shown with
  | nil =>
    have kept_length := h.kept_length
    have shown_length := h.shown_length
    rw [List.nil_append] at *
    have none : dropped.length = 0 := by
      split at kept_length
      · rw [List.length_append, List.length_nil] at *
        omega
      · rw [List.length_nil] at *
        omega
    rw [List.eq_nil_of_length_eq_zero none]
  | cons x shown => rfl

theorem Report.ofFailure_shows (f : Failure) (kind : Kind) (width : Nat) :
    ∃ kept shown, (ofFailure f kind width).Shows f.cursor width kept shown := by
  obtain ⟨kept, shown, cut, frames⟩ := exists_window width f.cursor.lineBefore f.cursor.lineAfter
  have window : (ofFailure f kind width).line = kept ++ shown ∧
      (ofFailure f kind width).markerStart = byteLength kept :=
    Prod.mk.inj (window_of_window? cut)
  refine ⟨kept, shown, split?_append _ _, ?_, frames, ?_, ?_⟩
  · rw [window.1, window.2]
    exact cut
  · rw [window.1, window.2]
    exact split?_append kept shown
  · rw [frames.head?_shown]
    exact head?_firstLine f.cursor.rest

theorem Answer.ofOutcome_sameButLine {α : Type u} (width width' : Nat) (o : Outcome (Parse α)) :
    (ofOutcome width o).SameButLine (ofOutcome width' o) := by
  have report (f : Failure) (kind : Report.Kind) :
      (Report.ofFailure f kind width).SameButLine (.ofFailure f kind width') :=
    ⟨rfl, rfl, rfl, rfl, rfl, rfl⟩
  cases o with
  | success t =>
    simp only [ofOutcome]
    split
    · exact .accepted t.target
    · exact .refused (report _ _)
  | failure f => exact .refused (report _ _)
  | unfinished => exact .unfinished

/-- A line that is cut down to a window around a place in it keeps that place and what stands next
to it. So a report marks what was found, whatever its width, and the width decides nothing else. -/
theorem window_keeps_place {ε : Type} {α : Type u} :
    (∀ (width : Nat) (before after : List Char), ∃ kept shown,
      window? (before ++ after) (byteLength before) width = some (kept ++ shown, byteLength kept) ∧
      window (before ++ after) (byteLength before) width = (kept ++ shown, byteLength kept) ∧
      split? (byteLength kept) (kept ++ shown) = some (kept, shown) ∧
      Frames width before after kept shown) ∧
    (∀ (f : Failure) (kind : Report.Kind) (width : Nat), ∃ kept shown,
      (Report.ofFailure f kind width).Shows f.cursor width kept shown) ∧
    ∀ (p : Parser ε α) (width width' : Nat) (text : List Char),
      (p.parse width text).SameButLine (p.parse width' text) := by
  refine ⟨fun width before after => ?_, Report.ofFailure_shows, fun p width width' text => ?_⟩
  · obtain ⟨kept, shown, cut, frames⟩ := exists_window width before after
    exact ⟨kept, shown, cut, window_of_window? cut, split?_append kept shown, frames⟩
  · exact Answer.ofOutcome_sameButLine width width' _

example : window ['é', 'é', 'é', 'X', 'Y', 'Z'] 6 4 = (['é', 'X', 'Y', 'Z'], 2) := by decide

end TextParsing
