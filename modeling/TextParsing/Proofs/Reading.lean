import TextParsing.Cursor

/-!
Reading from one cursor to another: which characters stand between them, and what that says about
their offsets and locations. A cursor on a text is one that is reached from its start.
-/

namespace TextParsing

open Text

namespace Location

variable {l m o : Location}

theorem lt_iff : l < m ↔ l.index < m.index ∨ l.index = m.index ∧
    (l.line < m.line ∨ l.line = m.line ∧ l.column < m.column) := by
  change (compare l.index m.index).then _ = .lt ↔ _
  simp only [Ordering.then_eq_lt, Nat.compare_eq_lt, Nat.compare_eq_eq]

theorem le_iff : l ≤ m ↔ l.index < m.index ∨ l.index = m.index ∧
    (l.line < m.line ∨ l.line = m.line ∧ l.column ≤ m.column) := by
  change ((compare l.index m.index).then
    ((compare l.line m.line).then (compare l.column m.column))).isLE = true ↔ _
  simp only [Ordering.isLE_then_iff_or, Nat.compare_eq_lt, Nat.compare_eq_eq, Nat.isLE_compare]

theorem le_self (l : Location) : l ≤ l := by
  rw [le_iff]
  omega

theorem le_of_lt (h : l < m) : l ≤ m := by
  rw [lt_iff] at h
  rw [le_iff]
  omega

theorem not_le_of_lt (h : l < m) : ¬ m ≤ l := by
  rw [lt_iff, le_iff] at *
  omega

theorem le_trans (h : l ≤ m) (k : m ≤ o) : l ≤ o := by
  rw [le_iff] at *
  omega

theorem lt_trans (h : l < m) (k : m < o) : l < o := by
  rw [lt_iff] at *
  omega

theorem lt_scan (l : Location) {cs : List Char} (h : cs ≠ []) : l < l.scan cs := by
  rw [lt_iff, index_scan]
  exact .inl (Nat.lt_add_of_pos_right (List.length_pos_iff.2 h))

theorem le_scan (l : Location) (cs : List Char) : l ≤ l.scan cs := by
  by_cases h : cs = []
  · rw [h]
    exact le_self l
  · exact le_of_lt (l.lt_scan h)

end Location

theorem Text.byteLength_eq_zero {cs : List Char} : byteLength cs = 0 ↔ cs = [] := by
  cases cs with
  | nil => simp [byteLength]
  | cons c cs => simp [byteLength, Nat.ne_of_gt (Char.utf8Size_pos c)]

namespace Cursor

/-- Reading the characters `cs` leads from `a` to `b`. -/
structure Reads (a : Cursor) (cs : List Char) (b : Cursor) : Prop where
  source : b.source = a.source
  rest : a.rest = cs ++ b.rest
  offset : b.offset = a.offset + byteLength cs
  location : b.location = a.location.scan cs

variable {a b d : Cursor} {cs ds : List Char} {x : Char}

namespace Reads

theorem refl (a : Cursor) : a.Reads [] a := ⟨rfl, rfl, rfl, rfl⟩

theorem trans (h : a.Reads cs b) (k : b.Reads ds d) : a.Reads (cs ++ ds) d where
  source := k.source.trans h.source
  rest := by rw [h.rest, k.rest, List.append_assoc]
  offset := by rw [k.offset, h.offset, byteLength_append, Nat.add_assoc]
  location := by rw [k.location, h.location, Location.scan_append]

theorem offset_le (h : a.Reads cs b) : a.offset ≤ b.offset := by
  rw [h.offset]
  exact Nat.le_add_right ..

theorem offset_lt (h : a.Reads cs b) (hc : cs ≠ []) : a.offset < b.offset := by
  rw [h.offset]
  exact Nat.lt_add_of_pos_right (Nat.pos_of_ne_zero (mt byteLength_eq_zero.1 hc))

theorem location_le (h : a.Reads cs b) : a.location ≤ b.location := by
  rw [h.location]
  exact Location.le_scan ..

theorem sliceTo (h : a.Reads cs b) : a.sliceTo b = cs := by
  rw [Cursor.sliceTo, h.offset, Nat.add_sub_cancel_left, h.rest, takeBytes_byteLength_append]

theorem length_range (h : a.Reads cs b) : (Range.mk a.location b.location).length = cs.length := by
  rw [Range.length, h.location, Location.index_scan, Nat.add_sub_cancel_left]

theorem isEmpty_range (h : a.Reads cs b) :
    (Range.mk a.location b.location).isEmpty = true ↔ cs = [] := by
  simp only [Range.isEmpty, beq_iff_eq, h.location, Location.index_scan]
  rw [← List.length_eq_zero_iff]
  omega

/-- Two cursors are at the same place exactly if nothing stands between them. -/
theorem beq_iff (h : a.Reads cs b) : (b == a) = true ↔ cs = [] := by
  change (b.offset == a.offset) = true ↔ cs = []
  rw [beq_iff_eq, h.offset, ← byteLength_eq_zero]
  omega

end Reads

theorem reads_of_advance (h : a.advance = some (x, b)) : a.Reads [x] b := by
  simp only [advance] at h
  split at h
  · cases h
  · next c rest hr =>
    cases h
    exact ⟨rfl, hr, rfl, rfl⟩

theorem reads_consume (h : a.rest = cs ++ ds) : a.Reads cs (a.consume (byteLength cs)) where
  source := rfl
  rest := by rw [consume, h, dropBytes_byteLength_append]
  offset := rfl
  location := by rw [consume, h, takeBytes_byteLength_append]

theorem reads_drop (n : Nat) (a : Cursor) : a.Reads (a.rest.take n) (drop n a) := by
  induction n generalizing a with
  | zero => exact .refl a
  | succ n ih =>
    simp only [drop]
    cases h : a.advance with
    | none =>
      have hr : a.rest = [] := by
        simp only [advance] at h
        split at h
        · assumption
        · cases h
      simpa [hr] using Reads.refl a
    | some s =>
      obtain ⟨x, b⟩ := s
      have hx := reads_of_advance h
      have := hx.trans (ih b)
      rwa [hx.rest]

/-- Reading some characters is the same as dropping as many. -/
theorem eq_drop_of_reads (h : a.Reads cs b) : b = drop cs.length a := by
  have k := reads_drop cs.length a
  rw [h.rest, List.take_left] at k
  cases b
  cases hd : drop cs.length a
  rw [hd] at k
  have hr := List.append_cancel_left (h.rest.symm.trans k.rest)
  rw [Cursor.mk.injEq]
  exact ⟨h.source.trans k.source.symm, hr, h.offset.trans k.offset.symm,
    h.location.trans k.location.symm⟩

theorem Reads.unique (h : a.Reads cs b) (k : a.Reads cs d) : b = d := by
  rw [eq_drop_of_reads h, eq_drop_of_reads k]

/-- The cursor `b` stands where `a` does or after it, on the same text. -/
def Reaches (a b : Cursor) : Prop := ∃ cs, a.Reads cs b

namespace Reaches

theorem refl (a : Cursor) : a.Reaches a := ⟨[], .refl a⟩

theorem trans (h : a.Reaches b) (k : b.Reaches d) : a.Reaches d :=
  let ⟨_, h⟩ := h
  let ⟨_, k⟩ := k
  ⟨_, h.trans k⟩

theorem index_le (h : a.Reaches b) : a.location.index ≤ b.location.index := by
  obtain ⟨cs, hcs⟩ := h
  rw [hcs.location, Location.index_scan]
  exact Nat.le_add_right ..

end Reaches

/-- The cursor is got from the start of the text by reading on. -/
def On (text : List Char) (a : Cursor) : Prop := ∃ n, a = drop n (ofText text)

theorem On.reads {text : List Char} (h : a.On text) :
    ∃ cs, (ofText text).Reads cs a ∧ text = cs ++ a.rest := by
  obtain ⟨n, rfl⟩ := h
  have hd := reads_drop n (ofText text)
  exact ⟨_, hd, hd.rest⟩

theorem On.of_reads {text : List Char} (h : (ofText text).Reads cs a) : a.On text :=
  ⟨cs.length, eq_drop_of_reads h⟩

theorem On.reaches {text : List Char} (h : a.On text) (k : a.Reaches b) : b.On text := by
  obtain ⟨cs, hs, -⟩ := h.reads
  obtain ⟨ds, hd⟩ := k
  exact .of_reads (hs.trans hd)

/-- A cursor on a text has read whole characters of it. -/
theorem On.boundary {text : List Char} (h : a.On text) :
    ∃ cs, text = cs ++ a.rest ∧ a.offset = byteLength cs := by
  obtain ⟨cs, hs, ht⟩ := h.reads
  refine ⟨cs, ht, ?_⟩
  rw [hs.offset]
  exact Nat.zero_add _

end Cursor

end TextParsing
