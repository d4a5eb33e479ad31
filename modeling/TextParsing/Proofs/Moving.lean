import Mathlib.Data.List.Induction
import Mathlib.Data.List.TakeWhile
import TextParsing.Proofs.Reading

/-!
Moving about in a text. Bytes, characters, lines and columns are counted separately, and by
different means when a character is read and when a lexeme is. Along one text the number of
characters before a cursor settles all of them, however the cursor was moved there.
-/

namespace TextParsing

open Text

namespace Location

/-- Where scanning a text from anywhere leads. Only what is on one line with where it began still
tells the column of that place. -/
theorem scan_eq (l : Location) (cs : List Char) : l.scan cs =
    { line := l.line + cs.count '\n'
      column :=
        if '\n' ∈ cs then 1 + (cs.reverse.takeWhile (· != '\n')).length else l.column + cs.length
      index := l.index + cs.length } := by
  induction cs using List.reverseRecOn with
  | nil => rfl
  | append_singleton cs c ih =>
    rw [scan_append, ih, scan_cons, scan_nil, past]
    by_cases hc : c = '\n'
    · simp [hc, Nat.add_assoc]
    · by_cases hn : '\n' ∈ cs
      · simp [hc, hn, Nat.add_assoc]
      · simp [hc, hn, Ne.symm hc, Nat.add_assoc]

theorem scan_start (cs : List Char) : start.scan cs =
    ⟨1 + cs.count '\n', 1 + (cs.reverse.takeWhile (· != '\n')).length, cs.length⟩ := by
  rw [scan_eq, start, Nat.zero_add]
  split
  · rfl
  · next none =>
    have all : ∀ x ∈ cs.reverse, (x != '\n') = true := by
      intro x hx
      rw [bne_iff_ne]
      rintro rfl
      exact none (List.mem_reverse.1 hx)
    rw [List.takeWhile_eq_self_iff.2 all, List.length_reverse]

/-- Line and column do not matter to the order of two locations that are the same one if their
indices are equal. -/
theorem compare_eq {l m : Location} (h : l.index = m.index → l = m) :
    compare l m = compare l.index m.index := by
  change (compare l.index m.index).then _ = _
  cases hc : compare l.index m.index with
  | lt => rfl
  | gt => rfl
  | eq =>
    obtain rfl := h (Nat.compare_eq_eq.1 hc)
    simp only [Nat.compare_eq_eq.2, Ordering.then_eq]

end Location

namespace Cursor

variable {text cs ds : List Char} {a b d : Cursor} {n m : Nat} {x : Char}

theorem drop_of_advance_eq_none (h : a.advance = none) (n : Nat) : drop n a = a := by
  cases n with
  | zero => rfl
  | succ n => simp only [drop, h]

theorem drop_drop (m n : Nat) (a : Cursor) : drop n (drop m a) = drop (m + n) a := by
  induction m generalizing a with
  | zero => rw [drop_zero, Nat.zero_add]
  | succ m ih =>
    cases h : a.advance with
    | none => simp only [drop_of_advance_eq_none h]
    | some s =>
      rw [Nat.succ_add, drop_succ_of_advance m h, drop_succ_of_advance (m + n) h, ih]

/-- To read a character is to drop one, if one is left. -/
theorem advance_eq_map (a : Cursor) : a.advance = a.peek.map fun c => (c, drop 1 a) := by
  obtain ⟨source, rest, offset, location⟩ := a
  cases rest <;> rfl

theorem consume_eq_drop (h : a.rest = cs ++ ds) : a.consume (byteLength cs) = drop cs.length a :=
  eq_drop_of_reads (reads_consume h)

/-- The cursor on a text that stands behind its first `n` characters. -/
def behind (text : List Char) (n : Nat) : Cursor where
  source := text
  rest := text.drop n
  offset := byteLength (text.take n)
  location :=
    { line := 1 + (text.take n).count '\n'
      column := 1 + ((text.take n).reverse.takeWhile (· != '\n')).length
      index := n }

theorem reads_behind (h : n ≤ text.length) : (ofText text).Reads (text.take n) (behind text n) where
  source := rfl
  rest := (List.take_append_drop n text).symm
  offset := (Nat.zero_add _).symm
  location := by
    change _ = Location.start.scan (text.take n)
    rw [Location.scan_start, List.length_take_of_le h, behind]

theorem on_behind (h : n ≤ text.length) : (behind text n).On text := .of_reads (reads_behind h)

theorem drop_ofText (text : List Char) (n : Nat) :
    drop n (ofText text) = behind text (min n text.length) := by
  rw [eq_drop_of_reads (reads_behind (Nat.min_le_right n text.length)),
    eq_drop_of_reads (reads_drop n (ofText text)), ofText, ← List.take_eq_take_min]

namespace On

theorem index_le (h : a.On text) : a.location.index ≤ text.length := by
  obtain ⟨n, rfl⟩ := h
  rw [drop_ofText]
  exact Nat.min_le_right ..

theorem eq_behind (h : a.On text) : a = behind text a.location.index := by
  obtain ⟨n, rfl⟩ := h
  rw [drop_ofText]
  rfl

theorem rest_eq (h : a.On text) : a.rest = text.drop a.location.index :=
  congrArg rest h.eq_behind

/-- Two cursors on one text are the same if as many characters stand before them. -/
theorem ext (ha : a.On text) (hb : b.On text) (h : a.location.index = b.location.index) :
    a = b := by
  rw [ha.eq_behind, hb.eq_behind, h]

theorem drop_eq (h : a.On text) (n : Nat) :
    drop n a = behind text (min (a.location.index + n) text.length) := by
  obtain ⟨m, rfl⟩ := h
  rw [drop_drop, drop_ofText, drop_ofText]
  change _ = behind text (min (min m text.length + n) text.length)
  congr 1
  omega

theorem peek_eq (h : a.On text) : a.peek = text[a.location.index]? := by
  rw [h.eq_behind]
  exact List.head?_drop

theorem peek_eq_none (h : a.On text) : a.peek = none ↔ a.location.index = text.length := by
  have := h.index_le
  rw [h.peek_eq, List.getElem?_eq_none_iff]
  omega

theorem advance_eq (h : a.On text) : a.advance =
    text[a.location.index]?.map fun c => (c, behind text (a.location.index + 1)) := by
  rw [advance_eq_map, h.peek_eq]
  cases hc : text[a.location.index]? with
  | none => rfl
  | some c =>
    obtain ⟨lt, -⟩ := List.getElem?_eq_some_iff.1 hc
    rw [h.drop_eq, Nat.min_eq_left lt, Option.map_some]

theorem consume_eq (h : a.On text) (hr : a.rest = cs ++ ds) :
    a.consume (byteLength cs) = behind text (a.location.index + cs.length) := by
  have length := congrArg List.length (h.rest_eq.symm.trans hr)
  rw [List.length_drop, List.length_append] at length
  have := h.index_le
  rw [consume_eq_drop hr, h.drop_eq, Nat.min_eq_left (by omega)]

/-- Between two cursors on a text stand the characters between their indices. -/
theorem reads_of_le (ha : a.On text) (hb : b.On text) (h : a.location.index ≤ b.location.index) :
    a.Reads ((text.drop a.location.index).take (b.location.index - a.location.index)) b := by
  have read := reads_drop (b.location.index - a.location.index) a
  rwa [ha.drop_eq, Nat.add_sub_cancel' h, Nat.min_eq_left hb.index_le, ← hb.eq_behind,
    ha.rest_eq] at read

theorem offset_lt (ha : a.On text) (hb : b.On text) (h : a.location.index < b.location.index) :
    a.offset < b.offset := by
  apply (ha.reads_of_le hb (Nat.le_of_lt h)).offset_lt
  have := hb.index_le
  rw [Ne, List.take_eq_nil_iff, List.drop_eq_nil_iff]
  omega

theorem compare_offset (ha : a.On text) (hb : b.On text) :
    compare a.offset b.offset = compare a.location.index b.location.index := by
  obtain lt | eq | gt := Nat.lt_trichotomy a.location.index b.location.index
  · rw [Nat.compare_eq_lt.2 lt, Nat.compare_eq_lt.2 (ha.offset_lt hb lt)]
  · rw [ha.ext hb eq, Nat.compare_eq_eq.2 rfl, Nat.compare_eq_eq.2 rfl]
  · rw [Nat.compare_eq_gt.2 gt, Nat.compare_eq_gt.2 (hb.offset_lt ha gt)]

theorem eq_iff_offset (ha : a.On text) (hb : b.On text) : a = b ↔ a.offset = b.offset := by
  refine ⟨congrArg offset, fun h => ha.ext hb ?_⟩
  rw [← Nat.compare_eq_eq, ← ha.compare_offset hb, Nat.compare_eq_eq, h]

theorem eq_iff_location (ha : a.On text) (hb : b.On text) : a = b ↔ a.location = b.location :=
  ⟨congrArg location, fun h => ha.ext hb (congrArg Location.index h)⟩

theorem compare_location (ha : a.On text) (hb : b.On text) :
    compare a.location b.location = compare a.location.index b.location.index :=
  Location.compare_eq fun h => congrArg location (ha.ext hb h)

theorem offset_le_iff (ha : a.On text) (hb : b.On text) :
    a.offset ≤ b.offset ↔ a.location.index ≤ b.location.index := by
  rw [← Nat.isLE_compare, ha.compare_offset hb, Nat.isLE_compare]

theorem offset_lt_iff (ha : a.On text) (hb : b.On text) :
    a.offset < b.offset ↔ a.location.index < b.location.index := by
  rw [← Nat.compare_eq_lt, ha.compare_offset hb, Nat.compare_eq_lt]

theorem location_le_iff (ha : a.On text) (hb : b.On text) :
    a.location ≤ b.location ↔ a.location.index ≤ b.location.index := by
  change (compare a.location b.location).isLE = true ↔ _
  rw [ha.compare_location hb, Nat.isLE_compare]

theorem location_lt_iff (ha : a.On text) (hb : b.On text) :
    a.location < b.location ↔ a.location.index < b.location.index := by
  change compare a.location b.location = .lt ↔ _
  rw [ha.compare_location hb, Nat.compare_eq_lt]

theorem reaches_of_le (ha : a.On text) (hb : b.On text) (h : a.offset ≤ b.offset) : a.Reaches b :=
  ⟨_, ha.reads_of_le hb ((ha.offset_le_iff hb).1 h)⟩

end On

/-- The cursor `a` is the one on `text` that its index says, it shows what stands there, and it
moves on by index. -/
structure Tracks (text : List Char) (a : Cursor) : Prop where
  index_le : a.location.index ≤ text.length
  eq_behind : a = behind text a.location.index
  peek_eq : a.peek = text[a.location.index]?
  isEmpty_iff : a.isEmpty = true ↔ a.location.index = text.length
  advance_eq : a.advance =
    text[a.location.index]?.map fun c => (c, behind text (a.location.index + 1))
  consume_eq : ∀ cs ds, a.rest = cs ++ ds →
    a.consume (byteLength cs) = behind text (a.location.index + cs.length)
  drop_eq : ∀ n, drop n a = behind text (min (a.location.index + n) text.length)
  drop_drop : ∀ m n, drop n (drop m a) = drop (m + n) a

/-- Two cursors on `text` compare as their indices do, by offset and by location, and the characters
between them are those between the indices. -/
structure Ordered (text : List Char) (a b : Cursor) : Prop where
  beq_iff_eq : (a == b) = true ↔ a = b
  eq_iff_offset : a = b ↔ a.offset = b.offset
  eq_iff_location : a = b ↔ a.location = b.location
  compare_offset : compare a.offset b.offset = compare a.location.index b.location.index
  compare_location : compare a.location b.location = compare a.location.index b.location.index
  sliceTo_eq : a.location.index ≤ b.location.index →
    a.sliceTo b = (text.drop a.location.index).take (b.location.index - a.location.index)

theorem On.tracks (h : a.On text) : a.Tracks text where
  index_le := h.index_le
  eq_behind := h.eq_behind
  peek_eq := h.peek_eq
  isEmpty_iff := by rw [← h.peek_eq_none, peek, isEmpty, List.head?_eq_none_iff, List.isEmpty_iff]
  advance_eq := h.advance_eq
  consume_eq _ _ := h.consume_eq
  drop_eq := h.drop_eq
  drop_drop m n := drop_drop m n a

theorem On.ordered (ha : a.On text) (hb : b.On text) : a.Ordered text b where
  beq_iff_eq := by
    change (a.offset == b.offset) = true ↔ a = b
    rw [beq_iff_eq, ha.eq_iff_offset hb]
  eq_iff_offset := ha.eq_iff_offset hb
  eq_iff_location := ha.eq_iff_location hb
  compare_offset := ha.compare_offset hb
  compare_location := ha.compare_location hb
  sliceTo_eq h := (ha.reads_of_le hb h).sliceTo

/-- What stands between the outer two of three cursors is what stands on either side of the middle
one. -/
theorem On.sliceTo_append (ha : a.On text) (hb : b.On text) (hd : d.On text)
    (hab : a.location.index ≤ b.location.index) (hbd : b.location.index ≤ d.location.index) :
    a.sliceTo b ++ b.sliceTo d = a.sliceTo d := by
  have first := ha.reads_of_le hb hab
  have second := hb.reads_of_le hd hbd
  rw [first.sliceTo, second.sliceTo, (first.trans second).sliceTo]

end Cursor

/-- What a cursor may be made to do. A lexeme is read only where it stands, and the place where a
cursor stands can be kept under a name and gone back to. -/
inductive Move
  | advance
  | drop (n : Nat)
  | consume (lexeme : List Char)
  | save (name : String)
  | load (name : String)

/-- A cursor on its way, and the cursors kept so far. -/
structure Walk where
  here : Cursor
  saved : List (String × Cursor)

namespace Walk

def start (text : List Char) : Walk := ⟨.ofText text, []⟩

def cursors (w : Walk) : List Cursor := w.here :: w.saved.map Prod.snd

def goTo (w : Walk) (a : Cursor) : Walk := { w with here := a }

def step (w : Walk) : Move → Walk
  | .advance =>
    match w.here.advance with
    | some (_, a) => w.goTo a
    | none => w
  | .drop n => w.goTo (.drop n w.here)
  | .consume lexeme =>
    if lexeme.isPrefixOf w.here.rest then w.goTo (w.here.consume (byteLength lexeme)) else w
  | .save name => { w with saved := (name, w.here) :: w.saved }
  | .load name =>
    match w.saved.lookup name with
    | some a => w.goTo a
    | none => w

def run (w : Walk) (moves : List Move) : Walk := moves.foldl step w

/-- The cursor is one that some moves from the start of the text lead to or keep. -/
def Visits (text : List Char) (a : Cursor) : Prop :=
  ∃ moves, a ∈ ((start text).run moves).cursors

/-- All cursors of the walk are on the text. -/
def On (text : List Char) (w : Walk) : Prop := ∀ a ∈ w.cursors, a.On text

variable {text : List Char} {w : Walk} {a b d : Cursor}

theorem on_start (text : List Char) : (start text).On text := by
  intro a ha
  rw [List.mem_singleton.1 ha]
  exact ⟨0, rfl⟩

theorem On.goTo (h : w.On text) (ha : a.On text) : (w.goTo a).On text := by
  rintro b (- | ⟨-, hb⟩)
  · exact ha
  · exact h b (.tail _ hb)

theorem On.step (h : w.On text) (move : Move) : (w.step move).On text := by
  have here : w.here.On text := h _ (.head _)
  cases move with
  | advance =>
    simp only [Walk.step]
    split
    · next ha => exact h.goTo (here.reaches ⟨_, Cursor.reads_of_advance ha⟩)
    · exact h
  | drop n => exact h.goTo (here.reaches ⟨_, Cursor.reads_drop n w.here⟩)
  | consume lexeme =>
    simp only [Walk.step]
    split
    · next hp =>
      obtain ⟨rest, hr⟩ := List.isPrefixOf_iff_prefix.1 hp
      exact h.goTo (here.reaches ⟨_, Cursor.reads_consume hr.symm⟩)
    · exact h
  | save name =>
    rintro a (- | ⟨-, - | ⟨-, ha⟩⟩)
    · exact here
    · exact here
    · exact h a (.tail _ ha)
  | load name =>
    simp only [Walk.step]
    split
    · next a ha =>
      obtain ⟨before, after, hs, -⟩ := List.lookup_eq_some_iff.1 ha
      apply h.goTo (h a (List.mem_cons_of_mem _ ?_))
      simp [hs]
    · exact h

theorem On.run (h : w.On text) (moves : List Move) : (w.run moves).On text := by
  induction moves generalizing w with
  | nil => exact h
  | cons move moves ih => exact ih (h.step move)

theorem Visits.on (h : Visits text a) : a.On text :=
  let ⟨moves, ha⟩ := h
  (on_start text).run moves a ha

/-- Wherever moves from the start of a text lead, the index says which cursor that is, and the order
of the indices is that of the cursors. -/
theorem index_settles_cursor (ha : Visits text a) (hb : Visits text b) (hd : Visits text d) :
    a.Tracks text ∧ a.Ordered text b ∧
    (a.location.index ≤ b.location.index → b.location.index ≤ d.location.index →
      a.sliceTo b ++ b.sliceTo d = a.sliceTo d) :=
  ⟨ha.on.tracks, ha.on.ordered hb.on, ha.on.sliceTo_append hb.on hd.on⟩

/-- A cursor that has read one character, one that has gone back and read a lexeme, and one kept
after dropping more than there is. -/
theorem index_settles_cursor_of_moves :
    let text := ['é', '\n', '🐶']
    let a := ((start text).run [.advance]).here
    let b := ((start text).run [.save "start", .drop 9, .load "start", .consume ['é', '\n']]).here
    let d := Cursor.behind text 3
    Visits text a ∧ Visits text b ∧ Visits text d ∧
    a.Tracks text ∧ a.Ordered text b ∧
    (a.location.index ≤ b.location.index → b.location.index ≤ d.location.index →
      a.sliceTo b ++ b.sliceTo d = a.sliceTo d) := by
  intro text a b d
  have ha : Visits text a := ⟨_, .head _⟩
  have hb : Visits text b := ⟨_, .head _⟩
  have hd : Visits text d := ⟨[.drop 9, .save "end", .load "start"], .tail _ (.head _)⟩
  exact ⟨ha, hb, hd, index_settles_cursor ha hb hd⟩

end Walk

end TextParsing
