import Mathlib.Data.Set.Card
import Mathlib.Order.Interval.Finset.Nat
import TextParsing.Proofs.Moving
import TextParsing.Proofs.Sequencing

/-!
Ranges side by side. A range compares whole locations and measures itself by indices; on one text
these agree, so a range contains as many places as it is long. What is read one piece after the
other has ranges that tile the range of the whole: no place between its ends is in two of them or in
none.
-/

namespace TextParsing

universe u v

open Cursor

namespace Cursor

/-- The range from one cursor to another. -/
def rangeTo (a b : Cursor) : Range := ⟨a.location, b.location⟩

variable {text : List Char} {a b d : Cursor}

theorem On.contains_rangeTo (ha : a.On text) (hb : b.On text) (hd : d.On text) :
    (a.rangeTo b).contains d.location = true ↔
      a.location.index ≤ d.location.index ∧ d.location.index < b.location.index := by
  rw [Range.contains, Bool.and_eq_true, decide_eq_true_iff, decide_eq_true_iff, rangeTo,
    ha.location_le_iff hd, hd.location_lt_iff hb]

end Cursor

/-- What `k` lists for a success. For any other outcome nothing is listed. -/
def Reply.listed {ε : Type} {α : Type u} {β : Type v} (r : Reply ε α) (k : α → List β) : List β :=
  match r.outcome with
  | .success a => k a
  | _ => []

theorem Reply.listed_of_success {ε : Type} {α : Type u} {β : Type v} {r : Reply ε α} {a : α}
    (h : r.outcome = .success a) (k : α → List β) : r.listed k = k a := by
  simp only [listed, h]

namespace Range

/-- The locations on `text` that the range contains. -/
def contained (text : List Char) (r : Range) : Set Location :=
  {l | r.contains l = true ∧ ∃ d : Cursor, d.On text ∧ d.location = l}

/-- The range goes forward on `text` from `a` to `b`. It contains what is not before `a` but before
`b`, and is as long as that is. -/
structure Delimits (text : List Char) (a b : Cursor) (r : Range) : Prop where
  forward : r.start ≤ r.stop
  add_length : r.start.index + r.length = r.stop.index
  contains_iff : ∀ d : Cursor, d.On text →
    (r.contains d.location = true ↔ a.offset ≤ d.offset ∧ d.offset < b.offset)
  encard_contained : (r.contained text).encard = r.length
  contained_eq_empty_iff : r.contained text = ∅ ↔ r.isEmpty = true

variable {text : List Char} {a b d : Cursor} {r s t : Range}

theorem contained_rangeTo (ha : a.On text) (hb : b.On text) :
    (a.rangeTo b).contained text =
      (fun n => (behind text n).location) '' Set.Ico a.location.index b.location.index := by
  ext l
  constructor
  · rintro ⟨h, d, hd, rfl⟩
    exact ⟨d.location.index, (ha.contains_rangeTo hb hd).1 h, congrArg location hd.eq_behind.symm⟩
  · rintro ⟨n, hn, rfl⟩
    have on : (behind text n).On text := on_behind (Nat.le_trans (Nat.le_of_lt hn.2) hb.index_le)
    exact ⟨(ha.contains_rangeTo hb on).2 hn, _, on, rfl⟩

theorem encard_contained_rangeTo (ha : a.On text) (hb : b.On text) :
    ((a.rangeTo b).contained text).encard = (a.rangeTo b).length := by
  -- The index of the cursor behind `n` characters is `n`, so no two of them are at one location.
  have injective : Set.InjOn (fun n => (behind text n).location)
      (Set.Ico a.location.index b.location.index) :=
    fun _ _ _ _ same => congrArg Location.index same
  rw [contained_rangeTo ha hb, injective.encard_image, ← Finset.coe_Ico,
    Set.encard_coe_eq_coe_finsetCard, Nat.card_Ico]
  rfl

theorem delimits_rangeTo (ha : a.On text) (hb : b.On text) (h : a.offset ≤ b.offset) :
    (a.rangeTo b).Delimits text a b := by
  have index_le := (ha.offset_le_iff hb).1 h
  exact {
    forward := (ha.location_le_iff hb).2 index_le
    add_length := Nat.add_sub_cancel' index_le
    contains_iff := fun d hd => by
      rw [ha.contains_rangeTo hb hd, ha.offset_le_iff hd, hd.offset_lt_iff hb]
    encard_contained := encard_contained_rangeTo ha hb
    contained_eq_empty_iff := by
      rw [contained_rangeTo ha hb, Set.image_eq_empty, Set.Ico_eq_empty_iff, isEmpty, beq_iff_eq]
      change ¬ a.location.index < b.location.index ↔ a.location.index = b.location.index
      omega }

/-- The range is one of `text`, and goes forward. -/
def On (text : List Char) (r : Range) : Prop :=
  ∃ a b : Cursor, a.On text ∧ b.On text ∧ a.offset ≤ b.offset ∧ r = a.rangeTo b

theorem On.join (hr : r.On text) (hs : s.On text) (h : r.start ≤ s.start) : (r.join s).On text := by
  obtain ⟨a, b, ha, hb, hab, rfl⟩ := hr
  obtain ⟨c, d, hc, hd, hcd, rfl⟩ := hs
  refine ⟨a, d, ha, hd, ?_, rfl⟩
  rw [hc.offset_le_iff hd] at hcd
  rw [ha.offset_le_iff hd]
  exact Nat.le_trans ((ha.location_le_iff hc).1 h) hcd

/-- Three ranges that can be joined to one, either two of them first. -/
structure Joins (text : List Char) (r s t : Range) : Prop where
  earlier : (r.join s).On text
  later : (s.join t).On text
  all : (r.join (s.join t)).On text
  assoc : (r.join s).join t = r.join (s.join t)

theorem On.joins (hr : r.On text) (hs : s.On text) (ht : t.On text) (hrs : r.start ≤ s.start)
    (hst : s.start ≤ t.start) : Joins text r s t where
  earlier := hr.join hs hrs
  later := hs.join ht hst
  all := hr.join (hs.join ht hst) hrs
  assoc := join_join r s t

/-- From `a` to `b` the ranges follow each other, each from where the one before it has ended. -/
inductive Tiles : Cursor → List Range → Cursor → Prop
  | one {a b : Cursor} (h : a.Reaches b) : Tiles a [a.rangeTo b] b
  | cons {a b d : Cursor} {rs : List Range} (h : a.Reaches b) (later : Tiles b rs d) :
      Tiles a (a.rangeTo b :: rs) d

namespace Tiles

variable {rs ss : List Range}

theorem reaches (h : Tiles a rs b) : a.Reaches b := by
  induction h with
  | one h => exact h
  | cons h later ih => exact h.trans ih

theorem append (h : Tiles a rs b) (k : Tiles b ss d) : Tiles a (rs ++ ss) d := by
  induction h with
  | one h => exact .cons h k
  | cons h later ih => exact .cons h (ih k)

theorem foldl_join (h : Tiles b rs d) (a : Cursor) :
    rs.foldl join (a.rangeTo b) = a.rangeTo d := by
  induction h with
  | one h => rfl
  | cons h later ih => exact ih

theorem sum_length (h : Tiles a rs b) : (rs.map length).sum = (a.rangeTo b).length := by
  induction h with
  | one h => rfl
  | cons h later ih =>
    have first := h.index_le
    have others := later.reaches.index_le
    rw [List.map_cons, List.sum_cons, ih]
    simp only [length, rangeTo]
    omega

/-- A place is in one of the ranges if it is between their ends, and in none otherwise. -/
theorem countP_contains (h : Tiles a rs b) (ha : a.On text) (hd : d.On text) :
    rs.countP (fun r => r.contains d.location) =
      if (a.rangeTo b).contains d.location then 1 else 0 := by
  induction h with
  | one h => rw [List.countP_singleton]
  | @cons a b e rs h later ih =>
    have hb := ha.reaches h
    have he := hb.reaches later.reaches
    have first := h.index_le
    have others := later.reaches.index_le
    rw [List.countP_cons, ih hb]
    simp only [ha.contains_rangeTo hb hd, hb.contains_rangeTo he hd, ha.contains_rangeTo he hd]
    split_ifs <;> omega

end Tiles

/-- The ranges in `rs` are those of the pieces of what `r` ranges over. -/
structure Tiled (text : List Char) (rs : List Range) (r : Range) : Prop where
  joined : ∃ s ss, rs = s :: ss ∧ ss.foldl join s = r
  sum_length : (rs.map length).sum = r.length
  countP_contains : ∀ d : Cursor, d.On text →
    rs.countP (fun s => s.contains d.location) = if r.contains d.location then 1 else 0

theorem Tiles.tiled {rs : List Range} (h : Tiles a rs b) (ha : a.On text) :
    Tiled text rs (a.rangeTo b) where
  joined := by
    cases h with
    | one h => exact ⟨_, _, rfl, rfl⟩
    | cons h later => exact ⟨_, _, rfl, later.foldl_join a⟩
  sum_length := h.sum_length
  countP_contains _ hd := h.countP_contains ha hd

theorem contains_join (ha : a.On text) (hb : b.On text) (hd : d.On text) (hab : a.offset ≤ b.offset)
    (hbd : b.offset ≤ d.offset) {e : Cursor} (he : e.On text) :
    ((a.rangeTo b).join (b.rangeTo d)).contains e.location =
      ((a.rangeTo b).contains e.location ^^ (b.rangeTo d).contains e.location) := by
  change (a.rangeTo d).contains e.location = _
  rw [ha.offset_le_iff hb] at hab
  rw [hb.offset_le_iff hd] at hbd
  rw [Bool.eq_iff_iff, Bool.xor_iff_ne, Ne, Bool.eq_iff_iff (a := (a.rangeTo b).contains _),
    ha.contains_rangeTo hd he, ha.contains_rangeTo hb he, hb.contains_rangeTo hd he]
  omega

end Range

namespace Parser

variable {ε : Type} {α β γ : Type u}

/-- A sequence of parsers, put together from its parts in any of the ways in which parsers are run
one after the other: `andThen` is `seq`, `keepLeft`, `keepRight`, `apply`, `applyWithRange` and
`concat`, `between` is `surrounded` too, and `bindWithRange` is `bind`. -/
inductive Sequence (ε : Type) : Type u → Type (u + 1)
  | part {α : Type u} (p : Parser ε α) (sound : p.Sound) : Sequence ε α
  | andThen {α β γ : Type u} (g : α → β → Range → γ) (p : Sequence ε α) (q : Sequence ε β) :
      Sequence ε γ
  | between {α β γ : Type u} (left : Sequence ε α) (p : Sequence ε β) (right : Sequence ε γ) :
      Sequence ε β
  | bindWithRange {α β : Type u} (p : Sequence ε α) (k : α → Range → Sequence ε β) : Sequence ε β

namespace Sequence

def parser {α : Type u} : Sequence ε α → Parser ε α
  | part p _ => p
  | andThen g p q => .andThen g p.parser q.parser
  | between left p right => .between left.parser p.parser right.parser
  | bindWithRange p k => p.parser.bindWithRange fun a r => (k a r).parser

/-- The ranges of the parts that are read when the sequence is run from `c`, in order. -/
def ranges {α : Type u} : Sequence ε α → Cursor → List Range
  | part p _, c => (p.run c).listed fun t => [t.range]
  | andThen _ p q, c => p.ranges c ++ (p.parser.run c).listed fun t => q.ranges t.rest
  | between left p right, c =>
    left.ranges c ++ (left.parser.run c).listed fun t =>
      p.ranges t.rest ++ (p.parser.run t.rest).listed fun u => right.ranges u.rest
  | bindWithRange p k, c =>
    p.ranges c ++ (p.parser.run c).listed fun t => (k t.target t.range).ranges t.rest

theorem sound (s : Sequence ε α) : s.parser.Sound := by
  induction s with
  | part p sound => exact sound
  | andThen g p q ihp ihq => exact ihp.andThen ihq
  | between left p right ihl ihp ihr =>
    rw [parser, between_eq_bind]
    exact ihl.bind fun _ => ihp.bind fun _ => ihr.map
  | bindWithRange p k ihp ihk => exact ihp.bindWithRange fun a r => ihk a r

theorem tiles (s : Sequence ε α) {c : Cursor} {t : Parse α}
    (h : (s.parser.run c).outcome = .success t) : Range.Tiles c (s.ranges c) t.rest := by
  induction s generalizing c with
  | part p sound =>
    have read := (sound c).of_success h
    rw [ranges, Reply.listed_of_success (r := p.run c) h, read.range]
    exact .one read.reaches
  | andThen g p q ihp ihq =>
    simp only [parser, Parser.andThen, Reply.outcome_bind_eq_success,
      Reply.outcome_map_eq_success] at h
    obtain ⟨t₁, h₁, t₂, h₂, rfl⟩ := h
    rw [ranges, Reply.listed_of_success h₁]
    exact (ihp h₁).append (ihq h₂)
  | between left p right ihl ihp ihr =>
    simp only [parser, Parser.between, Reply.outcome_bind_eq_success,
      Reply.outcome_map_eq_success] at h
    obtain ⟨t₁, h₁, t₂, h₂, t₃, h₃, rfl⟩ := h
    rw [ranges, Reply.listed_of_success h₁, Reply.listed_of_success h₂]
    exact (ihl h₁).append ((ihp h₂).append (ihr h₃))
  | bindWithRange p k ihp ihk =>
    simp only [parser, Parser.bindWithRange, Reply.outcome_bind_eq_success,
      Reply.outcome_map_eq_success] at h
    obtain ⟨t₁, h₁, t₂, h₂, rfl⟩ := h
    rw [ranges, Reply.listed_of_success h₁]
    have later := ihk _ _ h₂
    exact (ihp h₁).append later

/-- The range of a sequence is what the ranges of its parts join to, which lie side by side. -/
theorem tiled (s : Sequence ε α) {text : List Char} {c : Cursor} (hc : c.On text) {t : Parse α}
    (h : (s.parser.run c).outcome = .success t) : Range.Tiled text (s.ranges c) t.range := by
  rw [((s.sound c).of_success h).range]
  exact (s.tiles h).tiled hc

end Sequence

end Parser

namespace Range

/-- On one text, ranges that are next to each other join to the range of both: no place is counted
twice and none is left out, however many there are and in whatever order they are joined. The range
of a sequence of parsers is joined so from those of its parts. -/
theorem consecutive_ranges_tile {text : List Char} {a b d : Cursor} (ha : a.On text)
    (hb : b.On text) (hd : d.On text) (hab : a.offset ≤ b.offset) (hbd : b.offset ≤ d.offset) :
    let r := a.rangeTo b
    let s := b.rangeTo d
    r.join s = a.rangeTo d ∧ (r.join s).length = r.length + s.length ∧
    r.Delimits text a b ∧ s.Delimits text b d ∧ (r.join s).Delimits text a d ∧
    (∀ e : Cursor, e.On text → (r.join s).contains e.location =
      (r.contains e.location ^^ s.contains e.location)) ∧
    (∀ r s t : Range, r.On text → s.On text → t.On text → r.start ≤ s.start → s.start ≤ t.start →
      Joins text r s t) ∧
    ∀ {ε α : Type} (p : Parser.Sequence ε α) (t : Parse α),
      (p.parser.run a).outcome = .success t → Tiled text (p.ranges a) t.range := by
  intro r s
  have tiles : Tiles a [r, s] d := .cons (ha.reaches_of_le hb hab) (.one (hb.reaches_of_le hd hbd))
  refine ⟨rfl, tiles.sum_length.symm, delimits_rangeTo ha hb hab, delimits_rangeTo hb hd hbd,
    delimits_rangeTo ha hd (Nat.le_trans hab hbd), ?_, ?_, ?_⟩
  · exact fun e he => contains_join ha hb hd hab hbd he
  · exact fun r s t hr hs ht => hr.joins hs ht
  · exact fun p t ht => p.tiled ha ht

/-- Two lines, read as two tokens with the character that the second begins with in between. -/
theorem consecutive_ranges_tile_of_lines :
    let text := ['a', '\n', 'é', '🐶', 'b']
    let a : Cursor := .ofText text
    let b := a.drop 2
    let d := a.drop 5
    let token : List Char → Parser.Sequence Location (List Char) := fun cs =>
      .part (.token cs) (Parser.token_sound cs)
    let p := Parser.Sequence.andThen (fun x y _ => x ++ y) (token ['a', '\n'])
      (.bindWithRange (token ['é']) fun _ _ => token ['🐶', 'b'])
    a.On text ∧ b.On text ∧ d.On text ∧ a.offset ≤ b.offset ∧ b.offset ≤ d.offset ∧
      ((a.rangeTo b).contained text).encard = 2 ∧
      p.ranges a = [a.rangeTo b, b.rangeTo (a.drop 3), (a.drop 3).rangeTo d] ∧
      Tiled text (p.ranges a) (a.rangeTo d) := by
  intro text a b d token p
  have ha : a.On text := ⟨0, rfl⟩
  have hb : b.On text := ⟨2, rfl⟩
  have hd : d.On text := ⟨5, rfl⟩
  have hab : a.offset ≤ b.offset := by decide
  have hbd : b.offset ≤ d.offset := by decide
  obtain ⟨-, -, first, -, -, -, -, sequence⟩ := consecutive_ranges_tile ha hb hd hab hbd
  exact ⟨ha, hb, hd, hab, hbd, first.encard_contained, rfl, sequence p _ rfl⟩

end Range

end TextParsing
