import TextParsing.Proofs.Reading
import TextParsing.Value.Action

/-!
Ranges inside values. A value is nested if each range in it encloses the ranges of its parts, and
the ranges of two parts that stand side by side are as they should be. What is made of nested values
by keeping, wrapping and dropping parts of them is nested.
-/

namespace TextParsing

namespace Range

/-- The range `r` lies within `s`. -/
structure Inside (r s : Range) : Prop where
  start_le : s.start ≤ r.start
  start_le_stop : r.start ≤ r.stop
  stop_le : r.stop ≤ s.stop

/-- The range `r` ends before `s` begins or, if the order is not known, the other way around. -/
def Apart (swaps : Bool) (r s : Range) : Prop :=
  r.stop ≤ s.start ∨ swaps = true ∧ s.stop ≤ r.start

variable {r s : Range} {l m o : Location}

theorem Inside.widen (h : r.Inside ⟨m, o⟩) {l p : Location} (hl : l ≤ m) (hp : o ≤ p) :
    r.Inside ⟨l, p⟩ :=
  ⟨Location.le_trans hl h.start_le, h.start_le_stop, Location.le_trans h.stop_le hp⟩

theorem inside_self (h : r.start ≤ r.stop) : r.Inside r :=
  ⟨Location.le_self _, h, Location.le_self _⟩

theorem Apart.symm (h : r.Apart true s) : s.Apart true r := by
  obtain h | ⟨-, h⟩ := h
  · exact .inr ⟨rfl, h⟩
  · exact .inl h

end Range

namespace Value

/-- The values that a value holds. -/
def parts : Value → List Value
  | list vs => vs
  | pair v w => [v, w]
  | present v => [v]
  | node _ args _ => args
  | located _ v => [v]
  | _ => []

/-- The range that a value itself stores. -/
def range? : Value → Option Range
  | node _ _ range => range
  | located range _ => some range
  | _ => none

mutual

/-- All ranges that a value stores. -/
def ranges : Value → List Range
  | list vs => rangesAll vs
  | pair v w => v.ranges ++ w.ranges
  | present v => v.ranges
  | node _ args range => range.toList ++ rangesAll args
  | located range v => range :: v.ranges
  | _ => []

@[simp] def rangesAll : List Value → List Range
  | [] => []
  | v :: vs => v.ranges ++ rangesAll vs

end

theorem ranges_eq (v : Value) : v.ranges = v.range?.toList ++ rangesAll v.parts := by
  cases v <;> simp [ranges, range?, parts]

@[simp] theorem rangesAll_append (us vs : List Value) :
    rangesAll (us ++ vs) = rangesAll us ++ rangesAll vs := by
  induction us with
  | nil => rfl
  | cons u us ih => simp [ih]

variable (R : Range → Range → Prop)

mutual

/-- Each range in the value encloses the ranges of its parts, and `R` holds between the ranges of
one part and those of a part behind it. -/
def Nested : Value → Prop
  | list vs => NestedAll vs
  | pair v w => v.Nested ∧ w.Nested ∧ ∀ r ∈ v.ranges, ∀ s ∈ w.ranges, R r s
  | present v => v.Nested
  | node _ args range => NestedAll args ∧ ∀ s ∈ range, ∀ r ∈ rangesAll args, r.Inside s
  | located range v => v.Nested ∧ ∀ r ∈ v.ranges, r.Inside range
  | _ => True

@[simp] def NestedAll : List Value → Prop
  | [] => True
  | v :: vs => v.Nested ∧ NestedAll vs ∧ ∀ r ∈ v.ranges, ∀ s ∈ rangesAll vs, R r s

end

variable {R}

theorem nested_iff {v : Value} : v.Nested R ↔
    NestedAll R v.parts ∧ ∀ s ∈ v.range?, ∀ r ∈ rangesAll v.parts, r.Inside s := by
  cases v <;> simp [Nested, range?, parts]

theorem nestedAll_append {us vs : List Value} : NestedAll R (us ++ vs) ↔
    NestedAll R us ∧ NestedAll R vs ∧ ∀ r ∈ rangesAll us, ∀ s ∈ rangesAll vs, R r s := by
  induction us with
  | nil => simp
  | cons u us ih =>
    simp only [List.cons_append, NestedAll, ih, rangesAll_append, rangesAll, List.mem_append]
    grind

/-- What can be made of some values, in order, by keeping, wrapping and dropping parts of them, and
if `swaps` by changing their order. -/
inductive Kept (swaps : Bool) : List Value → List Value → Prop
  | refl (us : List Value) : Kept swaps us us
  | trans {us vs ws : List Value} (h : Kept swaps us vs) (k : Kept swaps vs ws) : Kept swaps us ws
  | cons (u : Value) {us vs : List Value} (h : Kept swaps us vs) : Kept swaps (u :: us) (u :: vs)
  | drop (u : Value) (us : List Value) : Kept swaps (u :: us) us
  /-- Values become the parts of one that stores no range itself, or a new one appears. -/
  | wrap {v : Value} (h : v.range? = none) (us : List Value) : Kept swaps (v.parts ++ us) (v :: us)
  | unwrap (v : Value) (us : List Value) : Kept swaps (v :: us) (v.parts ++ us)
  | inside {v w : Value} (h : Kept swaps v.parts w.parts) (hr : w.range? = v.range?)
      (us : List Value) : Kept swaps (v :: us) (w :: us)
  | swap (h : swaps = true) (v w : Value) (us : List Value) :
      Kept swaps (v :: w :: us) (w :: v :: us)

variable {swaps : Bool} {us vs ws : List Value}

theorem Kept.ranges_subset (h : Kept swaps us vs) : ∀ r ∈ rangesAll vs, r ∈ rangesAll us := by
  induction h with
  | refl us => exact fun r hr => hr
  | trans _ _ ih ih' => exact fun r hr => ih r (ih' r hr)
  | cons u _ ih =>
    simp only [rangesAll, List.mem_append]
    exact fun r hr => hr.imp_right (ih r)
  | drop u us => simp_all
  | wrap h us => simp [ranges_eq, h]
  | unwrap v us => simp_all [ranges_eq]
  | @inside v w _ hr us ih =>
    simp only [rangesAll, ranges_eq, hr, List.mem_append]
    grind
  | swap _ v w us =>
    simp only [rangesAll, List.mem_append]
    grind

/-- One step keeps values nested, and so do many. -/
theorem Kept.nested (h : Kept swaps us vs) (hR : swaps = true → ∀ r s, R r s → R s r)
    (hu : NestedAll R us) : NestedAll R vs := by
  induction h with
  | refl us => exact hu
  | trans _ _ ih ih' => exact ih' (ih hu)
  | cons u h ih =>
    obtain ⟨hu, hus, apart⟩ := hu
    exact ⟨hu, ih hus, fun r hr s hs => apart r hr s (h.ranges_subset s hs)⟩
  | drop u us => exact hu.2.1
  | wrap h us =>
    obtain ⟨hv, hus, apart⟩ := nestedAll_append.1 hu
    refine ⟨nested_iff.2 ⟨hv, by simp [h]⟩, hus, ?_⟩
    simpa [ranges_eq, h] using apart
  | unwrap v us =>
    obtain ⟨hv, hus, apart⟩ := hu
    refine nestedAll_append.2 ⟨(nested_iff.1 hv).1, hus, fun r hr => apart r ?_⟩
    simp [ranges_eq, hr]
  | @inside v w h hr us ih =>
    obtain ⟨hv, hus, apart⟩ := hu
    obtain ⟨parts, enclosed⟩ := nested_iff.1 hv
    refine ⟨nested_iff.2 ⟨ih parts, ?_⟩, hus, fun r hw => apart r ?_⟩
    · rw [hr]
      exact fun s hs r hw => enclosed s hs r (h.ranges_subset r hw)
    · rw [ranges_eq, hr] at hw
      rw [ranges_eq]
      obtain hw | hw := List.mem_append.1 hw
      · exact List.mem_append_left _ hw
      · exact List.mem_append_right _ (h.ranges_subset r hw)
  | swap hs v w us =>
    obtain ⟨hv, ⟨hw, hus, apart⟩, before⟩ := hu
    refine ⟨hw, ⟨hv, hus, fun r hr s hs => before r hr s ?_⟩, fun r hr s hm => ?_⟩
    · simp [hs]
    · rw [rangesAll, List.mem_append] at hm
      obtain hm | hm := hm
      · exact hR hs s r (before s hm r (by simp [hr]))
      · exact apart r hr s hm

namespace Kept

theorem nil (us : List Value) : Kept swaps us [] := by
  induction us with
  | nil => exact .refl []
  | cons u us ih => exact (drop u us).trans ih

/-- Values that store nothing may take the place of all others. -/
theorem literal (us : List Value) {v : Value} (hr : v.range? = none) (hp : v.parts = []) :
    Kept swaps us [v] := by
  have wrapped : Kept swaps (v.parts ++ []) [v] := wrap hr []
  rw [hp] at wrapped
  exact (nil us).trans wrapped

theorem rotate (hs : swaps = true) (u : Value) (us : List Value) :
    Kept swaps (u :: us) (us ++ [u]) := by
  induction us with
  | nil => exact .refl [u]
  | cons v us ih => exact (swap hs u v us).trans (ih.cons v)

theorem reverse (hs : swaps = true) (us : List Value) : Kept swaps us us.reverse := by
  induction us with
  | nil => exact .refl []
  | cons u us ih =>
    rw [List.reverse_cons]
    exact (ih.cons u).trans (rotate hs u us.reverse)

end Kept

theorem list_kept (vs : List Value) : Kept swaps vs [list vs] := by
  have wrapped : Kept swaps ((list vs).parts ++ []) [list vs] := .wrap rfl []
  rwa [List.append_nil] at wrapped

/-! What a grammar does with values, it does by keeping, wrapping and dropping. -/

theorem toText_kept (v : Value) : Kept swaps [v] [v.toText] := .literal _ rfl rfl

theorem toLength_kept (v : Value) : Kept swaps [v] [v.toLength] := .literal _ rfl rfl

theorem succ_kept (v : Value) : Kept swaps [v] [v.succ] := by
  cases v with
  | int i => exact .literal _ rfl rfl
  | _ => exact .refl _

theorem reverse_kept (v : Value) : Kept true [v] [v.reverse] := by
  cases v with
  | list vs => exact .inside (v := list vs) (w := list vs.reverse) (.reverse rfl vs) rfl []
  | pair v w => exact .inside (v := pair v w) (w := pair w v) (.swap rfl v w []) rfl []
  | _ => exact .refl _

theorem nodeOf_kept (tag : List Char) (v : Value) : Kept swaps [v] [nodeOf tag v] :=
  .wrap (v := nodeOf tag v) rfl []

theorem unwrap?_kept {v w : Value} (h : v.unwrap? = some w) : Kept swaps [v] [w] := by
  cases v with
  | absent => cases h
  | present v =>
    cases h
    exact .unwrap (present w) []
  | _ =>
    cases h
    exact .refl _

theorem signed?_kept {bits : Nat} {v w : Value} (h : v.signed? bits = some w) :
    Kept swaps [v] [w] := by
  obtain ⟨i, -, rfl⟩ := Option.map_eq_some_iff.1 h
  exact .literal _ rfl rfl

theorem unsigned?_kept {bits : Nat} {v w : Value} (h : v.unsigned? bits = some w) :
    Kept swaps [v] [w] := by
  obtain ⟨i, -, rfl⟩ := Option.map_eq_some_iff.1 h
  exact .literal _ rfl rfl

/-- What can be made of some values that were read in the range `r?`: a value may store that range
if it holds the others. -/
inductive Stored (swaps : Bool) (r? : Option Range) (us : List Value) : List Value → Prop
  | refl : Stored swaps r? us us
  | keep {vs ws : List Value} (h : Stored swaps r? us vs) (k : Kept swaps vs ws) :
      Stored swaps r? us ws
  | enclose {v : Value} (h : Stored swaps r? us v.parts) (hr : v.range? = r?) :
      Stored swaps r? us [v]

section

variable {v w : Value} (r? : Option Range) (o : Value)

theorem located_stored (v : Value) (r : Range) : Stored swaps (some r) [v] [located r v] :=
  .enclose .refl rfl

theorem Unary.tree_stored (h : Kept swaps us [v]) : Stored swaps r? us [Unary.tree o v r?] :=
  .enclose (.keep .refl h) rfl

theorem Unary.bracketed_stored : Stored swaps r? us [Unary.bracketed o v r?] :=
  .keep .refl (.literal _ rfl rfl)

theorem Unary.negate_stored (h : Kept swaps us [v]) :
    Stored swaps r? us [Unary.negate o v r?] := by
  cases v with
  | int i =>
    simp only [Unary.negate]
    split
    · exact .keep .refl (.literal _ rfl rfl)
    · exact Unary.tree_stored r? o h
  | _ => exact Unary.tree_stored r? o h

theorem Binary.tree_stored (h : Kept swaps us [v, w]) :
    Stored swaps r? us [Binary.tree o v w r?] := .enclose (.keep .refl h) rfl

theorem Binary.bracketed_stored : Stored swaps r? us [Binary.bracketed o v w r?] :=
  .keep .refl (.literal _ rfl rfl)

theorem Binary.subtract_stored (h : Kept swaps us [v, w]) :
    Stored swaps r? us [Binary.subtract o v w r?] := by
  cases v with
  | int i =>
    cases w with
    | int j => exact .keep .refl (.literal _ rfl rfl)
    | _ => exact Binary.tree_stored r? o h
  | _ => exact Binary.tree_stored r? o h

end

/-- The values store ranges that end before `l`. -/
structure Behind (swaps : Bool) (l : Location) (us : List Value) : Prop where
  nested : NestedAll (Range.Apart swaps) us
  ends : ∀ r ∈ rangesAll us, r.start ≤ r.stop ∧ r.stop ≤ l

/-- The values `vs` have been read in `s`, or have been taken over from `us`. -/
structure Fits (swaps : Bool) (us : List Value) (s : Range) (vs : List Value) : Prop where
  nested : NestedAll (Range.Apart swaps) vs
  inside : ∀ r ∈ rangesAll vs, r ∈ rangesAll us ∨ r.Inside s

variable {l m o : Location} {s : Range}

theorem Behind.of_append (h : Behind swaps l (us ++ vs)) : Behind swaps l vs :=
  ⟨(nestedAll_append.1 h.nested).2.1, fun r hr => h.ends r (by simp [hr])⟩

theorem behind_nil (l : Location) : Behind swaps l [] := ⟨trivial, nofun⟩

theorem Behind.fits (h : Behind swaps l us) : Fits swaps us s us := ⟨h.nested, fun _ hr => .inl hr⟩

theorem fits_nil : Fits swaps us s [] := ⟨trivial, nofun⟩

namespace Fits

theorem kept (h : Fits swaps us s vs) (k : Kept swaps vs ws) : Fits swaps us s ws where
  nested := k.nested (by rintro rfl _ _ h; exact h.symm) h.nested
  inside r hr := h.inside r (k.ranges_subset r hr)

theorem widen (h : Fits swaps us ⟨m, o⟩ vs) {l p : Location} (hl : l ≤ m) (hp : o ≤ p) :
    Fits swaps us ⟨l, p⟩ vs where
  nested := h.nested
  inside r hr := (h.inside r hr).imp_right fun h => h.widen hl hp

theorem forget (h : Fits swaps [] s vs) (us : List Value) : Fits swaps us s vs :=
  ⟨h.nested, fun r hr => .inr ((h.inside r hr).resolve_left nofun)⟩

theorem trans (h : Fits swaps us s vs) (k : Fits swaps vs s ws) : Fits swaps us s ws where
  nested := k.nested
  inside r hr := (k.inside r hr).elim (h.inside r) .inr

/-- Values that store the range in which they have been read fit in it. -/
theorem stored (h : Fits swaps us s vs) (hs : s.start ≤ s.stop) {r? : Option Range}
    (hr : ∀ r ∈ r?, r = s ∧ us = []) (k : Stored swaps r? vs ws) : Fits swaps us s ws := by
  induction k with
  | refl => exact h
  | keep _ k ih => exact ih.kept k
  | @enclose v _ hv parts =>
    refine ⟨⟨nested_iff.2 ⟨parts.nested, ?_⟩, trivial, nofun⟩, ?_⟩
    · rw [hv]
      intro r hm q hq
      obtain ⟨rfl, rfl⟩ := hr r hm
      exact (parts.inside q hq).resolve_left nofun
    · simp only [rangesAll, List.append_nil, ranges_eq, hv, List.mem_append, Option.mem_toList]
      rintro q (hq | hq)
      · obtain ⟨rfl, -⟩ := hr q hq
        exact .inr (Range.inside_self hs)
      · exact parts.inside q hq

/-- What stands behind may be put before what is read. -/
theorem behind (h : Fits swaps vs s ws) (hu : Behind swaps s.start (us ++ vs)) :
    Fits swaps (us ++ vs) s (us ++ ws) := by
  obtain ⟨hus, -, apart⟩ := nestedAll_append.1 hu.nested
  refine ⟨nestedAll_append.2 ⟨hus, h.nested, fun q hq r hr => ?_⟩, fun r hr => ?_⟩
  · obtain hv | hs := h.inside r hr
    · exact apart q hq r hv
    · have before := (hu.ends q (by simp [hq])).2
      exact .inl (Location.le_trans before hs.start_le)
  · rw [rangesAll_append, List.mem_append] at hr ⊢
    obtain hr | hr := hr
    · exact .inl (.inl hr)
    · exact (h.inside r hr).imp_left .inr

theorem append (h : Fits swaps us ⟨l, m⟩ vs) (k : Fits swaps [] ⟨m, o⟩ ws)
    (hu : Behind swaps l us) (hl : l ≤ m) (ho : m ≤ o) : Fits swaps us ⟨l, o⟩ (vs ++ ws) := by
  refine ⟨nestedAll_append.2 ⟨h.nested, k.nested, fun q hq r hr => ?_⟩, fun r hr => ?_⟩
  · have after := ((k.inside r hr).resolve_left nofun).start_le
    obtain hq | hq := h.inside q hq
    · exact .inl (Location.le_trans (Location.le_trans (hu.ends q hq).2 hl) after)
    · exact .inl (Location.le_trans hq.stop_le after)
  · rw [rangesAll_append, List.mem_append] at hr
    obtain hr | hr := hr
    · exact (h.inside r hr).imp_right fun h => h.widen (Location.le_self l) ho
    · exact .inr (((k.inside r hr).resolve_left nofun).widen hl (Location.le_self o))

theorem ends (h : Fits swaps us ⟨l, m⟩ vs) (hu : Behind swaps l us) (hl : l ≤ m) :
    Behind swaps m vs where
  nested := h.nested
  ends r hr := by
    obtain hr | hr := h.inside r hr
    · exact ⟨(hu.ends r hr).1, Location.le_trans (hu.ends r hr).2 hl⟩
    · exact ⟨hr.start_le_stop, hr.stop_le⟩

end Fits

end Value

end TextParsing
