import TextParsing.Grammar.Forms
import TextParsing.Proofs.Likeness

/-!
The same text at another place. A grammar whose functions treat locations as places, which they may
keep or take the distance of, cannot tell a text that stands behind another one from that text
alone: the runs are alike, and every location of the one is that of the other, shifted to where the
text begins.
-/

namespace TextParsing

namespace Location

/-- Where the location `l` of a text is when that text begins at `b`. What is after a line feed
keeps its column. -/
def shift (l b : Location) : Location where
  line := l.line + (b.line - 1)
  column := if l.line = 1 then l.column + (b.column - 1) else l.column
  index := l.index + b.index

/-- Lines and columns count from one. -/
structure Proper (l : Location) : Prop where
  line : 1 ≤ l.line
  column : 1 ≤ l.column

variable {b l : Location}

theorem proper_start : start.Proper := ⟨Nat.le_refl 1, Nat.le_refl 1⟩

theorem Proper.past (h : l.Proper) (c : Char) : (l.past c).Proper := by
  unfold Location.past
  split
  · exact ⟨Nat.le_add_left 1 l.line, Nat.le_refl 1⟩
  · exact ⟨h.line, Nat.le_add_left 1 l.column⟩

theorem Proper.scan (h : l.Proper) (cs : List Char) : (l.scan cs).Proper := by
  induction cs generalizing l with
  | nil => exact h
  | cons c cs ih => exact ih (h.past c)

theorem start_shift (h : b.Proper) : start.shift b = b := by
  have hl := h.line
  have hc := h.column
  cases b
  simp [start, shift] at hl hc ⊢
  omega

theorem past_shift (h : l.Proper) (c : Char) : (l.shift b).past c = (l.past c).shift b := by
  have hl := h.line
  unfold past
  split
  · simp [shift]
    omega
  · by_cases first : l.line = 1
    · simp [shift, first]
      omega
    · simp [shift, first]
      omega

theorem scan_shift (h : l.Proper) (cs : List Char) : (l.shift b).scan cs = (l.scan cs).shift b := by
  induction cs generalizing l with
  | nil => rfl
  | cons c cs ih => rw [scan_cons, past_shift h, ih (h.past c), scan_cons]

end Location

namespace Range

def shift (r : Range) (b : Location) : Range := ⟨r.start.shift b, r.stop.shift b⟩

variable (b : Location) (r : Range)

@[simp] theorem length_shift : (r.shift b).length = r.length := Nat.add_sub_add_right ..

@[simp] theorem isEmpty_shift : (r.shift b).isEmpty = r.isEmpty := by
  simp [isEmpty, shift, Location.shift, Bool.beq_eq_decide_eq]

end Range

namespace Value

mutual

/-- The value with every location in it shifted. -/
@[simp] def shift (b : Location) : Value → Value
  | unit => unit
  | bool c => bool c
  | int i => int i
  | char c => char c
  | text cs => text cs
  | list vs => list (shiftAll b vs)
  | pair v w => pair (v.shift b) (w.shift b)
  | absent => absent
  | present v => present (v.shift b)
  | node tag args range => node tag (shiftAll b args) (range.map fun r => r.shift b)
  | located range v => located (range.shift b) (v.shift b)

@[simp] def shiftAll (b : Location) : List Value → List Value
  | [] => []
  | v :: vs => v.shift b :: shiftAll b vs

end

theorem shiftAll_eq_map (b : Location) (vs : List Value) : shiftAll b vs = vs.map (shift b) := by
  induction vs with
  | nil => rfl
  | cons v vs ih => rw [shiftAll, ih, List.map_cons]

variable (b : Location)

mutual

/-- What the text of a value is does not depend on the locations in it. -/
@[simp] theorem flat_shift : (v : Value) → (v.shift b).flat = v.flat
  | unit | bool _ | int _ | char _ | text _ | absent => rfl
  | list vs => flatList_shiftAll vs
  | pair v w => by rw [shift, flat, flat_shift v, flat_shift w, flat]
  | present v => flat_shift v
  | node tag args _ => by rw [shift, flat, flatArgs_shiftAll args, flat]
  | located _ v => flat_shift v

theorem flatList_shiftAll : (vs : List Value) → flatList (shiftAll b vs) = flatList vs
  | [] => rfl
  | v :: vs => by rw [shiftAll, flatList, flat_shift v, flatList_shiftAll vs, flatList]

theorem flatArgs_shiftAll : (vs : List Value) → flatArgs (shiftAll b vs) = flatArgs vs
  | [] => rfl
  | [v] => flat_shift v
  | v :: w :: vs => by
    have ih := flatArgs_shiftAll (w :: vs)
    rw [shiftAll] at ih
    simp only [shiftAll, flatArgs, flat_shift v, ih]

end

@[simp] theorem length_shift (v : Value) : (v.shift b).length = v.length := by
  cases v with
  | list vs => rw [shift, shiftAll_eq_map, length, length, List.length_map]
  | _ => exact congrArg List.length (flat_shift b _)

/-! What a grammar does with values, it does with shifted values too. -/

section

variable (o v w : Value)

@[simp] theorem toText_shift : (v.shift b).toText = v.toText.shift b := by simp [toText]

@[simp] theorem toLength_shift : (v.shift b).toLength = v.toLength.shift b := by simp [toLength]

@[simp] theorem succ_shift : (v.shift b).succ = v.succ.shift b := by cases v <;> rfl

@[simp] theorem reverse_shift : (v.shift b).reverse = v.reverse.shift b := by
  cases v with
  | list vs => simp [reverse, shiftAll_eq_map]
  | _ => rfl

@[simp] theorem nodeOf_shift (tag : List Char) :
    nodeOf tag (v.shift b) = (nodeOf tag v).shift b := rfl

@[simp] theorem unwrap?_shift : (v.shift b).unwrap? = v.unwrap?.map fun w => w.shift b := by
  cases v <;> rfl

@[simp] theorem signed?_shift (bits : Nat) :
    (v.shift b).signed? bits = (v.signed? bits).map fun w => w.shift b := by
  simp [signed?, Function.comp_def]

@[simp] theorem unsigned?_shift (bits : Nat) :
    (v.shift b).unsigned? bits = (v.unsigned? bits).map fun w => w.shift b := by
  simp [unsigned?, Function.comp_def]

variable (r : Option Range)

@[simp] theorem Unary.tree_shift :
    Unary.tree (o.shift b) (v.shift b) (r.map fun r => r.shift b) = (Unary.tree o v r).shift b := by
  simp [Unary.tree]

@[simp] theorem Unary.negate_shift :
    Unary.negate (o.shift b) (v.shift b) (r.map fun r => r.shift b) =
      (Unary.negate o v r).shift b := by
  cases v with
  | int i =>
    simp only [shift, Unary.negate, flat_shift]
    split
    · rfl
    · exact Unary.tree_shift b o (int i) r
  | _ => exact Unary.tree_shift b o _ r

@[simp] theorem Binary.tree_shift :
    Binary.tree (o.shift b) (v.shift b) (w.shift b) (r.map fun r => r.shift b) =
      (Binary.tree o v w r).shift b := by
  simp [Binary.tree]

@[simp] theorem Binary.subtract_shift :
    Binary.subtract (o.shift b) (v.shift b) (w.shift b) (r.map fun r => r.shift b) =
      (Binary.subtract o v w r).shift b := by
  cases v with
  | int i => cases w <;> simp [Binary.subtract, Binary.tree]
  | _ => exact Binary.tree_shift b o _ w r

end

theorem list_shift {vs ws : List Value} (h : List.Forall₂ (fun v w => v = shift b w) vs ws) :
    list vs = (list ws).shift b := by
  rw [shift, shiftAll_eq_map]
  congr 1
  induction h with
  | nil => rfl
  | cons h _ ih => rw [h, ih, List.map_cons]

end Value

section

variable (b : Location)

/-- The cursors `c`, in a text that stands `k` bytes after another, and `c'`, in that text alone,
are at the same place. -/
structure Cursor.Shifted (k : Nat) (c c' : Cursor) : Prop where
  rest : c'.rest = c.rest
  offset : c.offset = k + c'.offset
  location : c.location = c'.location.shift b
  proper : c'.location.Proper

/-- The same failure, but for the places. -/
structure Failure.Same (f f' : Failure) : Prop where
  expected : f'.expected = f.expected
  tagged : f'.tagged = f.tagged
  committed : f'.committed = f.committed

variable {b} {k : Nat} {c c' d d' : Cursor} {cs : List Char} {f f' : Failure}

theorem Cursor.Shifted.reads (h : c.Shifted b k c') (hd : c.Reads cs d) (hd' : c'.Reads cs d') :
    d.Shifted b k d' where
  rest := by
    have rest := h.rest
    rw [hd.rest, hd'.rest] at rest
    exact List.append_cancel_left rest
  offset := by rw [hd.offset, hd'.offset, h.offset, Nat.add_assoc]
  location := by rw [hd.location, hd'.location, h.location, Location.scan_shift h.proper]
  proper := hd'.location ▸ h.proper.scan cs

theorem Failure.Same.tag (h : f.Same f') (d : String) : (f.tag d).Same (f'.tag d) where
  expected := by rw [tag_expected, tag_expected, h.tagged, h.expected]
  tagged := by rw [tag_tagged, tag_tagged]
  committed := by rw [tag_committed, tag_committed, h.committed]

/-- A text that begins at `b`, after `k` bytes, is like the same text from the start. -/
def shifted (b : Location) (k : Nat) : Likeness Location Location where
  Logs ls ls' := ls = ls'.map fun l => l.shift b
  Places := Cursor.Shifted b k
  Locations l l' := l = l'.shift b
  Failures f f' := f.cursor.Shifted b k f'.cursor ∧ f.Same f'
  logs_nil := List.map_nil.symm
  logs_append hx hy := by rw [hx, hy, List.map_append]
  location h := h.location
  rest h := h.rest
  offset h hd := by
    rw [h.offset, hd.offset]
    omega
  reads h hd hd' := h.reads hd hd'
  committed h := h.2.committed
  failure _ _ _ h := ⟨h, ⟨rfl, rfl, rfl⟩⟩
  commit h := ⟨h.1, ⟨h.2.expected, h.2.tagged, rfl⟩⟩
  tag d h := ⟨by rw [Failure.tag_cursor, Failure.tag_cursor]; exact h.1, h.2.tag d⟩

theorem range_shifted {r r' : Range} (h : r.Alike (shifted b k) r') : r = r'.shift b := by
  obtain ⟨start, stop⟩ := r
  obtain ⟨hs, ht⟩ := h
  rw [Range.shift, ← hs, ← ht]

end

namespace Grammar

variable {n : Nat}

/-- The grammar `a` does with values and ranges that are shifted to `b` what `a'` does with them
before they are shifted. The text that is left may be looked at, and all of it but where it is. -/
inductive Shifts (b : Location) : {k : Nat} → Grammar n k → Grammar n k → Prop
  | succeed {k : Nat} (v : Value) : Shifts b (succeed (k := k) (v.shift b)) (succeed v)
  | failHere {k : Nat} {f f' : Cursor → Failure}
      (h : ∀ c c', c'.rest = c.rest → (f c).Same (f' c')) :
      Shifts b (failHere (k := k) f) (failHere f')
  | char {k : Nat} (s : CharClass) : Shifts b (char (k := k) s) (char s)
  | peek {k : Nat} (s : CharClass) : Shifts b (peek (k := k) s) (peek s)
  | token {k : Nat} (cs : List Char) : Shifts b (token (k := k) cs) (token cs)
  | pattern {k : Nat} (p : Pattern) : Shifts b (pattern (k := k) p) (pattern p)
  | endOfText {k : Nat} : Shifts b (endOfText (k := k)) endOfText
  | mapWithRange {k : Nat} {g g' : Value → Range → Value} {a a' : Grammar n k}
      (hg : ∀ v r, g (v.shift b) (r.shift b) = (g' v r).shift b) (ha : Shifts b a a') :
      Shifts b (mapWithRange g a) (mapWithRange g' a')
  | filterMap {k : Nat} {g g' : Value → Option Value} (d : Option String) {a a' : Grammar n k}
      (hg : ∀ v, g (v.shift b) = (g' v).map fun w => w.shift b) (ha : Shifts b a a') :
      Shifts b (filterMap g d a) (filterMap g' d a')
  | bindWithRange {k : Nat} {a a' : Grammar n k} {next next' : Value → Range → Grammar n k}
      (ha : Shifts b a a') (hn : ∀ v r, Shifts b (next (v.shift b) (r.shift b)) (next' v r)) :
      Shifts b (bindWithRange a next) (bindWithRange a' next')
  | andThen {k : Nat} {g g' : Value → Value → Range → Value} {a a' e e' : Grammar n k}
      (hg : ∀ v w r, g (v.shift b) (w.shift b) (r.shift b) = (g' v w r).shift b)
      (ha : Shifts b a a') (he : Shifts b e e') : Shifts b (andThen g a e) (andThen g' a' e')
  | orElse {k : Nat} {a a' e e' : Grammar n k} (ha : Shifts b a a') (he : Shifts b e e') :
      Shifts b (orElse a e) (orElse a' e')
  | commit {k : Nat} {a a' : Grammar n k} (ha : Shifts b a a') : Shifts b (commit a) (commit a')
  | tag {k : Nat} (d : String) {a a' : Grammar n k} (ha : Shifts b a a') :
      Shifts b (tag d a) (tag d a')
  | lexeme {k : Nat} {a a' : Grammar n k} (ha : Shifts b a a') : Shifts b (lexeme a) (lexeme a')
  | withDefault {k : Nat} (v : Value) {a a' : Grammar n k} (ha : Shifts b a a') :
      Shifts b (withDefault (v.shift b) a) (withDefault v a')
  | many {k : Nat} {a a' : Grammar n k} (ha : Shifts b a a') : Shifts b (many a) (many a')
  | many1 {k : Nat} {a a' : Grammar n k} (ha : Shifts b a a') : Shifts b (many1 a) (many1 a')
  | times {k : Nat} (m : Nat) {a a' : Grammar n k} (ha : Shifts b a a') :
      Shifts b (times m a) (times m a')
  | sepBy1 {k : Nat} {a a' s s' : Grammar n k} (ha : Shifts b a a') (hs : Shifts b s s') :
      Shifts b (sepBy1 a s) (sepBy1 a' s')
  | sepBy {k : Nat} {a a' s s' : Grammar n k} (ha : Shifts b a a') (hs : Shifts b s s') :
      Shifts b (sepBy a s) (sepBy a' s')
  | chainLeft {k : Nat} {g g' : Value → Value → Value → Range → Value} {a a' o o' : Grammar n k}
      (hg : ∀ u v w r, g (u.shift b) (v.shift b) (w.shift b) (r.shift b) = (g' u v w r).shift b)
      (ha : Shifts b a a') (ho : Shifts b o o') : Shifts b (chainLeft g a o) (chainLeft g' a' o')
  | chainRight {k : Nat} {g g' : Value → Value → Value → Range → Value} {a a' o o' : Grammar n k}
      (hg : ∀ u v w r, g (u.shift b) (v.shift b) (w.shift b) (r.shift b) = (g' u v w r).shift b)
      (ha : Shifts b a a') (ho : Shifts b o o') : Shifts b (chainRight g a o) (chainRight g' a' o')
  | chainSuffix {k : Nat} {g g' : Value → Value → Range → Value} {a a' s s' : Grammar n k}
      (hg : ∀ u v r, g (u.shift b) (v.shift b) (r.shift b) = (g' u v r).shift b)
      (ha : Shifts b a a') (hs : Shifts b s s') :
      Shifts b (chainSuffix g a s) (chainSuffix g' a' s')
  | recursive {k : Nat} {a a' : Grammar n (k + 1)} (ha : Shifts b a a') :
      Shifts b (recursive a) (recursive a')
  | ref {k : Nat} (i : Fin k) : Shifts b (ref i) (ref i)
  | dangling {k : Nat} : Shifts b (dangling (k := k)) dangling
  | rule {k : Nat} (i : Fin n) : Shifts b (rule (k := k) i) (rule i)

/-- What is done with values and ranges does not depend on where the text begins: a grammar may
store ranges and count by their lengths, but not show them. -/
def Uniform {k : Nat} (a : Grammar n k) : Prop := ∀ b, a.Shifts b a

variable {b : Location} {offset depth k : Nat}

theorem Shifts.alike {a a' : Grammar n k} (ha : a.Shifts b a')
    {rules rules' : Fin n → Parser Location Value}
    (hr : ∀ i, (rules i).Alike (shifted b offset) (fun v w => v = w.shift b) (rules' i))
    {h h' : Fin k → Parser Location Value}
    (hh : ∀ i, (h i).Alike (shifted b offset) (fun v w => v = w.shift b) (h' i)) :
    (a.toParser .commits depth rules h).Alike (shifted b offset) (fun v w => v = w.shift b)
      (a'.toParser .commits depth rules' h') := by
  induction ha with
  | succeed v => exact Parser.succeed_alike rfl
  | failHere hf =>
    refine Parser.failWith_alike fun c c' hc => ⟨hc, ?_⟩
    have same := hf c c' hc.rest
    exact ⟨same.expected, same.tagged, same.committed⟩
  | dangling => exact Parser.failWith_alike fun c c' hc => ⟨hc, rfl, rfl, rfl⟩
  | char s => exact (Parser.char_alike s).map fun _ _ => congrArg Value.char
  | peek s => exact (Parser.peek_alike s).map fun _ _ => congrArg Value.bool
  | token cs => exact (Parser.token_alike cs).map fun _ _ => congrArg Value.text
  | pattern p => exact (Parser.pattern_alike p).map fun _ _ => congrArg Value.text
  | endOfText => exact Parser.endOfText_alike.map fun _ _ _ => rfl
  | mapWithRange hg _ ih =>
    refine (ih hh).mapWithRange ?_
    rintro _ v r r' rfl hr'
    rw [range_shifted hr', hg]
  | @filterMap k g g' d _ _ hg _ ih =>
    refine (ih hh).filterMap ?_
    rintro _ v rfl
    rw [hg]
    cases g' v with
    | none => exact .none
    | some w => exact .some rfl
  | bindWithRange _ _ iha ihn =>
    refine (iha hh).bindWithRange ?_
    rintro _ v r r' rfl hr'
    rw [range_shifted hr']
    exact ihn v r' hh
  | andThen hg _ _ iha ihb =>
    refine (iha hh).andThen (ihb hh) ?_
    rintro _ v _ w r r' rfl rfl hr'
    rw [range_shifted hr', hg]
  | orElse _ _ iha ihb => exact (iha hh).orElse (ihb hh)
  | commit _ ih =>
    refine (ih hh).commit fun f f' hf => ?_
    exact congrArg (fun l => [l]) hf.1.location
  | tag d _ ih => exact (ih hh).tag
  | lexeme _ ih => exact (ih hh).lexeme.map fun _ _ => congrArg Value.text
  | withDefault v _ ih => exact (ih hh).withDefault rfl
  | many _ ih => exact (ih hh).many.map fun _ _ => Value.list_shift b
  | many1 _ ih => exact (ih hh).many1.map fun _ _ => Value.list_shift b
  | times m _ ih => exact (ih hh).times.map fun _ _ => Value.list_shift b
  | sepBy1 _ _ iha ihs => exact ((iha hh).sepBy1 (ihs hh)).map fun _ _ => Value.list_shift b
  | sepBy _ _ iha ihs => exact ((iha hh).sepBy (ihs hh)).map fun _ _ => Value.list_shift b
  | chainLeft hg _ _ iha iho =>
    refine .chainLeft ?_ (iha hh) (iho hh)
    rintro _ u _ v _ w r r' rfl rfl rfl hr'
    rw [range_shifted hr', hg]
  | chainRight hg _ _ iha iho =>
    refine .chainRight ?_ (iha hh) (iho hh)
    rintro _ u _ v _ w r r' rfl rfl rfl hr'
    rw [range_shifted hr', hg]
  | chainSuffix hg _ _ iha ihs =>
    refine (iha hh).chainSuffix (ihs hh) ?_
    rintro _ u _ v r r' rfl rfl hr'
    rw [range_shifted hr', hg]
  | recursive _ ih =>
    refine Parser.unroll_alike (fun p p' hp => ?_) depth
    exact ih (Fin.cases hp hh)
  | ref i => exact hh i
  | rule i => exact hr i

theorem runRule_shifted (rules : Rules n) (hr : ∀ i, (rules i).Uniform) (m : Nat) (i : Fin n) :
    (Parser.mk (runRule .commits rules depth m i)).Alike (shifted b offset)
      (fun v w => v = w.shift b) (Parser.mk (runRule .commits rules depth m i)) := by
  induction m generalizing i with
  | zero => exact fun _ _ _ => Reply.unfinished_alike
  | succ m ih => exact (hr i b).alike ih nofun

theorem parserAt_shifted (rules : Rules n) (hr : ∀ i, (rules i).Uniform) (depth : Nat)
    (a : Grammar n 0) (ha : a.Uniform) :
    (a.parserAt rules depth).Alike (shifted b offset) (fun v w => v = w.shift b)
      (a.parserAt rules depth) := (ha b).alike (runRule_shifted rules hr depth) nofun

end Grammar

theorem Cursor.On.shifted {text : List Char} {c : Cursor} (h : c.On text) :
    c.Shifted c.location c.offset (.ofText c.rest) := by
  obtain ⟨cs, hcs, -⟩ := h.reads
  have proper : c.location.Proper := hcs.location ▸ Location.proper_start.scan cs
  exact ⟨rfl, rfl, (Location.start_shift proper).symm, Location.proper_start⟩

/-- The parse `t` is the parse `t'` of a text that begins at `b`. -/
structure Parse.Moved (b : Location) (t t' : Parse Value) : Prop where
  target : t.target = t'.target.shift b
  range : t.range = t'.range.shift b
  rest : t.rest.rest = t'.rest.rest
  location : t.rest.location = t'.rest.location.shift b

/-- The failure `f` is the failure `f'` of a text that begins at `b`. -/
structure Failure.Moved (b : Location) (f f' : Failure) : Prop where
  expected : f.expected = f'.expected
  tagged : f.tagged = f'.tagged
  committed : f.committed = f'.committed
  rest : f.cursor.rest = f'.cursor.rest
  location : f.location = f'.location.shift b

namespace Grammar

variable {n : Nat}

theorem parserAt_moved (rules : Rules n) (hr : ∀ i, (rules i).Uniform) (depth : Nat)
    (a : Grammar n 0) (ha : a.Uniform) {text : List Char} {c : Cursor} (hc : c.On text) :
    ((a.parserAt rules depth).run c).outcome.Alike (Parse.Moved c.location)
      (Failure.Moved c.location) ((a.parserAt rules depth).run (.ofText c.rest)).outcome := by
  have alike := parserAt_shifted rules hr depth a ha c (.ofText c.rest) hc.shifted
  refine alike.outcome.mono (fun t t' ht => ?_) fun f f' hf => ?_
  · exact ⟨ht.target, range_shifted ht.range, ht.rest.rest.symm, ht.rest.location⟩
  · obtain ⟨hc, same⟩ := hf
    exact ⟨same.expected.symm, same.tagged.symm, same.committed.symm, hc.rest.symm, hc.location⟩

/-- Running a grammar behind the first `k` characters of a text is running it on the text that is
left there, with all locations shifted. -/
theorem run_of_suffix (rules : Rules n) (hr : ∀ i, (rules i).Uniform) (a : Grammar n 0)
    (ha : a.Uniform) (text : List Char) (k : Nat) :
    let c := (Cursor.ofText text).drop k
    (∀ depth, ((a.parserAt rules depth).run c).outcome.Alike (Parse.Moved c.location)
      (Failure.Moved c.location) ((a.parserAt rules depth).run (.ofText c.rest)).outcome) ∧
    ((a.parser rules).run c).outcome.Alike (Parse.Moved c.location)
      (Failure.Moved c.location) ((a.parser rules).run (.ofText c.rest)).outcome := by
  intro c
  have hc : c.On text := ⟨k, rfl⟩
  exact ⟨fun depth => parserAt_moved rules hr depth a ha hc,
    parserAt_moved rules hr (sufficientDepth n c) a ha hc⟩

/-- Words on two lines, behind a mark. On the first line the columns are shifted too. -/
theorem run_of_suffix_of_lines :
    let rules : Rules 1 := fun _ => (char (.noneOf ['\n'])).many1.lexeme.mapWithRange fun v r =>
      .located r v
    let a : Grammar 1 0 := leftAssociativeWithRange .tree (rule 0) (char (.single '\n'))
    let text := ['#', 'a', '\n', 'b', 'c']
    let c := (Cursor.ofText text).drop 1
    (∀ i, (rules i).Uniform) ∧ a.Uniform ∧
      (∃ t, ((a.parser rules).run c).outcome = .success t ∧ t.target = .node ['\n']
        [.located ⟨⟨1, 2, 1⟩, ⟨1, 3, 2⟩⟩ (.text ['a']),
          .located ⟨⟨2, 1, 3⟩, ⟨2, 3, 5⟩⟩ (.text ['b', 'c'])] (some ⟨⟨1, 2, 1⟩, ⟨2, 3, 5⟩⟩)) ∧
      (∀ depth, ((a.parserAt rules depth).run c).outcome.Alike (Parse.Moved c.location)
        (Failure.Moved c.location) ((a.parserAt rules depth).run (.ofText c.rest)).outcome) ∧
      ((a.parser rules).run c).outcome.Alike (Parse.Moved c.location)
        (Failure.Moved c.location) ((a.parser rules).run (.ofText c.rest)).outcome := by
  intro rules a text c
  have hr : ∀ i, (rules i).Uniform := fun _ b =>
    .mapWithRange (fun _ _ => rfl) (.lexeme (.many1 (.char _)))
  have ha : a.Uniform := fun b =>
    .chainLeft (fun o v w r => Value.Binary.tree_shift b o v w (some r)) (.rule 0) (.char _)
  exact ⟨hr, ha, ⟨_, rfl, rfl⟩, run_of_suffix rules hr a ha text 1⟩

end Grammar

end TextParsing
