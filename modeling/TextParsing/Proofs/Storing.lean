import TextParsing.Grammar.Forms
import TextParsing.Proofs.Making
import TextParsing.Proofs.Nesting

/-!
Grammars that store ranges. If the ranges that are stored are those that the parsers give, beside or
around what was read in them, and if all else is done by keeping, wrapping and dropping parts of
values, then the ranges in a target are nested as the parsers were, lie in the range of the parse,
and stand apart and in the order of the text where no value is in the other.
-/

namespace TextParsing

open Value

/-- The range of a parse, if it is the range of all that the target holds: what was taken over from
before is not in it. -/
def Range.whole? (r : Range) (captured : List Value) : Option Range :=
  if captured.isEmpty then some r else none

/-- The value `v` is made of values that were captured before, and behind them of `parts`, which may
be enclosed in a value that stores `r?`. -/
def Value.MadeOf (swaps : Bool) (captured : List Value) (r? : Option Range) (parts : List Value)
    (v : Value) : Prop :=
  ∃ ws, Stored swaps r? parts ws ∧ Kept swaps (captured ++ ws) [v]

theorem Value.Stored.madeOf {swaps : Bool} {r? : Option Range} {parts : List Value} {v : Value}
    (h : Stored swaps r? parts [v]) : v.MadeOf swaps [] r? parts := ⟨[v], h, .refl [v]⟩

namespace Grammar

variable {n : Nat}

/-- The grammars that store ranges as their parsers give them and else keep, wrap and drop values,
or also reorder them if `swaps`. What the grammar comes after may have captured values, which it
uses once, before what it reads. -/
inductive Storing (swaps : Bool) : {k : Nat} → List Value → Grammar n k → Prop
  | forget {k : Nat} {a : Grammar n k} (us : List Value) (ha : Storing swaps [] a) :
      Storing swaps us a
  | succeed {k : Nat} {us : List Value} {v : Value} (hv : Kept swaps us [v]) :
      Storing swaps us (succeed (k := k) v)
  | failHere {k : Nat} (f : Cursor → Failure) : Storing swaps [] (failHere (k := k) f)
  | char {k : Nat} (s : CharClass) : Storing swaps [] (char (k := k) s)
  | peek {k : Nat} (s : CharClass) : Storing swaps [] (peek (k := k) s)
  | token {k : Nat} (cs : List Char) : Storing swaps [] (token (k := k) cs)
  | pattern {k : Nat} (p : Pattern) : Storing swaps [] (pattern (k := k) p)
  | endOfText {k : Nat} : Storing swaps [] (endOfText (k := k))
  | mapWithRange {k : Nat} (us vs : List Value) {g : Value → Range → Value} {a : Grammar n k}
      (hg : ∀ v r, (g v r).MadeOf swaps us (r.whole? vs) [v]) (ha : Storing swaps vs a) :
      Storing swaps (us ++ vs) (mapWithRange g a)
  | filterMap {k : Nat} (us vs : List Value) {g : Value → Option Value} (d : Option String)
      {a : Grammar n k} (hg : ∀ v w, g v = some w → Kept swaps (us ++ [v]) [w])
      (ha : Storing swaps vs a) : Storing swaps (us ++ vs) (filterMap g d a)
  /-- The grammar that is chosen may use the target of the first, and what the first has not. -/
  | bindWithRange {k : Nat} (us vs : List Value) {a : Grammar n k}
      {next : Value → Range → Grammar n k} (ha : Storing swaps vs a)
      (hn : ∀ v r, Storing swaps (us ++ [v]) (next v r)) :
      Storing swaps (us ++ vs) (bindWithRange a next)
  | andThen {k : Nat} (us vs : List Value) {g : Value → Value → Range → Value}
      {a b : Grammar n k} (hg : ∀ v w r, (g v w r).MadeOf swaps us (r.whole? vs) [v, w])
      (ha : Storing swaps vs a) (hb : Storing swaps [] b) :
      Storing swaps (us ++ vs) (andThen g a b)
  | orElse {k : Nat} {us : List Value} {a b : Grammar n k} (ha : Storing swaps us a)
      (hb : Storing swaps us b) : Storing swaps us (orElse a b)
  | commit {k : Nat} {us : List Value} {a : Grammar n k} (ha : Storing swaps us a) :
      Storing swaps us (commit a)
  | tag {k : Nat} {us : List Value} (d : String) {a : Grammar n k} (ha : Storing swaps us a) :
      Storing swaps us (tag d a)
  /-- A lexeme stores no range, whatever is made of it inside. -/
  | lexeme {k : Nat} (a : Grammar n k) : Storing swaps [] (lexeme a)
  | withDefault {k : Nat} {us : List Value} {v : Value} {a : Grammar n k}
      (hv : Kept swaps us [v]) (ha : Storing swaps us a) : Storing swaps us (withDefault v a)
  | many {k : Nat} {a : Grammar n k} (ha : Storing swaps [] a) : Storing swaps [] (many a)
  | many1 {k : Nat} {a : Grammar n k} (ha : Storing swaps [] a) : Storing swaps [] (many1 a)
  | times {k : Nat} (m : Nat) {a : Grammar n k} (ha : Storing swaps [] a) :
      Storing swaps [] (times m a)
  | sepBy1 {k : Nat} {a : Grammar n k} (ha : Storing swaps [] a) (s : Grammar n k) :
      Storing swaps [] (sepBy1 a s)
  | sepBy {k : Nat} {a : Grammar n k} (ha : Storing swaps [] a) (s : Grammar n k) :
      Storing swaps [] (sepBy a s)
  | chainLeft {k : Nat} {g : Value → Value → Value → Range → Value} {a o : Grammar n k}
      (hg : ∀ x v w r, Stored swaps (some r) [v, x, w] [g x v w r]) (ha : Storing swaps [] a)
      (ho : Storing swaps [] o) : Storing swaps [] (chainLeft g a o)
  | chainRight {k : Nat} {g : Value → Value → Value → Range → Value} {a o : Grammar n k}
      (hg : ∀ x v w r, Stored swaps (some r) [v, x, w] [g x v w r]) (ha : Storing swaps [] a)
      (ho : Storing swaps [] o) : Storing swaps [] (chainRight g a o)
  | chainSuffix {k : Nat} {g : Value → Value → Range → Value} {a s : Grammar n k}
      (hg : ∀ x v r, Stored swaps (some r) [v, x] [g x v r]) (ha : Storing swaps [] a)
      (hs : Storing swaps [] s) : Storing swaps [] (chainSuffix g a s)
  | recursive {k : Nat} {body : Grammar n (k + 1)} (hb : Storing swaps [] body) :
      Storing swaps [] (recursive body)
  | ref {k : Nat} (i : Fin k) : Storing swaps [] (ref i)
  | dangling {k : Nat} : Storing swaps [] (dangling (k := k))
  | rule {k : Nat} (i : Fin n) : Storing swaps [] (rule (k := k) i)

end Grammar

section

variable {swaps : Bool} {us vs parts : List Value} {r s : Range} {v : Value}

theorem Range.whole?_eq_some (h : r ∈ s.whole? vs) : r = s ∧ vs = [] := by
  cases vs with
  | nil => exact ⟨(Option.some.inj h).symm, rfl⟩
  | cons v vs => cases h

theorem Value.Fits.madeOf (h : Fits swaps vs s parts) (hs : s.start ≤ s.stop)
    (hu : Behind swaps s.start (us ++ vs)) (hv : v.MadeOf swaps us (s.whole? vs) parts) :
    Fits swaps (us ++ vs) s [v] := by
  obtain ⟨ws, stored, kept⟩ := hv
  have around : Fits swaps vs s ws := h.stored hs (fun r hr => Range.whole?_eq_some hr) stored
  exact (around.behind hu).kept kept

theorem Cursor.Reaches.location_le {c d : Cursor} (h : c.Reaches d) : c.location ≤ d.location :=
  let ⟨_, h⟩ := h
  h.location_le

/-- The characters of a text from the beginning of the range to its end. -/
def Range.slice (r : Range) (text : List Char) : List Char :=
  (text.drop r.start.index).take (r.stop.index - r.start.index)

/-- What is read from a cursor on a text is the text of the range that is read. -/
theorem Cursor.Reads.slice {text cs : List Char} {c d : Cursor} (h : c.Reads cs d)
    (hc : c.On text) : (Range.mk c.location d.location).slice text = cs := by
  obtain ⟨before, read, rfl⟩ := hc.reads
  have begins : c.location.index = before.length := by
    rw [read.location, Location.index_scan]
    exact Nat.zero_add _
  have length : d.location.index - c.location.index = cs.length := h.length_range
  rw [Range.slice, length, begins, List.drop_left, h.rest, List.take_left]

/-- The target fits between the places, if what was captured before is behind them. -/
def Value.FitsBetween (swaps : Bool) (us : List Value) (c d : Cursor) (v : Value) : Prop :=
  Behind swaps c.location us → Fits swaps us ⟨c.location, d.location⟩ [v]

theorem Consecutive.fits {c d : Cursor} (h : Consecutive (FitsBetween swaps []) c d vs) :
    Fits swaps [] ⟨c.location, d.location⟩ vs := by
  induction h with
  | nil c => exact fits_nil
  | cons h hv hvs ih =>
    exact (hv (behind_nil _)).append ih (behind_nil _) h.location_le hvs.reaches.location_le

variable {c d e f : Cursor} {u w x : Value}

/-- Two values one after the other. -/
theorem Value.FitsBetween.pair (hv : FitsBetween swaps [] c d v) (hw : FitsBetween swaps [] d e w)
    (hd : c.Reaches d) (he : d.Reaches e) :
    Fits swaps [] ⟨c.location, e.location⟩ [v, w] :=
  (hv (behind_nil _)).append (hw (behind_nil _)) (behind_nil _) hd.location_le he.location_le

/-- An operand with a suffix, made into one value. -/
theorem Value.FitsBetween.suffixed (hv : FitsBetween swaps [] c d v)
    (hx : FitsBetween swaps [] d e x) (hd : c.Reaches d) (he : d.Reaches e)
    (hu : Stored swaps (some ⟨c.location, e.location⟩) [v, x] [u]) : FitsBetween swaps [] c e u :=
  fun _ => (hv.pair hx hd he).stored (hd.trans he).location_le
    (fun _ hr => ⟨(Option.some.inj hr).symm, rfl⟩) hu

/-- Two operands with an operator between them, made into one value. -/
theorem Value.FitsBetween.linked (hv : FitsBetween swaps [] c d v) (hx : FitsBetween swaps [] d e x)
    (hw : FitsBetween swaps [] e f w) (hd : c.Reaches d) (he : d.Reaches e) (hf : e.Reaches f)
    (hu : Stored swaps (some ⟨c.location, f.location⟩) [v, x, w] [u]) :
    FitsBetween swaps [] c f u := by
  intro _
  have all := (hv.pair hx hd he).append (hw (behind_nil _)) (behind_nil _)
    (hd.trans he).location_le hf.location_le
  exact all.stored ((hd.trans he).trans hf).location_le
    (fun _ hr => ⟨(Option.some.inj hr).symm, rfl⟩) hu

end

namespace Grammar

variable {n k : Nat} {ε : Type} {R : Recorder n ε} {depth : Nat} {swaps : Bool}

/-- A target that stores nothing fits anywhere. -/
theorem makes_literal {α : Type} {V : Cursor → Cursor → α → Prop} {p : Parser ε α} {g : α → Value}
    (hp : p.Makes V) (hr : ∀ a, (g a).range? = none) (ha : ∀ a, (g a).parts = []) :
    (p.map g).Makes (Value.FitsBetween swaps []) :=
  hp.map fun _ _ a _ _ _ => fits_nil.kept (.literal [] (hr a) (ha a))

theorem makes_list {p : Parser ε (List Value)}
    (hp : p.Makes (Consecutive (Value.FitsBetween swaps []))) :
    (p.map .list).Makes (Value.FitsBetween swaps []) :=
  hp.map fun _ _ vs _ hvs _ => hvs.fits.kept (list_kept vs)

theorem Storing.fits {us : List Value} {a : Grammar n k} (ha : a.Storing swaps us)
    {rules : Fin n → Parser ε Value} (hr : ∀ i, (rules i).Gives (Value.FitsBetween swaps []))
    {h : Fin k → Parser ε Value} (hh : ∀ i, (h i).Gives (Value.FitsBetween swaps [])) :
    (a.toParser R depth rules h).Makes (Value.FitsBetween swaps us) := by
  have sound {k : Nat} (a : Grammar n k) {h : Fin k → Parser ε Value}
      (hh : ∀ i, (h i).Gives (Value.FitsBetween swaps [])) :
      (R.watch a (a.toParser R depth rules h)).Sound :=
    toParser_sound (fun i => (hr i).sound) a fun i => (hh i).sound
  induction ha with
  | forget us _ ih =>
    exact (ih hh).mono fun c d v _ hv _ => (hv (behind_nil _)).forget us
  | succeed hv => exact Parser.succeed_makes fun c hu => hu.fits.kept hv
  | failHere f => exact Parser.failWith_makes _
  | dangling => exact Parser.failWith_makes _
  | char s => exact makes_literal (Parser.char_sound s).makes (fun _ => rfl) fun _ => rfl
  | peek s => exact makes_literal (Parser.peek_sound s).makes (fun _ => rfl) fun _ => rfl
  | token cs => exact makes_literal (Parser.token_sound cs).makes (fun _ => rfl) fun _ => rfl
  | pattern p => exact makes_literal (Parser.pattern_sound p).makes (fun _ => rfl) fun _ => rfl
  | endOfText => exact makes_literal Parser.endOfText_sound.makes (fun _ => rfl) fun _ => rfl
  | lexeme a => exact makes_literal (sound a hh).lexeme.makes (fun _ => rfl) fun _ => rfl
  | mapWithRange us vs hg _ ih =>
    refine (watch_makes (ih hh)).mapWithRange fun c d v hd hv hu => ?_
    exact (hv hu.of_append).madeOf hd.location_le hu (hg v _)
  | filterMap us vs s hg _ ih =>
    refine (watch_makes (ih hh)).filterMap fun c d v w _ hv hw hu => ?_
    exact ((hv hu.of_append).behind hu).kept (hg v w hw)
  | bindWithRange us vs _ _ iha ihn =>
    refine (watch_makes (iha hh)).bindWithRange (fun v r => watch_makes (ihn v r hh)) ?_
    intro c d e v w hd he hv hw hu
    have first := (hv hu.of_append).behind hu
    have second := hw (first.ends hu hd.location_le)
    exact (first.widen (Location.le_self _) he.location_le).trans
      (second.widen hd.location_le (Location.le_self _))
  | andThen us vs hg _ _ iha ihb =>
    refine (watch_makes (iha hh)).andThen (watch_makes (ihb hh)) ?_
    intro c d e v w hd he hv hw hu
    have both := (hv hu.of_append).append (hw (behind_nil _)) hu.of_append hd.location_le
      he.location_le
    exact both.madeOf (hd.trans he).location_le hu (hg v w _)
  | orElse _ _ iha ihb => exact (watch_makes (iha hh)).orElse (watch_makes (ihb hh))
  | commit _ ih => exact (watch_makes (ih hh)).commit
  | tag d _ ih => exact (watch_makes (ih hh)).tag
  | withDefault hv _ ih =>
    exact (watch_makes (ih hh)).withDefault fun c hu => hu.fits.kept hv
  | many _ ih => exact makes_list (watch_makes (ih hh)).many
  | many1 _ ih => exact makes_list (watch_makes (ih hh)).many1
  | times m _ ih => exact makes_list (watch_makes (ih hh)).times
  | sepBy1 _ s ih =>
    refine makes_list ((watch_makes (ih hh)).sepBy1 (sound s hh) ?_)
    exact fun c d e v hd hv _ => (hv (behind_nil _)).widen hd.location_le (Location.le_self _)
  | sepBy _ s ih =>
    refine makes_list ((watch_makes (ih hh)).sepBy (sound s hh) ?_)
    exact fun c d e v hd hv _ => (hv (behind_nil _)).widen hd.location_le (Location.le_self _)
  | chainLeft hg _ _ iha iho =>
    refine Parser.Makes.chainLeft ?_ (watch_makes (iha hh)) (watch_makes (iho hh))
    exact fun c d e f v x w hd he hf hv hx hw => hv.linked hx hw hd he hf (hg x v w _)
  | chainRight hg _ _ iha iho =>
    refine Parser.Makes.chainRight ?_ (watch_makes (iha hh)) (watch_makes (iho hh))
    exact fun c d e f v x w hd he hf hv hx hw => hv.linked hx hw hd he hf (hg x v w _)
  | chainSuffix hg _ _ iha ihs =>
    refine (watch_makes (iha hh)).chainSuffix (watch_makes (ihs hh)) ?_
    exact fun c d e v x hd he hv hx => hv.suffixed hx hd he (hg x v _)
  | @recursive k body _ ih =>
    refine (Parser.unroll_gives (fun q hq => ⟨?_, watch_makes ?_⟩) depth).makes
    · exact sound body (Fin.cases hq hh)
    · exact ih (Fin.cases hq hh)
  | ref i => exact (hh i).makes
  | rule i => exact (hr i).makes

/-- A lexeme stored with its range is the text of that range. -/
theorem located_lexeme {rules : Fin n → Parser ε Value} (hr : ∀ i, (rules i).Sound)
    (b : Grammar n k) {h : Fin k → Parser ε Value} (hh : ∀ i, (h i).Sound) {text : List Char}
    {c : Cursor} (hc : c.On text) :
    (((b.lexeme.mapWithRange fun v r => .located r v).toParser R depth rules h).run c).Ends
      (fun t => t.target = .located t.range (.text (t.range.slice text))) fun _ => True := by
  have lexeme : (b.lexeme.toParser R depth rules h).Makes
      fun c d v => ∃ cs, c.Reads cs d ∧ v = .text cs := by
    refine Parser.Makes.map (V := fun c d cs => c.Reads cs d) ?_ fun _ _ cs _ h => ⟨cs, h, rfl⟩
    exact (watch_sound (toParser_sound hr b hh)).lexeme_makes fun _ _ _ h => h
  have located : ((b.lexeme.mapWithRange fun v r => .located r v).toParser R depth rules h).Makes
      fun c d v => ∃ cs, c.Reads cs d ∧ v = .located ⟨c.location, d.location⟩ (.text cs) :=
    (watch_makes lexeme).mapWithRange fun c d v _ ⟨cs, hcs, hv⟩ => ⟨cs, hcs, by rw [hv]⟩
  refine (located c).mono (fun t ht => ?_) fun _ _ => trivial
  obtain ⟨cs, hcs, target⟩ := ht.target
  rw [target, ht.range, hcs.slice hc]

/-- The ranges in a target are nested: each lies in the range of the parse and encloses those of
its parts, and those of two values side by side are apart, and in order if nothing is reordered.
A lexeme stored with its range is the text of that range, wherever in a grammar it is run. -/
theorem ranges_nested (swaps : Bool) (rules : Rules n) (hr : ∀ i, (rules i).Storing swaps [])
    (a : Grammar n 0) (ha : a.Storing swaps []) (text : List Char) (m : Nat) :
    let c := (Cursor.ofText text).drop m
    (∀ depth, ((a.parserAt rules depth).run c).Ends
      (fun t => t.target.Nested (Range.Apart swaps) ∧ ∀ r ∈ t.target.ranges, r.Inside t.range)
      fun _ => True) ∧
    ((a.parser rules).run c).Ends
      (fun t => t.target.Nested (Range.Apart swaps) ∧ ∀ r ∈ t.target.ranges, r.Inside t.range)
      (fun _ => True) ∧
    ∀ (depth depth' : Nat) {k : Nat} (b : Grammar n k) (h : Fin k → Parser Location Value),
      (∀ i, (h i).Sound) →
      (((b.lexeme.mapWithRange fun v r => .located r v).toParser .commits depth
        (fun i => ⟨runRule .commits rules depth depth' i⟩) h).run c).Ends
        (fun t => t.target = .located t.range (.text (t.range.slice text))) fun _ => True := by
  intro c
  have nested (depth : Nat) : ((a.parserAt rules depth).run c).Ends
      (fun t => t.target.Nested (Range.Apart swaps) ∧ ∀ r ∈ t.target.ranges, r.Inside t.range)
      fun _ => True := by
    have fits : (a.parserAt rules depth).Makes (Value.FitsBetween swaps []) :=
      ha.fits (runRule_gives .commits rules depth (fun i _ h => (hr i).fits h nofun) depth) nofun
    refine (fits c).mono (fun t ht => ?_) fun _ _ => trivial
    obtain ⟨nested, inside⟩ := ht.target (behind_nil _)
    refine ⟨nested.1, fun r hr => ?_⟩
    rw [ht.range]
    exact (inside r (by simp [hr])).resolve_left nofun
  refine ⟨nested, nested (sufficientDepth n c), fun depth depth' k b h hh => ?_⟩
  exact located_lexeme (runRule_sound .commits rules depth depth') b hh ⟨m, rfl⟩

/-- A sum of words and, behind it, a word that is paired with the sum. -/
theorem ranges_nested_of_sum :
    let rules : Rules 1 := fun _ => (char (.single 'a')).many1.lexeme.mapWithRange fun v r =>
      .located r v
    let sum : Grammar 1 0 := leftAssociativeWithRange .tree (rule 0) (char (.single '+'))
    let a : Grammar 1 0 := sum.bind fun v => ((token [';']).keepRight (rule 0)).map fun w =>
      .pair v w
    let text := ['a', '+', 'a', 'a', ';', 'a']
    let c := (Cursor.ofText text).drop 0
    let span (i j : Nat) : Range := ⟨⟨1, i + 1, i⟩, ⟨1, j + 1, j⟩⟩
    let tree : Value := .node ['+']
      [.located (span 0 1) (.text ['a']), .located (span 2 4) (.text ['a', 'a'])] (some (span 0 4))
    (∀ i, (rules i).Storing false []) ∧ a.Storing false [] ∧
      ((a.parser rules).run c).outcome =
        .success (.spanning (.pair tree (.located (span 5 6) (.text ['a']))) c (c.drop 6)) ∧
      (∀ depth, ((a.parserAt rules depth).run c).Ends
        (fun t => t.target.Nested (Range.Apart false) ∧ ∀ r ∈ t.target.ranges, r.Inside t.range)
        fun _ => True) ∧
      ((a.parser rules).run c).Ends
        (fun t => t.target.Nested (Range.Apart false) ∧ ∀ r ∈ t.target.ranges, r.Inside t.range)
        (fun _ => True) ∧
      ∀ (depth depth' : Nat) {k : Nat} (b : Grammar 1 k) (h : Fin k → Parser Location Value),
        (∀ i, (h i).Sound) →
        (((b.lexeme.mapWithRange fun v r => .located r v).toParser .commits depth
          (fun i => ⟨runRule .commits rules depth depth' i⟩) h).run c).Ends
          (fun t => t.target = .located t.range (.text (t.range.slice text))) fun _ => True := by
  intro rules sum a text c span tree
  have hr : ∀ i, (rules i).Storing false [] := fun _ =>
    .mapWithRange [] [] (fun v r => (located_stored v r).madeOf) (.lexeme _)
  have hs : sum.Storing false [] :=
    .chainLeft (fun o v w r => Binary.tree_stored (some r) o (.cons v (.drop o [w]))) (.rule 0)
      (.char _)
  have ha : a.Storing false [] := by
    refine .bindWithRange [] [] hs fun v r => .mapWithRange [v] [] (fun w _ => ?_) ?_
    · exact ⟨[w], .refl, .wrap (v := .pair v w) rfl []⟩
    · refine .andThen [] [] (fun x w _ => ?_) (.token _) (.rule 0)
      exact ⟨[w], .keep .refl (.drop x [w]), .refl [w]⟩
  refine ⟨hr, ha, ?_, ranges_nested false rules hr a ha text 0⟩
  simp only [tree, span, c, text, a, sum, rules]
  rfl

end Grammar

end TextParsing
