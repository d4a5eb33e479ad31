import TextParsing.Grammar.Forms
import TextParsing.Proofs.Anchoring
import TextParsing.Proofs.Making

/-!
Grammars that keep all they read. Their targets, written out, are the text between the places where
the parse began and ended: nothing of it is dropped, doubled or moved, whatever alternatives have
been tried and whatever repetitions have ended.
-/

namespace TextParsing

/-- The value, written out, is what stands between the places. -/
def Value.Spells (c d : Cursor) (v : Value) : Prop := c.Reads v.flat d

/-- Values one after the other spell what stands between the first place and the last. -/
theorem Consecutive.spells {c d : Cursor} {vs : List Value} (h : Consecutive Value.Spells c d vs) :
    c.Reads (Value.flatList vs) d := by
  induction h with
  | nil c => exact .refl c
  | cons _ hv _ ih => exact hv.trans ih

namespace Parser

variable {ε : Type}

theorem char_makes (k : CharClass) :
    (char k : Parser ε Char).Makes fun c d x => c.Reads [x] d := fun c => by
  simp only [char]
  split
  · next x rest hx =>
    have read := Cursor.reads_of_advance hx
    split
    · exact Parse.made_spanning ⟨_, read⟩ read
    · trivial
  · trivial

theorem token_makes (cs : List Char) :
    (token cs : Parser ε (List Char)).Makes fun c d ds => c.Reads ds d := fun c => by
  simp only [token]
  split
  · next h =>
    obtain ⟨ds, hd⟩ := List.isPrefixOf_iff_prefix.1 h
    have read := Cursor.reads_consume hd.symm
    exact Parse.made_spanning ⟨_, read⟩ read
  · trivial

/-- A pattern that matches nowhere but where it is tried skips nothing. -/
theorem pattern_makes {p : Pattern} (h : ∀ cs, ∀ m ∈ p.search cs, m.1 = 0) :
    (pattern p : Parser ε (List Char)).Makes fun c d ds => c.Reads ds d := fun c => by
  simp only [pattern]
  split
  · next skipped length hs =>
    obtain rfl : skipped = 0 := h c.rest _ hs
    have read := Cursor.reads_consume (List.take_append_drop (0 + length) c.rest).symm
    exact Parse.made_spanning ⟨_, read⟩ read
  · trivial

theorem endOfText_makes : (endOfText : Parser ε Unit).Makes fun c d _ => c.Reads [] d := fun c => by
  simp only [endOfText]
  split
  · exact Parse.made_empty (.refl c)
  · trivial

end Parser

namespace Grammar

variable {n k : Nat}

/-- The grammars whose values are put together from all that is read. -/
inductive Lossless : {k : Nat} → Grammar n k → Prop
  | succeed {k : Nat} {v : Value} (h : v.flat = []) : Lossless (succeed (k := k) v)
  | char {k : Nat} (s : CharClass) : Lossless (char (k := k) s)
  | token {k : Nat} (cs : List Char) : Lossless (token (k := k) cs)
  /-- The written form has to be well formed on its own, not only where it is put to be compiled. -/
  | pattern {k : Nat} {source : List Char} {p : Pattern}
      (wellFormed : (Pattern.Regex.ofText? source).isSome)
      (compiled : Pattern.compile? source = some p) : Lossless (pattern (k := k) p)
  | endOfText {k : Nat} : Lossless (endOfText (k := k))
  | seq {k : Nat} {a b : Grammar n k} (ha : Lossless a) (hb : Lossless b) : Lossless (a.seq b)
  | orElse {k : Nat} {a b : Grammar n k} (ha : Lossless a) (hb : Lossless b) :
      Lossless (orElse a b)
  | many {k : Nat} {a : Grammar n k} (ha : Lossless a) : Lossless (many a)
  | many1 {k : Nat} {a : Grammar n k} (ha : Lossless a) : Lossless (many1 a)
  | times {k : Nat} (m : Nat) {a : Grammar n k} (ha : Lossless a) : Lossless (times m a)
  | optional {k : Nat} {a : Grammar n k} (ha : Lossless a) : Lossless a.optional
  | concat {k : Nat} {a b : Grammar n k} (ha : Lossless a) (hb : Lossless b) :
      Lossless (a.concat b)
  | concatMany {k : Nat} {a : Grammar n k} (ha : Lossless a) : Lossless a.concatMany
  | concatMany1 {k : Nat} {a : Grammar n k} (ha : Lossless a) : Lossless a.concatMany1
  | orEmpty {k : Nat} {a : Grammar n k} (ha : Lossless a) : Lossless a.orEmpty
  /-- A lexeme keeps the text whatever is made of it inside. The lexers of blanks, numbers and
  delimited texts are lexemes. -/
  | lexeme {k : Nat} (a : Grammar n k) : Lossless (lexeme a)
  | tag {k : Nat} (d : String) {a : Grammar n k} (ha : Lossless a) : Lossless (tag d a)
  | commit {k : Nat} {a : Grammar n k} (ha : Lossless a) : Lossless (commit a)
  | recursive {k : Nat} {body : Grammar n (k + 1)} (hb : Lossless body) : Lossless (recursive body)
  | ref {k : Nat} (i : Fin k) : Lossless (ref i)
  | dangling {k : Nat} : Lossless (dangling (k := k))
  | rule {k : Nat} (i : Fin n) : Lossless (rule (k := k) i)

variable {ε : Type} {R : Recorder n ε} {depth : Nat}

theorem Lossless.spells {a : Grammar n k} (ha : a.Lossless) {rules : Fin n → Parser ε Value}
    (hr : ∀ i, (rules i).Gives Value.Spells) {h : Fin k → Parser ε Value}
    (hh : ∀ i, (h i).Gives Value.Spells) :
    (a.toParser R depth rules h).Makes Value.Spells := by
  have sound {k : Nat} (a : Grammar n k) {h : Fin k → Parser ε Value}
      (hh : ∀ i, (h i).Gives Value.Spells) : (a.toParser R depth rules h).Sound :=
    toParser_sound (fun i => (hr i).sound) a fun i => (hh i).sound
  induction ha with
  | @succeed k v hv =>
    refine Parser.succeed_makes fun c => ?_
    rw [Value.Spells, hv]
    exact .refl c
  | char s => exact (Parser.char_makes s).map fun _ _ _ _ h => h
  | token cs => exact (Parser.token_makes cs).map fun _ _ _ _ h => h
  | pattern wellFormed compiled =>
    have anchored := Pattern.search_of_wellFormed wellFormed compiled
    exact (Parser.pattern_makes anchored).map fun _ _ _ _ h => h
  | endOfText => exact Parser.endOfText_makes.map fun _ _ _ _ h => h
  | seq _ _ iha ihb =>
    exact Parser.Makes.andThen (watch_makes (iha hh)) (watch_makes (ihb hh))
      fun _ _ _ _ _ _ _ hv hw => hv.trans hw
  | concat _ _ iha ihb =>
    exact Parser.Makes.andThen (watch_makes (iha hh)) (watch_makes (ihb hh))
      fun _ _ _ _ _ _ _ hv hw => hv.trans hw
  | orElse _ _ iha ihb => exact (watch_makes (iha hh)).orElse (watch_makes (ihb hh))
  | many _ ih => exact (watch_makes (ih hh)).many.map fun _ _ _ _ h => h.spells
  | many1 _ ih => exact (watch_makes (ih hh)).many1.map fun _ _ _ _ h => h.spells
  | times m _ ih => exact (watch_makes (ih hh)).times.map fun _ _ _ _ h => h.spells
  | concatMany _ ih =>
    refine Parser.Makes.mapWithRange (watch_makes (V := Value.Spells) ?_) fun _ _ _ _ h => h
    exact (watch_makes (ih hh)).many.map fun _ _ _ _ h => h.spells
  | concatMany1 _ ih =>
    refine Parser.Makes.mapWithRange (watch_makes (V := Value.Spells) ?_) fun _ _ _ _ h => h
    exact (watch_makes (ih hh)).many1.map fun _ _ _ _ h => h.spells
  | optional _ ih =>
    refine Parser.Makes.withDefault (watch_makes ?_) .refl
    exact (watch_makes (ih hh)).mapWithRange fun _ _ _ _ h => h
  | orEmpty _ ih =>
    refine Parser.Makes.withDefault (watch_makes ?_) .refl
    exact (watch_makes (ih hh)).mapWithRange fun _ _ _ _ h => h
  | lexeme a =>
    refine Parser.Makes.map (V := fun c d cs => c.Reads cs d) ?_ fun _ _ _ _ h => h
    exact Parser.Sound.lexeme_makes (watch_sound (sound a hh)) fun _ _ _ h => h
  | tag d _ ih => exact (watch_makes (ih hh)).tag
  | commit _ ih => exact (watch_makes (ih hh)).commit
  | @recursive k body _ ih =>
    refine (Parser.unroll_gives (fun q hq => ⟨watch_sound ?_, watch_makes ?_⟩) depth).makes
    · exact sound body (Fin.cases hq hh)
    · exact ih (Fin.cases hq hh)
  | ref i => exact (hh i).makes
  | dangling => exact Parser.failWith_makes _
  | rule i => exact (hr i).makes

end Grammar

end TextParsing
