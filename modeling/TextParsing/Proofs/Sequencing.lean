import TextParsing.Grammar.FormLaws
import TextParsing.Proofs.Progress

/-!
Sequences as a monad. Every way to run parsers one after the other is the one in which the target of
the first chooses the second, so all of them obey the laws of that one. A parser comes out of a
sequence with a parser that reads nothing as it went in, if its ranges are what it has read; this is
so for the parser of every grammar.
-/

namespace TextParsing

universe u v w x y z

theorem Reply.map_eq_self {ε : Type} {α : Type u} {r : Reply ε α} {g : α → α}
    (h : ∀ a, r.outcome = .success a → g a = a) : r.map g = r := by
  have same : r.map g = r.bind success := handle_congr fun a ha => congrArg success (h a ha)
  rw [same, bind_success]

namespace Parser

variable {ε : Type} {α : Type u} {β : Type v} {γ : Type w} {p : Parser ε α} {q : Parser ε β}
  {r : Parser ε γ}

/-- The range of every parse is what has been read. -/
def Spans (p : Parser ε α) : Prop :=
  ∀ c, (p.run c).Ends (fun t => t.range = ⟨c.location, t.rest.location⟩) fun _ => True

theorem Sound.spans (hp : p.Sound) : p.Spans := fun c =>
  (hp c).mono (fun _ ht => ht.range) fun _ _ => trivial

theorem Spans.map_spanning (hp : p.Spans) (c : Cursor) :
    (p.run c).map (fun t => .spanning t.target c t.rest) = p.run c := by
  apply Reply.map_eq_self
  intro t ht
  rw [Parse.spanning, ← (hp c).of_success ht]

theorem bind_spans (p : Parser ε α) (k : α → Parser ε β) : (p.bind k).Spans := fun c =>
  (Reply.ends_self (p.run c)).bind fun t _ =>
    (Reply.ends_self ((k t.target).run t.rest)).map fun _ _ => rfl

theorem succeed_bind (a : α) {k : α → Parser ε β} (hk : (k a).Spans) :
    (succeed a).bind k = k a := by
  ext c
  exact hk.map_spanning c

theorem bind_succeed (hp : p.Spans) : p.bind succeed = p := by
  ext c
  exact hp.map_spanning c

theorem bind_bind (p : Parser ε α) (k : α → Parser ε β) (l : β → Parser ε γ) :
    (p.bind k).bind l = p.bind fun a => (k a).bind l := by
  ext c
  simp only [bind, Reply.bind_assoc, Reply.map_bind, Reply.bind_map, Reply.map_map, Parse.spanning]

theorem andThen_eq_bind (g : α → β → γ) (p : Parser ε α) (q : Parser ε β) :
    andThen (fun a b _ => g a b) p q = p.bind fun a => q.map fun b => g a b := by
  ext c
  simp [andThen, bind, map, Parse.map, Parse.spanning]

theorem keepRight_eq_bind (p : Parser ε α) (q : Parser ε β) :
    keepRight p q = p.bind fun _ => q := rfl

theorem between_eq_bind (p : Parser ε α) (q : Parser ε β) (r : Parser ε γ) :
    between p q r = p.bind fun _ => q.bind fun b => r.map fun _ => b := by
  ext c
  simp [between, bind, map, Parse.map, Parse.spanning]

theorem andThen_eq_mapWithRange (g : α → β → Range → γ) (p : Parser ε α) (q : Parser ε β) :
    andThen g p q =
      (p.bind fun a => q.map fun b => (a, b)).mapWithRange fun x r => g x.1 x.2 r := by
  ext c
  simp [andThen, bind, map, mapWithRange, Parse.map, Parse.spanning]

theorem bindWithRange_eq_bind (p : Parser ε α) (k : α → Range → Parser ε β) :
    p.bindWithRange k = (p.mapWithRange fun a s => (a, s)).bind fun x => k x.1 x.2 := by
  ext c
  simp [bindWithRange, bind, mapWithRange]

/-- Three parsers are joined in the same way from the left as from the right if their targets
are. -/
theorem andThen_assoc {δ : Type x} {ζ : Type y} {η : Type z} {g : α → β → δ} {h : δ → γ → η}
    {g' : β → γ → ζ} {h' : α → ζ → η} (same : ∀ a b c, h (g a b) c = h' a (g' b c)) (p : Parser ε α)
    (q : Parser ε β) (r : Parser ε γ) :
    andThen (fun d c _ => h d c) (andThen (fun a b _ => g a b) p q) r =
      andThen (fun a e _ => h' a e) p (andThen (fun b c _ => g' b c) q r) := by
  ext c
  simp only [andThen, Reply.bind_assoc, Reply.map_bind, Reply.bind_map, Reply.map_map,
    Parse.spanning, same]

theorem seq_seq (p : Parser ε α) (q : Parser ε β) (r : Parser ε γ) :
    (seq (seq p q) r).map (fun x => (x.1.1, x.1.2, x.2)) = seq p (seq q r) := by
  rw [seq, map_andThen]
  apply andThen_assoc
  simp

theorem keepLeft_keepLeft (p : Parser ε α) (q : Parser ε β) (r : Parser ε γ) :
    keepLeft (keepLeft p q) r = keepLeft p (keepLeft q r) := by
  apply andThen_assoc
  simp

theorem keepRight_keepRight (p : Parser ε α) (q : Parser ε β) (r : Parser ε γ) :
    keepRight (keepRight p q) r = keepRight p (keepRight q r) := by
  apply andThen_assoc
  simp

theorem concat_concat (p q r : Parser ε (List Char)) :
    concat (concat p q) r = concat p (concat q r) := by
  apply andThen_assoc
  simp

/-- What is laid down when `k` chooses by the target of `p` what comes next, and `l` by that. -/
structure BindLaws (p : Parser ε α) (k : α → Parser ε β) (l : β → Parser ε γ) : Prop where
  succeed_bind : ∀ a, (succeed a).bind k = k a
  bind_succeed : p.bind succeed = p
  bind_bind : (p.bind k).bind l = p.bind fun a => (k a).bind l
  spans : (p.bind k).Spans

/-- Every sequence is made by `bind`, by `map` and, if a range is asked for, by `mapWithRange`. The
one that is asked for in `applyWithRange` is that of the sequence, and in `bindWithRange` that of
the first parser. -/
structure SequenceLaws (p : Parser ε α) (q : Parser ε β) (r : Parser ε γ) (f : Parser ε (α → β))
    (g : Parser ε (α → Range → β)) (k : α → Range → Parser ε β) (s t u : Parser ε (List Char)) :
    Prop where
  seq_eq : seq p q = p.bind fun a => q.map fun b => (a, b)
  keepRight_eq : keepRight p q = p.bind fun _ => q
  keepLeft_eq : keepLeft p q = p.bind fun a => q.map fun _ => a
  between_eq : between p q r = p.bind fun _ => q.bind fun b => r.map fun _ => b
  surrounded_eq : q.surrounded p = p.bind fun _ => q.bind fun b => p.map fun _ => b
  apply_eq : apply f p = f.bind fun h => p.map fun a => h a
  applyWithRange_eq : applyWithRange g p =
    (g.bind fun h => p.map fun a => (h, a)).mapWithRange fun x i => x.1 x.2 i
  bindWithRange_eq : p.bindWithRange k = (p.mapWithRange fun a i => (a, i)).bind fun x => k x.1 x.2
  concat_eq : concat s t = s.bind fun cs => t.map fun ds => cs ++ ds
  seq_seq : (seq (seq p q) r).map (fun x => (x.1.1, x.1.2, x.2)) = seq p (seq q r)
  keepRight_keepRight : keepRight (keepRight p q) r = keepRight p (keepRight q r)
  keepLeft_keepLeft : keepLeft (keepLeft p q) r = keepLeft p (keepLeft q r)
  concat_concat : concat (concat s t) u = concat s (concat t u)

theorem Spans.bindLaws {k : α → Parser ε β} (hp : p.Spans) (hk : ∀ a, (k a).Spans)
    (l : β → Parser ε γ) : p.BindLaws k l where
  succeed_bind a := Parser.succeed_bind a (hk a)
  bind_succeed := Parser.bind_succeed hp
  bind_bind := Parser.bind_bind p k l
  spans := bind_spans p k

theorem sequenceLaws (p : Parser ε α) (q : Parser ε β) (r : Parser ε γ) (f : Parser ε (α → β))
    (g : Parser ε (α → Range → β)) (k : α → Range → Parser ε β) (s t u : Parser ε (List Char)) :
    SequenceLaws p q r f g k s t u where
  seq_eq := andThen_eq_bind (fun a b => (a, b)) p q
  keepRight_eq := keepRight_eq_bind p q
  keepLeft_eq := andThen_eq_bind (fun a _ => a) p q
  between_eq := between_eq_bind p q r
  surrounded_eq := between_eq_bind p q p
  apply_eq := andThen_eq_bind (fun (h : α → β) a => h a) f p
  applyWithRange_eq := andThen_eq_mapWithRange (fun (h : α → Range → β) a i => h a i) g p
  bindWithRange_eq := bindWithRange_eq_bind p k
  concat_eq := andThen_eq_bind (fun cs ds => cs ++ ds) s t
  seq_seq := Parser.seq_seq p q r
  keepRight_keepRight := Parser.keepRight_keepRight p q r
  keepLeft_keepLeft := Parser.keepLeft_keepLeft p q r
  concat_concat := Parser.concat_concat s t u

end Parser

namespace Grammar

variable {n : Nat} {rules : Rules n} {depth : Nat}

/-- The two grammars have the same parser, to whatever depth references are followed. -/
structure Equivalent (rules : Rules n) (a b : Grammar n 0) : Prop where
  parserAt : ∀ depth, a.parserAt rules depth = b.parserAt rules depth
  parser : a.parser rules = b.parser rules

theorem equivalent_of_depths {a b : Grammar n 0}
    (h : ∀ depth, a.parserAt rules depth = b.parserAt rules depth) : Equivalent rules a b where
  parserAt := h
  parser := by
    unfold Grammar.parser
    simp only [h]

theorem parserAt_spans (rules : Rules n) (depth : Nat) (a : Grammar n 0) :
    (a.parserAt rules depth).Spans := (recordedAt_sound .commits rules depth a).spans

theorem parserAt_bind (rules : Rules n) (depth : Nat) (a : Grammar n 0) (f : Value → Grammar n 0) :
    (a.bind f).parserAt rules depth =
      (a.parserAt rules depth).bind fun v => (f v).parserAt rules depth := toParser_bind f

/-- Sequences are a monad: among the parsers of all grammars, and among all parsers whose ranges are
what they have read, as those of the grammars are. All sequences are made by `bind`. -/
theorem sequencing_is_monadic {ε : Type} (rules : Rules n) :
    (∀ (a : Grammar n 0) (v : Value) (f g : Value → Grammar n 0),
      Equivalent rules ((succeed v).bind f) (f v) ∧
      Equivalent rules (a.bind succeed) a ∧
      Equivalent rules ((a.bind f).bind g) (a.bind fun v => (f v).bind g)) ∧
    (∀ (depth : Nat) (a : Grammar n 0), (a.parserAt rules depth).Spans) ∧
    (∀ {α β γ : Type} {p : Parser ε α} {k : α → Parser ε β} {l : β → Parser ε γ},
      p.Spans → (∀ a, (k a).Spans) → p.BindLaws k l) ∧
    ∀ {α β γ : Type} (p : Parser ε α) (q : Parser ε β) (r : Parser ε γ) (f : Parser ε (α → β))
      (g : Parser ε (α → Range → β)) (k : α → Range → Parser ε β) (s t u : Parser ε (List Char)),
      Parser.SequenceLaws p q r f g k s t u := by
  refine ⟨fun a v f g => ⟨?_, ?_, ?_⟩, parserAt_spans rules, fun hp hk => hp.bindLaws hk _,
    Parser.sequenceLaws⟩
  · apply equivalent_of_depths
    intro depth
    rw [parserAt_bind]
    exact Parser.succeed_bind v (parserAt_spans rules depth (f v))
  · apply equivalent_of_depths
    intro depth
    rw [parserAt_bind]
    exact Parser.bind_succeed (parserAt_spans rules depth a)
  · apply equivalent_of_depths
    intro depth
    simp only [parserAt_bind, Parser.bind_bind]

/-- A digit that chooses the next character, which is to be the same, and that the next one. -/
theorem sequencing_is_monadic_of_digits :
    let digit : Parser Location Char := .char .digit
    let same : Char → Parser Location Char := fun x => .char (.single x)
    let c : Cursor := .ofText ['7', '7', '7', '8']
    digit.Spans ∧ (∀ x, (same x).Spans) ∧ digit.BindLaws same same ∧
      (((digit.bind same).bind same).run c).outcome = .success (.spanning '7' c (c.drop 3)) := by
  intro digit same c
  have hd : digit.Spans := (Parser.char_sound _).spans
  have hs : ∀ x, (same x).Spans := fun x => (Parser.char_sound _).spans
  exact ⟨hd, hs, (sequencing_is_monadic (n := 0) Fin.elim0).2.2.1 hd hs, rfl⟩

end Grammar

end TextParsing
