import TextParsing.Proofs.Extent

/-!
What a parser makes of what it reads. A parser makes `V` if every target that it gives has `V` to do
with the places between which it was read; what a parser that is put together makes follows from
what its parts make.
-/

namespace TextParsing

universe u v w

namespace Cursor

variable {a b : Cursor}

theorem Reads.eq_of_nil (h : a.Reads [] b) : b = a := by
  cases a
  cases b
  rw [Cursor.mk.injEq]
  exact ⟨h.source, h.rest.symm, h.offset, h.location⟩

theorem Reaches.eq_of_beq (h : a.Reaches b) (hb : (b == a) = true) : b = a := by
  obtain ⟨cs, hcs⟩ := h
  rw [hcs.beq_iff] at hb
  rw [hb] at hcs
  exact hcs.eq_of_nil

end Cursor

section

variable {ε : Type} {α : Type u} {β : Type v} {γ : Type w}

structure Parse.Made (V : Cursor → Cursor → α → Prop) (c : Cursor) (t : Parse α) : Prop
    extends t.From c where
  target : V c t.rest t.target

/-- The items stand one after the other between two places. -/
inductive Consecutive (V : Cursor → Cursor → α → Prop) : Cursor → Cursor → List α → Prop
  | nil (c : Cursor) : Consecutive V c c []
  | cons {c d e : Cursor} {a : α} {as : List α} (h : c.Reaches d) (ha : V c d a)
      (has : Consecutive V d e as) : Consecutive V c e (a :: as)

/-- The operators, each with the operand after it, stand one after the other between two places. -/
inductive Chained (V : Cursor → Cursor → α → Prop) (W : Cursor → Cursor → β → Prop) :
    Cursor → Cursor → List (β × Parse α) → Prop
  | nil (c : Cursor) : Chained V W c c []
  | cons {c d e : Cursor} {b : β} {t : Parse α} {ls : List (β × Parse α)} (h : c.Reaches d)
      (hb : W c d b) (ht : t.Made V d) (hls : Chained V W t.rest e ls) :
      Chained V W c e ((b, t) :: ls)

/-- Parses one after the other between two places. -/
inductive Adjacent (V : Cursor → Cursor → α → Prop) : Cursor → Cursor → List (Parse α) → Prop
  | nil (c : Cursor) : Adjacent V c c []
  | cons {c e : Cursor} {t : Parse α} {ts : List (Parse α)} (ht : t.Made V c)
      (hts : Adjacent V t.rest e ts) : Adjacent V c e (t :: ts)

variable {U : Cursor → Cursor → γ → Prop} {V V' : Cursor → Cursor → α → Prop}
  {W : Cursor → Cursor → β → Prop} {c d e : Cursor}

theorem Consecutive.reaches {as : List α} (h : Consecutive V c d as) : c.Reaches d := by
  induction h with
  | nil c => exact .refl c
  | cons h _ _ ih => exact h.trans ih

theorem Chained.endOf {ls : List (β × Parse α)} (h : Chained V W c d ls) :
    Parser.endOf c ls = d := by
  induction h with
  | nil c => rfl
  | @cons c d e b t ls _ _ _ _ ih =>
    rw [← ih, Parser.endOf, Parser.endOf, List.getLast?_cons]
    cases ls.getLast? <;> rfl

theorem Chained.reaches {ls : List (β × Parse α)} (h : Chained V W c d ls) : c.Reaches d := by
  induction h with
  | nil c => exact .refl c
  | cons h _ ht _ ih => exact (h.trans ht.reaches).trans ih

theorem Adjacent.getLast? {ts : List (Parse α)} (h : Adjacent V c d ts) :
    (ts.getLast? = none ∧ c = d) ∨ ∃ t, ts.getLast? = some t ∧ t.rest = d := by
  induction h with
  | nil c => exact .inl ⟨rfl, rfl⟩
  | cons _ _ ih =>
    rw [List.getLast?_cons]
    obtain ⟨last, rest⟩ | ⟨t, last, rest⟩ := ih
    · exact .inr ⟨_, rfl, by rwa [last]⟩
    · exact .inr ⟨_, rfl, by rwa [last]⟩

theorem Adjacent.reaches {ts : List (Parse α)} (h : Adjacent V c d ts) : c.Reaches d := by
  induction h with
  | nil c => exact .refl c
  | cons ht _ ih => exact ht.reaches.trans ih

theorem Parse.made_spanning {a : α} (h : c.Reaches d) (ha : V c d a) :
    (Parse.spanning a c d).Made V c := ⟨⟨h, rfl⟩, ha⟩

theorem Parse.made_empty {a : α} (ha : V c c a) : (Parse.empty a c).Made V c :=
  Parse.made_spanning (.refl c) ha

namespace Parser

/-- Whenever the parser succeeds, `V` holds of the place where it was run, of the place where it
ends and of its target. -/
def Makes (V : Cursor → Cursor → α → Prop) (p : Parser ε α) : Prop :=
  ∀ c, (p.run c).Ends (Parse.Made V c) fun _ => True

variable {p : Parser ε α} {q : Parser ε β}

theorem Makes.mono (hp : p.Makes V) (hV : ∀ c d a, c.Reaches d → V c d a → V' c d a) :
    p.Makes V' := fun c =>
  (hp c).mono (fun _ ht => ⟨ht.toFrom, hV _ _ _ ht.reaches ht.target⟩) fun _ _ => trivial

theorem Sound.makes (hp : p.Sound) : p.Makes fun _ _ _ => True := fun c =>
  (hp c).mono (fun _ ht => ⟨ht, trivial⟩) fun _ _ => trivial

theorem succeed_makes {a : α} (h : ∀ c, V c c a) : (succeed a : Parser ε α).Makes V := fun c =>
  Parse.made_empty (h c)

theorem failWith_makes (f : Cursor → Failure) : (failWith f : Parser ε α).Makes V := fun _ =>
  trivial

theorem Makes.map {g : α → β} (hp : p.Makes V)
    (hg : ∀ c d a, c.Reaches d → V c d a → W c d (g a)) : (p.map g).Makes W := fun c =>
  (hp c).map fun _ ht => ⟨⟨ht.reaches, ht.range⟩, hg _ _ _ ht.reaches ht.target⟩

theorem Makes.mapWithRange {g : α → Range → β} (hp : p.Makes V)
    (hg : ∀ c d a, c.Reaches d → V c d a → W c d (g a ⟨c.location, d.location⟩)) :
    (p.mapWithRange g).Makes W := fun c =>
  (hp c).map fun t ht => ⟨⟨ht.reaches, ht.range⟩, by
    rw [ht.range]
    exact hg _ _ _ ht.reaches ht.target⟩

theorem Makes.filterMap {g : α → Option β} {s : Option String} (hp : p.Makes V)
    (hg : ∀ c d a b, c.Reaches d → V c d a → g a = some b → W c d b) :
    (p.filterMap g s).Makes W := fun c =>
  (hp c).bind fun t ht => by
    cases hb : g t.target with
    | some b => exact ⟨⟨ht.reaches, ht.range⟩, hg _ _ _ _ ht.reaches ht.target hb⟩
    | none => trivial

theorem Makes.bindWithRange {k : α → Range → Parser ε β} {X : α → Cursor → Cursor → β → Prop}
    (hp : p.Makes V) (hk : ∀ a r, (k a r).Makes (X a))
    (hW : ∀ c d e a b, c.Reaches d → d.Reaches e → V c d a → X a d e b → W c e b) :
    (p.bindWithRange k).Makes W := fun c =>
  (hp c).bind fun t ht => (hk t.target t.range t.rest).map fun _ hu =>
    Parse.made_spanning (ht.reaches.trans hu.reaches)
      (hW _ _ _ _ _ ht.reaches hu.reaches ht.target hu.target)

theorem Makes.andThen {g : α → β → Range → γ} (hp : p.Makes V) (hq : q.Makes W)
    (hg : ∀ c d e a b, c.Reaches d → d.Reaches e → V c d a → W d e b →
      U c e (g a b ⟨c.location, e.location⟩)) : (andThen g p q).Makes U := fun c =>
  (hp c).bind fun t ht => (hq t.rest).map fun _ hu =>
    Parse.made_spanning (ht.reaches.trans hu.reaches)
      (hg _ _ _ _ _ ht.reaches hu.reaches ht.target hu.target)

theorem Makes.orElse {q : Parser ε α} (hp : p.Makes V) (hq : q.Makes V) : (p.orElse q).Makes V :=
  fun c => (hp c).recover fun _ _ => hq c

theorem Makes.commit {note : Location → List ε} (hp : p.Makes V) : (p.commit note).Makes V :=
  fun c => (hp c).commit fun _ _ => trivial

theorem Makes.tag {s : String} (hp : p.Makes V) : (p.tag s).Makes V := fun c =>
  (hp c).mapFailure fun _ _ => trivial

theorem Sound.lexeme_makes {T : Cursor → Cursor → List Char → Prop} (hp : p.Sound)
    (h : ∀ c d cs, c.Reads cs d → T c d cs) : p.lexeme.Makes T := fun c => by
  refine (hp.makes c).map fun t ht => ⟨⟨ht.reaches, ht.range⟩, ?_⟩
  obtain ⟨cs, hcs⟩ := ht.reaches
  rw [hcs.sliceTo]
  exact h _ _ _ hcs

theorem Makes.withDefault {a : α} (hp : p.Makes V) (h : ∀ c, V c c a) :
    (p.withDefault a).Makes V := fun c => (hp c).recover fun _ _ => Parse.made_empty (h c)

theorem Makes.repeatFrom (hp : p.Makes V) (bound : List Char) (c : Cursor) :
    (repeatFrom p bound c).Ends (fun x => Consecutive V c x.2 x.1) fun _ => True := by
  induction bound generalizing c with
  | nil => trivial
  | cons x bound ih =>
    refine (hp c).handle (fun t ht => ?_) fun _ _ => Consecutive.nil c
    split
    · next h =>
      have target := ht.target
      rw [ht.reaches.eq_of_beq h] at target
      exact Consecutive.cons (.refl c) target (.nil c)
    · exact (ih t.rest).map fun _ hx => .cons ht.reaches ht.target hx

theorem Makes.many (hp : p.Makes V) : p.many.Makes (Consecutive V) := fun c =>
  (hp.repeatFrom _ c).map fun _ hx => Parse.made_spanning hx.reaches hx

theorem Makes.many1 (hp : p.Makes V) : p.many1.Makes (Consecutive V) := fun c =>
  (hp c).bind fun t ht => (hp.repeatFrom _ t.rest).map fun _ hx =>
    Parse.made_spanning (ht.reaches.trans hx.reaches) (.cons ht.reaches ht.target hx)

theorem Makes.timesFrom (hp : p.Makes V) (n : Nat) (c : Cursor) :
    (timesFrom p n c).Ends (fun x => Consecutive V c x.2 x.1) fun _ => True := by
  induction n generalizing c with
  | zero => exact Consecutive.nil c
  | succ n ih =>
    exact (hp c).bind fun t ht => (ih t.rest).map fun _ hx => .cons ht.reaches ht.target hx

theorem Makes.times {n : Nat} (hp : p.Makes V) : (times n p).Makes (Consecutive V) := fun c =>
  (hp.timesFrom n c).map fun _ hx => Parse.made_spanning hx.reaches hx

/-- What stands before an item, a separator, may be counted as part of it. -/
theorem Makes.sepBy1 (hp : p.Makes V) (hq : q.Sound)
    (hV : ∀ c d e a, c.Reaches d → V d e a → V c e a) : (sepBy1 p q).Makes (Consecutive V) :=
  fun c => by
  have separated : (keepRight q p).Makes V :=
    hq.makes.andThen hp fun _ _ _ _ _ h _ _ ha => hV _ _ _ _ h ha
  exact (hp c).bind fun t ht => (separated.repeatFrom _ t.rest).map fun _ hx =>
    Parse.made_spanning (ht.reaches.trans hx.reaches) (.cons ht.reaches ht.target hx)

theorem Makes.sepBy (hp : p.Makes V) (hq : q.Sound)
    (hV : ∀ c d e a, c.Reaches d → V d e a → V c e a) : (sepBy p q).Makes (Consecutive V) :=
  (hp.sepBy1 hq hV).withDefault .nil

theorem Makes.linksFrom (hp : p.Makes V) (hq : q.Makes W) (bound : List Char) (c : Cursor) :
    (linksFrom p q bound c).Ends (fun ls => ∃ d, Chained V W c d ls) fun _ => True := by
  induction bound generalizing c with
  | nil => trivial
  | cons x bound ih =>
    refine (hq c).handle (fun o ho => ?_) fun _ _ => ⟨c, .nil c⟩
    refine (hp o.rest).handle (fun t ht => ?_) fun _ _ => ⟨c, .nil c⟩
    refine (ih t.rest).map fun ls hls => ?_
    obtain ⟨d, hd⟩ := hls
    exact ⟨d, .cons ho.reaches ho.target ht hd⟩

section Combined

variable {g : β → α → α → Range → α}
  (hg : ∀ c d e f a o b, c.Reaches d → d.Reaches e → e.Reaches f → V c d a → W d e o → V e f b →
    V c f (g o a b ⟨c.location, f.location⟩))
include hg

theorem combineLeft_makes {ls : List (β × Parse α)} (hl : Chained V W d e ls) {a : α}
    (h : c.Reaches d) (ha : V c d a) : V c e (combineLeft g c.location a ls) := by
  induction hl generalizing a with
  | nil d => exact ha
  | cons hd ho ht _ ih =>
    exact ih ((h.trans hd).trans ht.reaches) (hg _ _ _ _ _ _ _ h hd ht.reaches ha ho ht.target)

theorem combineRight_makes {ls : List (β × Parse α)} (hl : Chained V W d e ls) {a : α}
    (h : c.Reaches d) (ha : V c d a) : V c e (combineRight g e.location c.location a ls) := by
  induction hl generalizing c a with
  | nil d => exact ha
  | @cons d d' e o t ls hd ho ht hl ih =>
    rw [combineRight, ht.range]
    exact hg _ _ _ _ _ _ _ h hd (ht.reaches.trans hl.reaches) ha ho (ih ht.reaches ht.target)

theorem Makes.chainLeft (hp : p.Makes V) (hq : q.Makes W) : (chainLeft g p q).Makes V := fun c => by
  refine (hp c).bind fun t ht => (hp.linksFrom hq _ t.rest).map fun ls hls => ?_
  obtain ⟨d, hd⟩ := hls
  rw [hd.endOf]
  exact Parse.made_spanning (ht.reaches.trans hd.reaches)
    (combineLeft_makes hg hd ht.reaches ht.target)

theorem Makes.chainRight (hp : p.Makes V) (hq : q.Makes W) : (chainRight g p q).Makes V :=
  fun c => by
  refine (hp c).bind fun t ht => (hp.linksFrom hq _ t.rest).map fun ls hls => ?_
  obtain ⟨d, hd⟩ := hls
  rw [hd.endOf]
  exact Parse.made_spanning (ht.reaches.trans hd.reaches)
    (combineRight_makes hg hd ht.reaches ht.target)

end Combined

theorem Makes.suffixesFrom (hq : q.Makes W) (bound : List Char) (c : Cursor) :
    (suffixesFrom q bound c).Ends (fun ss => ∃ d, Adjacent W c d ss) fun _ => True := by
  induction bound generalizing c with
  | nil => trivial
  | cons x bound ih =>
    refine (hq c).handle (fun t ht => ?_) fun _ _ => ⟨c, .nil c⟩
    refine (ih t.rest).map fun ss hss => ?_
    obtain ⟨d, hd⟩ := hss
    exact ⟨d, .cons ht hd⟩

theorem Makes.chainSuffix {g : β → α → Range → α} (hp : p.Makes V) (hq : q.Makes W)
    (hg : ∀ c d e a s, c.Reaches d → d.Reaches e → V c d a → W d e s →
      V c e (g s a ⟨c.location, e.location⟩)) : (chainSuffix g p q).Makes V := fun c => by
  have applied {d e : Cursor} {ss : List (Parse β)} (hs : Adjacent W d e ss) {a : α}
      (h : c.Reaches d) (ha : V c d a) :
      V c e (ss.foldl (fun a s => g s.target a ⟨c.location, s.rest.location⟩) a) := by
    induction hs generalizing a with
    | nil d => exact ha
    | cons ht _ ih => exact ih (h.trans ht.reaches) (hg _ _ _ _ _ h ht.reaches ha ht.target)
  refine (hp c).bind fun t ht => (hq.suffixesFrom _ t.rest).map fun ss hss => ?_
  obtain ⟨d, hd⟩ := hss
  have made := Parse.made_spanning (ht.reaches.trans hd.reaches) (applied hd ht.reaches ht.target)
  obtain ⟨last, rest⟩ | ⟨s, last, rest⟩ := hd.getLast?
  · simpa only [last, rest] using made
  · simpa only [last, rest] using made

variable (V) in
/-- The parser covers what it reads and makes `V` of it. -/
structure Gives (p : Parser ε α) : Prop where
  sound : p.Sound
  makes : p.Makes V

theorem unroll_gives {body : Parser ε α → Parser ε α} (hb : ∀ q, q.Gives V → (body q).Gives V)
    (n : Nat) : (Parser.mk (unroll body n)).Gives V := by
  induction n with
  | zero => exact ⟨fun _ => trivial, fun _ => trivial⟩
  | succ n ih => exact hb _ ih

end Parser

end

namespace Grammar

variable {n k : Nat} {ε : Type} {R : Recorder n ε} {V : Cursor → Cursor → Value → Prop}

theorem watch_makes {a : Grammar n k} {p : Parser ε Value} (hp : p.Makes V) :
    (R.watch a p).Makes V := hp

variable (R) in
/-- What all rules make of parsers that make it, they make when run to any depth. -/
theorem runRule_gives (rules : Rules n) (depth : Nat)
    (hr : ∀ (i : Fin n) (run : Fin n → Parser ε Value), (∀ j, (run j).Gives V) →
      ((rules i).toParser R depth run Fin.elim0).Makes V) (m : Nat) (i : Fin n) :
    (Parser.mk (runRule R rules depth m i)).Gives V := by
  refine ⟨runRule_sound R rules depth m i, ?_⟩
  induction m generalizing i with
  | zero => exact fun _ => trivial
  | succ m ih => exact watch_makes (hr i _ fun j => ⟨runRule_sound R rules depth m j, ih j⟩)

end Grammar

end TextParsing
