import Mathlib.Data.List.Forall2
import TextParsing.Grammar.Meaning
import TextParsing.Proofs.Reading

/-!
Two runs side by side. A likeness says which logs, places and failures of the one run count as those
of the other; parsers are alike if from like places they give like replies. Putting parsers together
keeps them alike, so two grammars are compared by looking at the parts in which they differ.
-/

namespace TextParsing

universe u v w

section Same

variable {c c' d d' : Cursor} {cs : List Char} {f f' : Failure}

theorem Cursor.rest_of_eq (h : c = c') : c'.rest = c.rest := congrArg rest h.symm

theorem Cursor.offset_of_eq (hc : c = c') (hd : d = d') :
    d'.offset + c.offset = d.offset + c'.offset := by rw [hc, hd]

theorem Cursor.Reads.of_eq (h : c = c') (hd : c.Reads cs d) (hd' : c'.Reads cs d') : d = d' := by
  subst h
  exact hd.unique hd'

theorem Failure.committed_of_eq (h : f = f') : f'.committed = f.committed :=
  congrArg committed h.symm

theorem Failure.tag_of_eq (s : String) (h : f = f') : f.tag s = f'.tag s := congrArg (tag · s) h

end Same

structure Likeness (ε ε' : Type) where
  Logs : List ε → List ε' → Prop
  Places : Cursor → Cursor → Prop
  Locations : Location → Location → Prop
  Failures : Failure → Failure → Prop
  logs_nil : Logs [] []
  logs_append {xs ys : List ε} {xs' ys' : List ε'} :
    Logs xs xs' → Logs ys ys' → Logs (xs ++ ys) (xs' ++ ys')
  location {c c' : Cursor} : Places c c' → Locations c.location c'.location
  rest {c c' : Cursor} : Places c c' → c'.rest = c.rest
  /-- Equally many bytes stand between two places of the one run and of the other. -/
  offset {c c' d d' : Cursor} :
    Places c c' → Places d d' → d'.offset + c.offset = d.offset + c'.offset
  reads {c c' d d' : Cursor} {cs : List Char} :
    Places c c' → c.Reads cs d → c'.Reads cs d' → Places d d'
  committed {f f' : Failure} : Failures f f' → f'.committed = f.committed
  failure {c c' : Cursor} (expected : Option String) (tagged committed : Bool) :
    Places c c' → Failures ⟨c, expected, tagged, committed⟩ ⟨c', expected, tagged, committed⟩
  commit {f f' : Failure} : Failures f f' → Failures f.commit f'.commit
  tag {f f' : Failure} (d : String) : Failures f f' → Failures (f.tag d) (f'.tag d)

namespace Likeness

variable {ε ε' : Type} (L : Likeness ε ε') {c c' d d' : Cursor}

theorem beq (h : L.Places c c') (k : L.Places d d') : (d' == c') = (d == c) := by
  change (d'.offset == c'.offset) = (d.offset == c.offset)
  have := L.offset h k
  rw [Bool.eq_iff_iff, beq_iff_eq, beq_iff_eq]
  omega

theorem sliceTo (h : L.Places c c') (k : L.Places d d') : c'.sliceTo d' = c.sliceTo d := by
  have hd : d'.offset - c'.offset = d.offset - c.offset := by
    have := L.offset h k
    omega
  rw [Cursor.sliceTo, Cursor.sliceTo, hd, L.rest h]

theorem bound (h : L.Places c c') : c'.bound = c.bound := by
  rw [Cursor.bound, Cursor.bound, L.rest h]

theorem consume {cs ds : List Char} (h : L.Places c c') (hc : c.rest = cs ++ ds) :
    L.Places (c.consume (Text.byteLength cs)) (c'.consume (Text.byteLength cs)) :=
  L.reads h (Cursor.reads_consume hc) (Cursor.reads_consume ((L.rest h).trans hc))

/-- Only one and the same location is like a location. -/
def Exact : Prop := ∀ l l', L.Locations l l' → l = l'

end Likeness

/-- Two outcomes of one kind, with like parses or like failures. -/
inductive Outcome.Alike {α : Type u} {β : Type v} (A : α → β → Prop)
    (F : Failure → Failure → Prop) : Outcome α → Outcome β → Prop
  | success {a : α} {b : β} (h : A a b) : Alike A F (.success a) (.success b)
  | failure {f f' : Failure} (h : F f f') : Alike A F (.failure f) (.failure f')
  | unfinished : Alike A F .unfinished .unfinished

theorem Outcome.Alike.mono {α : Type u} {β : Type v} {A A₁ : α → β → Prop}
    {F F₁ : Failure → Failure → Prop} {o : Outcome α} {o' : Outcome β} (h : o.Alike A F o')
    (hA : ∀ a b, A a b → A₁ a b) (hF : ∀ f f', F f f' → F₁ f f') : o.Alike A₁ F₁ o' := by
  cases h with
  | success h => exact .success (hA _ _ h)
  | failure h => exact .failure (hF _ _ h)
  | unfinished => exact .unfinished

/-- Two outcomes that are like a third one. -/
theorem Outcome.Alike.meet {α : Type u} {F F' : Failure → Failure → Prop}
    {o o' e : Outcome α} (h : o.Alike Eq F e) (h' : o'.Alike Eq F e)
    (hF : ∀ f f' g, F f g → F f' g → F' f f') : o.Alike Eq F' o' := by
  cases h with
  | success h =>
    cases h' with
    | success h' => exact .success (h.trans h'.symm)
  | failure h =>
    cases h' with
    | failure h' => exact .failure (hF _ _ _ h h')
  | unfinished =>
    cases h' with
    | unfinished => exact .unfinished

/-- If the items of two lists are alike then so are the last ones. -/
theorem forall₂_getLast? {α : Type u} {β : Type v} {A : α → β → Prop} {as : List α}
    {bs : List β} (h : List.Forall₂ A as bs) :
    (as.getLast? = none ∧ bs.getLast? = none) ∨
      ∃ a b, as.getLast? = some a ∧ bs.getLast? = some b ∧ A a b := by
  induction h with
  | nil => exact .inl ⟨rfl, rfl⟩
  | cons h _ ih =>
    rw [List.getLast?_cons, List.getLast?_cons]
    obtain ⟨ha, hb⟩ | ⟨a, b, ha, hb, hab⟩ := ih
    · exact .inr ⟨_, _, rfl, rfl, by rwa [ha, hb]⟩
    · exact .inr ⟨_, _, rfl, rfl, by rwa [ha, hb]⟩

section

variable {ε ε' : Type} {L : Likeness ε ε'} {α α' : Type u} {β β' : Type v}
  {γ γ' : Type w}
  {A : α → α' → Prop} {B : β → β' → Prop} {C : γ → γ' → Prop}

variable (L) in
structure Range.Alike (r r' : Range) : Prop where
  start : L.Locations r.start r'.start
  stop : L.Locations r.stop r'.stop

theorem Range.Alike.eq {r r' : Range} (h : r.Alike L r') (exact : L.Exact) : r = r' := by
  cases r
  cases r'
  exact (Range.mk.injEq ..).mpr ⟨exact _ _ h.start, exact _ _ h.stop⟩

theorem option_congr (g : α → Option β) (a a' : α) (ha : a = a') : Option.Rel Eq (g a) (g a') := by
  subst ha
  cases g a with
  | none => exact .none
  | some b => exact .some rfl

namespace Likeness.Exact

variable {δ : Type}

theorem congr (exact : L.Exact) (g : α → Range → β) (a a' : α) (r r' : Range) (ha : a = a')
    (hr : r.Alike L r') : g a r = g a' r' := by rw [ha, hr.eq exact]

theorem congr₂ (exact : L.Exact) (g : α → β → Range → γ) (a a' : α) (b b' : β) (r r' : Range)
    (ha : a = a') (hb : b = b') (hr : r.Alike L r') : g a b r = g a' b' r' := by
  rw [ha, hb, hr.eq exact]

theorem congr₃ (exact : L.Exact) (g : α → β → γ → Range → δ) (a a' : α) (b b' : β) (x x' : γ)
    (r r' : Range) (ha : a = a') (hb : b = b') (hx : x = x') (hr : r.Alike L r') :
    g a b x r = g a' b' x' r' := by rw [ha, hb, hx, hr.eq exact]

end Likeness.Exact

variable (L A) in
structure Parse.Alike (t : Parse α) (t' : Parse α') : Prop where
  target : A t.target t'.target
  range : t.range.Alike L t'.range
  rest : L.Places t.rest t'.rest

variable (L A) in
structure Reply.Alike (r : Reply ε α) (r' : Reply ε' α') : Prop where
  log : L.Logs r.log r'.log
  outcome : r.outcome.Alike A L.Failures r'.outcome

namespace Parse

variable {c c' d d' : Cursor} {a : α} {a' : α'}

theorem spanning_alike (hc : L.Places c c') (hd : L.Places d d') (h : A a a') :
    (spanning a c d).Alike L A (spanning a' c' d') := ⟨h, ⟨L.location hc, L.location hd⟩, hd⟩

theorem empty_alike (hc : L.Places c c') (h : A a a') : (empty a c).Alike L A (empty a' c') :=
  spanning_alike hc hc h

theorem Alike.eq {t t' : Parse α} (h : t.Alike L Eq t') (exact : L.Exact)
    (places : ∀ c c', L.Places c c' → c = c') : t = t' := by
  cases t
  cases t'
  exact (Parse.mk.injEq ..).mpr ⟨h.target, h.range.eq exact, places _ _ h.rest⟩

end Parse

namespace Reply

variable {r : Reply ε α} {r' : Reply ε' α'}

theorem success_alike {a : α} {a' : α'} (h : A a a') :
    (success a : Reply ε α).Alike L A (success a' : Reply ε' α') := ⟨L.logs_nil, .success h⟩

theorem failure_alike {f f' : Failure} (h : L.Failures f f') :
    (failure f : Reply ε α).Alike L A (failure f' : Reply ε' α') := ⟨L.logs_nil, .failure h⟩

theorem unfinished_alike : (unfinished : Reply ε α).Alike L A (unfinished : Reply ε' α') :=
  ⟨L.logs_nil, .unfinished⟩

theorem Alike.after {xs : List ε} {xs' : List ε'} (h : r.Alike L A r') (hx : L.Logs xs xs') :
    (r.after xs).Alike L A (r'.after xs') := ⟨L.logs_append hx h.log, h.outcome⟩

theorem Alike.handle {k : α → Reply ε β} {k' : α' → Reply ε' β'} {l : Failure → Reply ε β}
    {l' : Failure → Reply ε' β'} (h : r.Alike L A r')
    (hk : ∀ a a', A a a' → (k a).Alike L B (k' a'))
    (hl : ∀ f f', L.Failures f f' → (l f).Alike L B (l' f')) :
    (r.handle k l).Alike L B (r'.handle k' l') := by
  obtain ⟨xs, o⟩ := r
  obtain ⟨xs', o'⟩ := r'
  obtain ⟨hx, ho⟩ := h
  cases ho with
  | success ha => exact (hk _ _ ha).after hx
  | @failure f f' hf =>
    have committed := L.committed hf
    simp only [Reply.handle, committed]
    split
    · exact ⟨hx, .failure hf⟩
    · exact (hl f f' hf).after hx
  | unfinished => exact ⟨hx, .unfinished⟩

theorem Alike.bind {k : α → Reply ε β} {k' : α' → Reply ε' β'} (h : r.Alike L A r')
    (hk : ∀ a a', A a a' → (k a).Alike L B (k' a')) : (r.bind k).Alike L B (r'.bind k') :=
  h.handle hk fun _ _ => failure_alike

theorem Alike.map {g : α → β} {g' : α' → β'} (h : r.Alike L A r')
    (hg : ∀ a a', A a a' → B (g a) (g' a')) : (r.map g).Alike L B (r'.map g') :=
  h.bind fun a a' ha => success_alike (hg a a' ha)

theorem Alike.recover {l : Failure → Reply ε α} {l' : Failure → Reply ε' α'} (h : r.Alike L A r')
    (hl : ∀ f f', L.Failures f f' → (l f).Alike L A (l' f')) :
    (r.recover l).Alike L A (r'.recover l') := h.handle (fun _ _ => success_alike) hl

theorem Alike.mapFailure {g g' : Failure → Failure} (h : r.Alike L A r')
    (hg : ∀ f f', L.Failures f f' → L.Failures (g f) (g' f')) :
    (r.mapFailure g).Alike L A (r'.mapFailure g') := by
  obtain ⟨xs, o⟩ := r
  obtain ⟨xs', o'⟩ := r'
  obtain ⟨hx, ho⟩ := h
  cases ho with
  | success ha => exact ⟨hx, .success ha⟩
  | failure hf => exact ⟨hx, .failure (hg _ _ hf)⟩
  | unfinished => exact ⟨hx, .unfinished⟩

theorem Alike.mapFailure_left {g : Failure → Failure} (h : r.Alike L A r')
    (hg : ∀ f f', L.Failures f f' → L.Failures (g f) f') : (r.mapFailure g).Alike L A r' := by
  obtain ⟨xs, o⟩ := r
  obtain ⟨xs', o'⟩ := r'
  obtain ⟨hx, ho⟩ := h
  cases ho with
  | success ha => exact ⟨hx, .success ha⟩
  | failure hf => exact ⟨hx, .failure (hg _ _ hf)⟩
  | unfinished => exact ⟨hx, .unfinished⟩

theorem Alike.commit {note : Location → List ε} {note' : Location → List ε'}
    (h : r.Alike L A r')
    (hn : ∀ f f', L.Failures f f' → L.Logs (note f.location) (note' f'.location)) :
    (r.commit note).Alike L A (r'.commit note') := by
  obtain ⟨xs, o⟩ := r
  obtain ⟨xs', o'⟩ := r'
  obtain ⟨hx, ho⟩ := h
  cases ho with
  | success ha => exact ⟨hx, .success ha⟩
  | @failure f f' hf =>
    have committed := L.committed hf
    simp only [Reply.commit, committed]
    split
    · exact ⟨hx, .failure hf⟩
    · exact ⟨L.logs_append hx (hn f f' hf), .failure (L.commit hf)⟩
  | unfinished => exact ⟨hx, .unfinished⟩

end Reply

open Reply

namespace Parser

variable (L A) in
/-- From like places the two parsers give like replies. -/
def Alike (p : Parser ε α) (p' : Parser ε' α') : Prop :=
  ∀ c c', L.Places c c' → (p.run c).Alike L (Parse.Alike L A) (p'.run c')

variable {p : Parser ε α} {p' : Parser ε' α'} {q : Parser ε β} {q' : Parser ε' β'}

theorem succeed_alike {a : α} {a' : α'} (h : A a a') :
    (succeed a : Parser ε α).Alike L A (succeed a' : Parser ε' α') :=
  fun _ _ hc => success_alike (Parse.empty_alike hc h)

theorem failWith_alike {f f' : Cursor → Failure}
    (h : ∀ c c', L.Places c c' → L.Failures (f c) (f' c')) :
    (failWith f : Parser ε α).Alike L A (failWith f' : Parser ε' α') :=
  fun c c' hc => failure_alike (h c c' hc)

theorem Alike.map {g : α → β} {g' : α' → β'} (hp : p.Alike L A p')
    (hg : ∀ a a', A a a' → B (g a) (g' a')) : (p.map g).Alike L B (p'.map g') := by
  intro c c' hc
  exact (hp c c' hc).map fun t t' ht => ⟨hg _ _ ht.target, ht.range, ht.rest⟩

theorem Alike.mapWithRange {g : α → Range → β} {g' : α' → Range → β'} (hp : p.Alike L A p')
    (hg : ∀ a a' r r', A a a' → r.Alike L r' → B (g a r) (g' a' r')) :
    (p.mapWithRange g).Alike L B (p'.mapWithRange g') := by
  intro c c' hc
  exact (hp c c' hc).map fun t t' ht => ⟨hg _ _ _ _ ht.target ht.range, ht.range, ht.rest⟩

theorem Alike.filterMap {g : α → Option β} {g' : α' → Option β'} {d : Option String}
    (hp : p.Alike L A p') (hg : ∀ a a', A a a' → Option.Rel B (g a) (g' a')) :
    (p.filterMap g d).Alike L B (p'.filterMap g' d) := by
  intro c c' hc
  refine (hp c c' hc).bind fun t t' ht => ?_
  have hb := hg _ _ ht.target
  generalize g t.target = b at hb ⊢
  generalize g' t'.target = b' at hb ⊢
  cases hb with
  | some hb => exact success_alike ⟨hb, ht.range, ht.rest⟩
  | none => exact failure_alike (L.failure d false false hc)

theorem Alike.bindWithRange {k : α → Range → Parser ε β} {k' : α' → Range → Parser ε' β'}
    (hp : p.Alike L A p')
    (hk : ∀ a a' r r', A a a' → r.Alike L r' → (k a r).Alike L B (k' a' r')) :
    (p.bindWithRange k).Alike L B (p'.bindWithRange k') := by
  intro c c' hc
  refine (hp c c' hc).bind fun t t' ht => ?_
  have hu := hk _ _ _ _ ht.target ht.range t.rest t'.rest ht.rest
  exact hu.map fun u u' hu => Parse.spanning_alike hc hu.rest hu.target

theorem Alike.andThen {g : α → β → Range → γ} {g' : α' → β' → Range → γ'}
    (hp : p.Alike L A p') (hq : q.Alike L B q')
    (hg : ∀ a a' b b' r r', A a a' → B b b' → r.Alike L r' → C (g a b r) (g' a' b' r')) :
    (andThen g p q).Alike L C (andThen g' p' q') := by
  intro c c' hc
  refine (hp c c' hc).bind fun t t' ht => ?_
  refine (hq t.rest t'.rest ht.rest).map fun u u' hu => ?_
  apply Parse.spanning_alike hc hu.rest
  exact hg _ _ _ _ _ _ ht.target hu.target ⟨L.location hc, L.location hu.rest⟩

theorem Alike.orElse {q : Parser ε α} {q' : Parser ε' α'} (hp : p.Alike L A p')
    (hq : q.Alike L A q') : (p.orElse q).Alike L A (p'.orElse q') := by
  intro c c' hc
  exact (hp c c' hc).recover fun _ _ _ => hq c c' hc

theorem Alike.commit {note : Location → List ε} {note' : Location → List ε'} (hp : p.Alike L A p')
    (hn : ∀ f f', L.Failures f f' → L.Logs (note f.location) (note' f'.location)) :
    (p.commit note).Alike L A (p'.commit note') := fun c c' hc => (hp c c' hc).commit hn

theorem Alike.tag {d : String} (hp : p.Alike L A p') : (p.tag d).Alike L A (p'.tag d) :=
  fun c c' hc => (hp c c' hc).mapFailure fun _ _ => L.tag d

theorem Alike.lexeme (hp : p.Alike L A p') : p.lexeme.Alike L Eq p'.lexeme := by
  intro c c' hc
  exact (hp c c' hc).map fun t t' ht => ⟨(L.sliceTo hc ht.rest).symm, ht.range, ht.rest⟩

theorem Alike.withDefault {a : α} {a' : α'} (hp : p.Alike L A p') (ha : A a a') :
    (p.withDefault a).Alike L A (p'.withDefault a') := by
  intro c c' hc
  exact (hp c c' hc).recover fun _ _ _ => success_alike (Parse.empty_alike hc ha)

variable (L A) in
/-- Like targets, one after the other, and like places after them. -/
def Repeated (x : List α × Cursor) (x' : List α' × Cursor) : Prop :=
  List.Forall₂ A x.1 x'.1 ∧ L.Places x.2 x'.2

theorem Repeated.cons {a : α} {a' : α'} {x : List α × Cursor} {x' : List α' × Cursor}
    (h : Repeated L A x x') (ha : A a a') : Repeated L A (a :: x.1, x.2) (a' :: x'.1, x'.2) :=
  ⟨.cons ha h.1, h.2⟩

theorem Alike.repeatFrom (hp : p.Alike L A p') (bound : List Char) {c c' : Cursor}
    (hc : L.Places c c') :
    (repeatFrom p bound c).Alike L (Repeated L A) (repeatFrom p' bound c') := by
  induction bound generalizing c c' with
  | nil => exact unfinished_alike
  | cons x bound ih =>
    refine (hp c c' hc).handle (fun t t' ht => ?_) fun _ _ _ => success_alike ⟨.nil, hc⟩
    simp only [L.beq hc ht.rest]
    split
    · exact success_alike ⟨.cons ht.target .nil, hc⟩
    · exact (ih ht.rest).map fun _ _ hx => hx.cons ht.target

theorem Alike.repeated (hp : p.Alike L A p') {c c' : Cursor} (hc : L.Places c c') :
    (repeated p c).Alike L (Repeated L A) (repeated p' c') := by
  rw [Parser.repeated, Parser.repeated, L.bound hc]
  exact hp.repeatFrom c.bound hc

theorem Alike.many (hp : p.Alike L A p') : p.many.Alike L (List.Forall₂ A) p'.many := by
  intro c c' hc
  exact (hp.repeated hc).map fun _ _ hx => Parse.spanning_alike hc hx.2 hx.1

theorem Alike.many1 (hp : p.Alike L A p') : p.many1.Alike L (List.Forall₂ A) p'.many1 := by
  intro c c' hc
  refine (hp c c' hc).bind fun t t' ht => ?_
  exact (hp.repeated ht.rest).map fun _ _ hx => Parse.spanning_alike hc hx.2 (.cons ht.target hx.1)

theorem Alike.timesFrom (hp : p.Alike L A p') (n : Nat) {c c' : Cursor} (hc : L.Places c c') :
    (timesFrom p n c).Alike L (Repeated L A) (timesFrom p' n c') := by
  induction n generalizing c c' with
  | zero => exact success_alike ⟨.nil, hc⟩
  | succ n ih =>
    refine (hp c c' hc).bind fun t t' ht => ?_
    exact (ih ht.rest).map fun _ _ hx => hx.cons ht.target

theorem Alike.times {n : Nat} (hp : p.Alike L A p') :
    (times n p).Alike L (List.Forall₂ A) (times n p') := by
  intro c c' hc
  exact (hp.timesFrom n hc).map fun _ _ hx => Parse.spanning_alike hc hx.2 hx.1

theorem Alike.sepBy1 (hp : p.Alike L A p') (hq : q.Alike L B q') :
    (sepBy1 p q).Alike L (List.Forall₂ A) (sepBy1 p' q') := by
  intro c c' hc
  have hk : (keepRight q p).Alike L A (keepRight q' p') :=
    hq.andThen hp fun _ _ _ _ _ _ _ ha _ => ha
  refine (hp c c' hc).bind fun t t' ht => ?_
  exact (hk.repeated ht.rest).map fun _ _ hx => Parse.spanning_alike hc hx.2 (.cons ht.target hx.1)

theorem Alike.sepBy (hp : p.Alike L A p') (hq : q.Alike L B q') :
    (sepBy p q).Alike L (List.Forall₂ A) (sepBy p' q') := (hp.sepBy1 hq).withDefault .nil

variable (L A B) in
/-- Like operators, each with like operands after them. -/
def Linked : List (β × Parse α) → List (β' × Parse α') → Prop :=
  List.Forall₂ fun l l' => B l.1 l'.1 ∧ l.2.Alike L A l'.2

theorem Alike.linksFrom (hp : p.Alike L A p') (hq : q.Alike L B q') (bound : List Char)
    {c c' : Cursor} (hc : L.Places c c') :
    (linksFrom p q bound c).Alike L (Linked L A B) (linksFrom p' q' bound c') := by
  induction bound generalizing c c' with
  | nil => exact unfinished_alike
  | cons x bound ih =>
    refine (hq c c' hc).handle (fun o o' ho => ?_) fun _ _ _ => success_alike .nil
    refine (hp _ _ ho.rest).handle (fun t t' ht => ?_) fun _ _ _ => success_alike .nil
    exact (ih ht.rest).map fun _ _ hl => .cons ⟨ho.target, ht⟩ hl

theorem Linked.endOf {ls : List (β × Parse α)} {ls' : List (β' × Parse α')} {c c' : Cursor}
    (h : Linked L A B ls ls') (hc : L.Places c c') : L.Places (endOf c ls) (endOf c' ls') := by
  obtain ⟨hl, hl'⟩ | ⟨l, l', hl, hl', h⟩ := forall₂_getLast? h
  · simpa [Parser.endOf, hl, hl'] using hc
  · simpa [Parser.endOf, hl, hl'] using h.2.rest

section Combined

variable {g : β → α → α → Range → α} {g' : β' → α' → α' → Range → α'}
  (hg : ∀ o o' a a' b b' r r', B o o' → A a a' → A b b' → r.Alike L r' →
    A (g o a b r) (g' o' a' b' r'))
include hg

theorem Linked.combineLeft {ls : List (β × Parse α)} {ls' : List (β' × Parse α')}
    {l l' : Location} (h : Linked L A B ls ls') (hl : L.Locations l l') {a : α} {a' : α'}
    (ha : A a a') : A (combineLeft g l a ls) (combineLeft g' l' a' ls') := by
  induction h generalizing a a' with
  | nil => exact ha
  | cons h _ ih => exact ih (hg _ _ _ _ _ _ _ _ h.1 ha h.2.target ⟨hl, L.location h.2.rest⟩)

theorem Linked.combineRight {ls : List (β × Parse α)} {ls' : List (β' × Parse α')}
    {m m' : Location} (h : Linked L A B ls ls') (hm : L.Locations m m') {l l' : Location}
    (hl : L.Locations l l') {a : α} {a' : α'} (ha : A a a') :
    A (combineRight g m l a ls) (combineRight g' m' l' a' ls') := by
  induction h generalizing l l' a a' with
  | nil => exact ha
  | cons h _ ih =>
    have right := ih h.2.range.start h.2.target
    exact hg _ _ _ _ _ _ _ _ h.1 ha right ⟨hl, hm⟩

theorem Alike.chainLeft (hp : p.Alike L A p') (hq : q.Alike L B q') :
    (chainLeft g p q).Alike L A (chainLeft g' p' q') := by
  intro c c' hc
  refine (hp c c' hc).bind fun t t' ht => ?_
  rw [L.bound ht.rest]
  refine (hp.linksFrom hq _ ht.rest).map fun ls ls' hl => ?_
  exact Parse.spanning_alike hc (hl.endOf ht.rest) (hl.combineLeft hg (L.location hc) ht.target)

theorem Alike.chainRight (hp : p.Alike L A p') (hq : q.Alike L B q') :
    (chainRight g p q).Alike L A (chainRight g' p' q') := by
  intro c c' hc
  refine (hp c c' hc).bind fun t t' ht => ?_
  rw [L.bound ht.rest]
  refine (hp.linksFrom hq _ ht.rest).map fun ls ls' hl => ?_
  have rest := hl.endOf ht.rest
  have target := hl.combineRight hg (L.location rest) (L.location hc) ht.target
  exact Parse.spanning_alike hc rest target

end Combined

theorem Alike.suffixesFrom (hq : q.Alike L B q') (bound : List Char) {c c' : Cursor}
    (hc : L.Places c c') :
    (suffixesFrom q bound c).Alike L (List.Forall₂ (Parse.Alike L B))
      (suffixesFrom q' bound c') := by
  induction bound generalizing c c' with
  | nil => exact unfinished_alike
  | cons x bound ih =>
    refine (hq c c' hc).handle (fun t t' ht => ?_) fun _ _ _ => success_alike .nil
    exact (ih ht.rest).map fun _ _ hs => .cons ht hs

theorem Alike.chainSuffix {g : β → α → Range → α} {g' : β' → α' → Range → α'}
    (hp : p.Alike L A p') (hq : q.Alike L B q')
    (hg : ∀ s s' a a' r r', B s s' → A a a' → r.Alike L r' → A (g s a r) (g' s' a' r')) :
    (chainSuffix g p q).Alike L A (chainSuffix g' p' q') := by
  intro c c' hc
  refine (hp c c' hc).bind fun t t' ht => ?_
  rw [L.bound ht.rest]
  refine (hq.suffixesFrom _ ht.rest).map fun ss ss' hs => ?_
  apply Parse.spanning_alike hc
  · obtain ⟨hl, hl'⟩ | ⟨s, s', hl, hl', h⟩ := forall₂_getLast? hs
    · simpa [hl, hl'] using ht.rest
    · simpa [hl, hl'] using h.rest
  · have target := ht.target
    generalize t.target = a at target ⊢
    generalize t'.target = a' at target ⊢
    clear ht
    induction hs generalizing a a' with
    | nil => exact target
    | cons h _ ih =>
      exact ih _ _ (hg _ _ _ _ _ _ h.target target ⟨L.location hc, L.location h.rest⟩)

theorem char_alike (k : CharClass) :
    (char k : Parser ε Char).Alike L Eq (char k : Parser ε' Char) := by
  intro c c' hc
  have failed : L.Failures (.expecting c k.expected) (.expecting c' k.expected) :=
    L.failure _ _ _ hc
  have hr := L.rest hc
  cases h : c.rest with
  | nil =>
    simp only [char, Cursor.advance, h, hr]
    exact failure_alike failed
  | cons x rest =>
    have ha : c.advance = some (x, ⟨c.source, rest, c.offset + x.utf8Size, c.location.past x⟩) := by
      rw [Cursor.advance, h]
    have ha' : c'.advance =
        some (x, ⟨c'.source, rest, c'.offset + x.utf8Size, c'.location.past x⟩) := by
      rw [Cursor.advance, hr, h]
    have hd := L.reads hc (Cursor.reads_of_advance ha) (Cursor.reads_of_advance ha')
    simp only [char, ha, ha']
    split
    · exact success_alike (Parse.spanning_alike hc hd rfl)
    · exact failure_alike failed

theorem peek_alike (k : CharClass) :
    (peek k : Parser ε Bool).Alike L Eq (peek k : Parser ε' Bool) := by
  intro c c' hc
  apply success_alike
  apply Parse.empty_alike hc
  rw [Cursor.peek, Cursor.peek, L.rest hc]

theorem token_alike (cs : List Char) :
    (token cs : Parser ε (List Char)).Alike L Eq (token cs : Parser ε' (List Char)) := by
  intro c c' hc
  simp only [token, L.rest hc]
  split
  · next h =>
    obtain ⟨ds, hd⟩ := List.isPrefixOf_iff_prefix.1 h
    exact success_alike (Parse.spanning_alike hc (L.consume hc hd.symm) rfl)
  · exact failure_alike (L.failure _ _ _ hc)

theorem pattern_alike (p : Pattern) :
    (pattern p : Parser ε (List Char)).Alike L Eq (pattern p : Parser ε' (List Char)) := by
  intro c c' hc
  simp only [pattern, L.rest hc]
  split
  · exact success_alike
      (Parse.spanning_alike hc (L.consume hc (List.take_append_drop _ _).symm) rfl)
  · exact failure_alike (L.failure _ _ _ hc)

theorem endOfText_alike :
    (endOfText : Parser ε Unit).Alike L Eq (endOfText : Parser ε' Unit) := by
  intro c c' hc
  have h : c'.isEmpty = c.isEmpty := by rw [Cursor.isEmpty, Cursor.isEmpty, L.rest hc]
  simp only [endOfText, h]
  split
  · exact success_alike (Parse.empty_alike hc rfl)
  · exact failure_alike (L.failure _ _ _ hc)

theorem unroll_alike {body : Parser ε α → Parser ε α} {body' : Parser ε' α' → Parser ε' α'}
    (hb : ∀ p p', p.Alike L A p' → (body p).Alike L A (body' p')) (n : Nat) :
    (Parser.mk (unroll body n)).Alike L A (Parser.mk (unroll body' n)) := by
  induction n with
  | zero => exact fun _ _ _ => unfinished_alike
  | succ n ih => exact fun c c' hc => hb _ _ ih c c' hc

end Parser

end

namespace Grammar

theorem list_congr (vs ws : List Value) (h : List.Forall₂ Eq vs ws) :
    Value.list vs = Value.list ws := by
  rw [List.forall₂_eq_eq_eq] at h
  rw [h]

end Grammar

end TextParsing
