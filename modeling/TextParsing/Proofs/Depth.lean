import Mathlib.Data.Fintype.Card
import Mathlib.Order.Monotone.Basic
import TextParsing.Proofs.Agreement
import TextParsing.Proofs.Likeness
import TextParsing.Proofs.Making
import TextParsing.Proofs.Progress

/-!
How deep references must be followed. What is entered again at the place where it was entered, with
nothing read in between, is entered there for ever. So of all that can be entered at a place, at
least one more must come to an end there with each entry more, or none will; and a run that ends at
some depth ends at the one that is counted out by that.
-/

namespace TextParsing

/-- Two runs at one and the same place, which is `c₀` or after it, that may log different things. -/
def onwards (c₀ : Cursor) : Likeness Location Location where
  Logs _ _ := True
  Places c c' := c = c' ∧ c₀.Reaches c
  Locations := Eq
  Failures := Eq
  logs_nil := trivial
  logs_append _ _ := trivial
  location := by
    rintro c _ ⟨rfl, -⟩
    rfl
  rest := by
    rintro c _ ⟨rfl, -⟩
    rfl
  offset := by
    rintro c _ d _ ⟨rfl, -⟩ ⟨rfl, -⟩
    rfl
  reads := by
    rintro c _ d d' cs ⟨rfl, hc⟩ hd hd'
    exact ⟨hd.unique hd', hc.trans ⟨cs, hd⟩⟩
  committed := Failure.committed_of_eq
  failure := by
    rintro c _ expected tagged committed ⟨rfl, -⟩
    rfl
  commit := congrArg Failure.commit
  tag := Failure.tag_of_eq

theorem onwards_exact (c : Cursor) : (onwards c).Exact := fun _ _ h => h

namespace Parser

variable {α : Type} {p p' q : Parser Location α} {c d : Cursor}

/-- From `c` on, the two parsers end in the same way or both do not end. -/
def SameFrom (c : Cursor) (p p' : Parser Location α) : Prop :=
  ∀ d, c.Reaches d → (p'.run d).outcome = (p.run d).outcome

namespace SameFrom

theorem refl (c : Cursor) (p : Parser Location α) : p.SameFrom c p := fun _ _ => rfl

theorem trans (h : p.SameFrom c p') (k : p'.SameFrom c q) : p.SameFrom c q := fun d hd =>
  (k d hd).trans (h d hd)

theorem symm (h : p.SameFrom c p') : p'.SameFrom c p := fun d hd => (h d hd).symm

theorem of_here (here : (p'.run c).outcome = (p.run c).outcome)
    (beyond : ∀ d, c.Passes d → p.SameFrom d p') : p.SameFrom c p' := by
  rintro d ⟨cs, hcs⟩
  cases cs with
  | nil =>
    obtain rfl := hcs.eq_of_nil
    exact here
  | cons x cs => exact beyond d ⟨x, cs, hcs⟩ d (.refl d)

theorem alike (h : p.SameFrom c p') (sound : p'.Sound) : p.Alike (onwards c) Eq p' := by
  rintro d _ ⟨rfl, hd⟩
  refine ⟨trivial, ?_⟩
  rw [← h d hd]
  cases ho : (p'.run d).outcome with
  | success t => exact .success ⟨rfl, ⟨rfl, rfl⟩, rfl, hd.trans (sound.reaches ho)⟩
  | failure f => exact .failure rfl
  | unfinished => exact .unfinished

end SameFrom

theorem Alike.sameFrom (h : p.Alike (onwards c) Eq p') : p.SameFrom c p' := by
  intro d hd
  have same := (h d d ⟨rfl, hd⟩).outcome
  generalize (p.run d).outcome = o at same ⊢
  generalize (p'.run d).outcome = o' at same ⊢
  cases same with
  | success ht =>
    obtain rfl := ht.eq (onwards_exact c) fun _ _ hc => hc.1
    rfl
  | failure hf => exact congrArg Outcome.failure hf.symm
  | unfinished => rfl

section Settles

variable {ι : Type} [Fintype ι] {f : Nat → ι → Parser Location α}

open Classical in
/-- What comes to an end at `c` when references are followed `m` deep. -/
noncomputable def ending (f : Nat → ι → Parser Location α) (c : Cursor) (m : Nat) : Finset ι :=
  {i | ((f m i).run c).outcome ≠ .unfinished}

theorem mem_ending {m : Nat} {i : ι} :
    i ∈ ending f c m ↔ ((f m i).run c).outcome ≠ .unfinished := by
  simp [ending]

variable (deeper : ∀ m m', m ≤ m' → ∀ i, (f m i).Agrees .ended (f m' i))
include deeper

theorem outcome_deeper {m m' : Nat} (hm : m ≤ m') {i : ι} (hi : i ∈ ending f c m) :
    ((f m' i).run c).outcome = ((f m i).run c).outcome :=
  (deeper m m' hm i).outcome_eq (mem_ending.1 hi)

theorem ending_subset {m m' : Nat} (hm : m ≤ m') : ending f c m ⊆ ending f c m' := by
  intro i hi
  rw [mem_ending, outcome_deeper deeper hm hi]
  exact mem_ending.1 hi

/-- If nothing more comes to an end then nothing changes. -/
theorem outcome_of_card {m m' : Nat} (hm : m ≤ m')
    (h : (ending f c m').card ≤ (ending f c m).card) (i : ι) :
    ((f m' i).run c).outcome = ((f m i).run c).outcome := by
  have same : ending f c m = ending f c m' :=
    Finset.eq_of_subset_of_card_le (ending_subset deeper hm) h
  by_cases hi : i ∈ ending f c m
  · exact outcome_deeper deeper hm hi
  · have hi' := hi
    rw [same] at hi'
    rw [mem_ending, not_not] at hi hi'
    rw [hi, hi']

variable {l : Nat}
  (step : ∀ c : Cursor, c.rest.length ≤ l → ∀ m m', (∀ i, (f m i).SameFrom c (f m' i)) →
    ∀ i, (f (m + 1) i).SameFrom c (f (m' + 1) i))
include step

/-- What happens behind `c` being settled after `k` entries, it is settled what happens at `c` after
as many more as there are things to enter. -/
theorem settles_here (hc : c.rest.length ≤ l) {k : Nat}
    (beyond : ∀ d, c.Passes d → ∀ m m', k ≤ m → k ≤ m' → ∀ i, (f m i).SameFrom d (f m' i))
    {m : Nat} (hm : k + Fintype.card ι ≤ m) (i : ι) :
    (f (k + Fintype.card ι) i).SameFrom c (f m i) := by
  have same {m m' : Nat} (hk : k ≤ m) (hm : m ≤ m')
      (h : (ending f c m').card ≤ (ending f c m).card) (i : ι) : (f m i).SameFrom c (f m' i) :=
    .of_here (outcome_of_card deeper hm h i)
      fun d hd => beyond d hd m m' hk (Nat.le_trans hk hm) i
  have stable (j : Nat) (hj : Fintype.card ι ≤ j) :
      (ending f c (k + j)).card = (ending f c (k + Fintype.card ι)).card := by
    apply Nat.stabilises_of_monotone (f := fun j => (ending f c (k + j)).card)
    · intro j j' hj
      exact Finset.card_le_card (ending_subset deeper (Nat.add_le_add_left hj k))
    · exact fun j => Finset.card_le_univ _
    · intro j hj
      have next (i : ι) :
          ((f (k + (j + 2)) i).run c).outcome = ((f (k + (j + 1)) i).run c).outcome :=
        step c hc (k + j) (k + (j + 1)) (same (Nat.le_add_right k j) (Nat.le_succ _) hj.ge) i c
          (.refl c)
      congr 1
      ext i
      rw [mem_ending, mem_ending, next]
    · exact hj
  obtain ⟨j, rfl⟩ := Nat.exists_eq_add_of_le (Nat.le_trans (Nat.le_add_right ..) hm)
  have hj : Fintype.card ι ≤ j := Nat.le_of_add_le_add_left hm
  exact same (Nat.le_add_right ..) hm (stable j hj).le i

/-- Each place from `c` on takes as many entries as there are things to enter. -/
theorem settles (hc : c.rest.length ≤ l) {m m' : Nat}
    (hm : Fintype.card ι * (c.rest.length + 1) ≤ m)
    (hm' : Fintype.card ι * (c.rest.length + 1) ≤ m') (i : ι) :
    (f m i).SameFrom c (f m' i) := by
  induction hn : c.rest.length using Nat.strong_induction_on generalizing c m m' i with
  | _ n ih =>
    subst hn
    have here {m : Nat} (hm : Fintype.card ι * (c.rest.length + 1) ≤ m) (i : ι) :
        (f (Fintype.card ι * (c.rest.length + 1)) i).SameFrom c (f m i) := by
      rw [Nat.mul_succ] at hm ⊢
      apply settles_here deeper step hc ?_ hm i
      intro d hd m m' hm hm' i
      have shorter := hd.length_lt
      have fewer := Nat.mul_le_mul_left (Fintype.card ι) (Nat.succ_le_of_lt shorter)
      apply ih _ shorter (by omega) (Nat.le_trans fewer hm) (Nat.le_trans fewer hm') i rfl
    exact (here hm i).symm.trans (here hm' i)

end Settles

theorem unroll_settles {body : Parser Location α → Parser Location α} {l : Nat}
    (agrees : ∀ p p', p.Agrees .ended p' → (body p).Agrees .ended (body p'))
    (sound : ∀ p, p.Sound → (body p).Sound)
    (step : ∀ d : Cursor, d.rest.length ≤ l → ∀ p p', p'.Sound → p.SameFrom d p' →
      (body p).SameFrom d (body p'))
    (hc : c.rest.length ≤ l) {m m' : Nat} (hm : c.rest.length < m) (hm' : c.rest.length < m') :
    (Parser.mk (unroll body m)).SameFrom c ⟨unroll body m'⟩ := by
  apply settles (ι := Unit) (f := fun m _ => ⟨unroll body m⟩) ?_ ?_ hc ?_ ?_ ()
  · intro m m' hm _
    exact .unroll agrees ⟨hm, nofun⟩
  · intro d hd m m' same _
    exact step d hd _ _ (unroll_sound sound m') (same ())
  · simpa using Nat.succ_le_of_lt hm
  · simpa using Nat.succ_le_of_lt hm'

end Parser

namespace Grammar

variable {n k : Nat} {c d : Cursor} {depth depth' : Nat}

/-- Two ways to follow references from `c` on, both deep enough for the recursive grammars, in which
what is followed ends in the same way. -/
structure Counterparts (c : Cursor) (depth depth' : Nat)
    (rules rules' : Fin n → Parser Location Value) (h h' : Fin k → Parser Location Value) :
    Prop where
  enough : c.rest.length < depth
  enough' : c.rest.length < depth'
  rule : ∀ i, (rules i).Alike (onwards c) Eq (rules' i)
  ref : ∀ i, (h i).Alike (onwards c) Eq (h' i)
  rule_sound : ∀ i, (rules' i).Sound
  ref_sound : ∀ i, (h' i).Sound

namespace Counterparts

variable {rules rules' : Fin n → Parser Location Value} {h h' : Fin k → Parser Location Value}
  {p p' : Parser Location Value}

theorem enter (ht : Counterparts c depth depth' rules rules' h h')
    (hp : p.Alike (onwards c) Eq p') (sound : p'.Sound) :
    Counterparts c depth depth' rules rules' (Fin.cases p h) (Fin.cases p' h') where
  enough := ht.enough
  enough' := ht.enough'
  rule := ht.rule
  ref := Fin.cases hp ht.ref
  rule_sound := ht.rule_sound
  ref_sound := Fin.cases sound ht.ref_sound

theorem closed (hd : c.rest.length < depth) (hd' : c.rest.length < depth')
    (hr : ∀ i, (rules i).Alike (onwards c) Eq (rules' i)) (sound : ∀ i, (rules' i).Sound) :
    Counterparts c depth depth' rules rules' Fin.elim0 Fin.elim0 :=
  ⟨hd, hd', hr, nofun, sound, nofun⟩

/-- The second way is its own counterpart. -/
theorem self (ht : Counterparts c depth depth' rules rules' h h')
    (hd : d.rest.length ≤ c.rest.length) :
    Counterparts d depth' depth' rules' rules' h' h' where
  enough := Nat.lt_of_le_of_lt hd ht.enough'
  enough' := Nat.lt_of_le_of_lt hd ht.enough'
  rule i := (Parser.SameFrom.refl d _).alike (ht.rule_sound i)
  ref i := (Parser.SameFrom.refl d _).alike (ht.ref_sound i)
  rule_sound := ht.rule_sound
  ref_sound := ht.ref_sound

/-- Where recursive grammars are entered deeper than there are characters left, it does not matter
how deep. -/
theorem alike (ht : Counterparts c depth depth' rules rules' h h') (a : Grammar n k) :
    (a.toParser .commits depth rules h).Alike (onwards c) Eq
      (a.toParser .commits depth' rules' h') := by
  induction a generalizing c depth rules with
  | succeed v => exact Parser.succeed_alike rfl
  | failHere f =>
    apply Parser.failWith_alike
    rintro d _ ⟨rfl, -⟩
    rfl
  | dangling =>
    apply Parser.failWith_alike
    rintro d _ ⟨rfl, -⟩
    rfl
  | char s => exact (Parser.char_alike s).map fun _ _ => congrArg Value.char
  | peek s => exact (Parser.peek_alike s).map fun _ _ => congrArg Value.bool
  | token cs => exact (Parser.token_alike cs).map fun _ _ => congrArg Value.text
  | pattern p => exact (Parser.pattern_alike p).map fun _ _ => congrArg Value.text
  | endOfText => exact Parser.endOfText_alike.map fun _ _ _ => rfl
  | mapWithRange g a ih => exact (ih ht).mapWithRange ((onwards_exact c).congr g)
  | filterMap g d a ih => exact (ih ht).filterMap (option_congr g)
  | bindWithRange a next iha ihn =>
    apply (iha ht).bindWithRange
    rintro v _ r r' rfl hr
    rw [hr.eq (onwards_exact c)]
    exact ihn v r' ht
  | andThen g a b iha ihb =>
    exact (iha ht).andThen (ihb ht) ((onwards_exact c).congr₂ g)
  | orElse a b iha ihb => exact (iha ht).orElse (ihb ht)
  | commit a ih => exact (ih ht).commit fun _ _ _ => trivial
  | tag d a ih => exact (ih ht).tag
  | lexeme a ih => exact (ih ht).lexeme.map fun _ _ => congrArg Value.text
  | withDefault v a ih => exact (ih ht).withDefault rfl
  | many a ih => exact (ih ht).many.map list_congr
  | many1 a ih => exact (ih ht).many1.map list_congr
  | times m a ih => exact (ih ht).times.map list_congr
  | sepBy1 a sep iha ihs => exact ((iha ht).sepBy1 (ihs ht)).map list_congr
  | sepBy a sep iha ihs => exact ((iha ht).sepBy (ihs ht)).map list_congr
  | chainLeft g a o iha iho =>
    exact .chainLeft ((onwards_exact c).congr₃ g) (iha ht) (iho ht)
  | chainRight g a o iha iho =>
    exact .chainRight ((onwards_exact c).congr₃ g) (iha ht) (iho ht)
  | chainSuffix g a s iha ihs =>
    exact (iha ht).chainSuffix (ihs ht) ((onwards_exact c).congr₂ g)
  | recursive body ih =>
    -- At first the one way is changed for the other, entry by entry, then the number of entries.
    have sound (m : Nat) : (Parser.mk (Parser.unroll (fun self =>
        body.toParser .commits depth' rules' (Fin.cases self h')) m)).Sound := by
      apply Parser.unroll_sound
      intro q hq
      exact toParser_sound ht.rule_sound body (Fin.cases hq ht.ref_sound)
    have changed (m : Nat) : (Parser.mk (Parser.unroll (fun self =>
        body.toParser .commits depth rules (Fin.cases self h)) m)).Alike (onwards c) Eq
        ⟨Parser.unroll (fun self =>
          body.toParser .commits depth' rules' (Fin.cases self h')) m⟩ := by
      induction m with
      | zero => exact fun _ _ _ => Reply.unfinished_alike
      | succ m again => exact ih (ht.enter again (sound m))
    apply ((changed depth).sameFrom.trans ?_).alike (sound depth')
    apply Parser.unroll_settles (l := c.rest.length) ?_ ?_ ?_ (Nat.le_refl _) ht.enough ht.enough'
    · intro p p' hp
      apply toParser_agrees (.refl _ depth')
      · exact fun i c => Reply.agrees_of_outcome_eq rfl
      · exact Fin.cases hp fun i c => Reply.agrees_of_outcome_eq rfl
    · intro q hq
      exact toParser_sound ht.rule_sound body (Fin.cases hq ht.ref_sound)
    · intro d hd p p' sound same
      exact (ih ((ht.self hd).enter (same.alike sound) sound)).sameFrom
  | ref i => exact ht.ref i
  | rule i => exact ht.rule i

end Counterparts

variable (rules : Rules n)

theorem runRule_alike_onwards (hd : c.rest.length < depth) (hd' : c.rest.length < depth') (m : Nat)
    (i : Fin n) :
    (Parser.mk (runRule .commits rules depth m i)).Alike (onwards c) Eq
      ⟨runRule .commits rules depth' m i⟩ := by
  induction m generalizing i with
  | zero => exact fun _ _ _ => Reply.unfinished_alike
  | succ m ih =>
    have sound := runRule_sound .commits rules depth' m
    exact (Counterparts.closed hd hd' ih sound).alike (rules i)

theorem runRule_settles (hd : c.rest.length < depth) {m m' : Nat}
    (hm : n * (c.rest.length + 1) ≤ m) (hm' : n * (c.rest.length + 1) ≤ m') (i : Fin n) :
    (Parser.mk (runRule .commits rules depth m i)).SameFrom c
      ⟨runRule .commits rules depth m' i⟩ := by
  rw [← Fintype.card_fin n] at hm hm'
  apply Parser.settles (f := fun m i => ⟨runRule .commits rules depth m i⟩) (l := c.rest.length)
    ?_ ?_ (Nat.le_refl _) hm hm' i
  · intro m m' hm i
    have deeper : Scope.ended.Depths m m' := ⟨hm, nofun⟩
    exact runRule_agrees rules (.refl _ depth) deeper i
  · intro d hd' m m' same i
    have enough := Nat.lt_of_le_of_lt hd' hd
    have sound := runRule_sound .commits rules depth m'
    have alike i := (same i).alike (sound i)
    exact ((Counterparts.closed enough enough alike sound).alike (rules i)).sameFrom

/-- No depth is better than one that is sufficient. -/
theorem parserAt_settles (a : Grammar n 0) (hd : sufficientDepth n c ≤ depth)
    (hd' : sufficientDepth n c ≤ depth') :
    ((a.parserAt rules depth').run c).outcome = ((a.parserAt rules depth).run c).outcome := by
  rw [sufficientDepth, Nat.succ_mul] at hd hd'
  have enough : c.rest.length < depth := by omega
  have enough' : c.rest.length < depth' := by omega
  have sound := runRule_sound .commits rules depth' depth'
  have same (i : Fin n) : (Parser.mk (runRule .commits rules depth depth i)).SameFrom c
      ⟨runRule .commits rules depth' depth' i⟩ := by
    apply (runRule_alike_onwards rules enough enough' depth i).sameFrom.trans
    apply runRule_settles rules enough' <;> omega
  have alike i := (same i).alike (sound i)
  exact ((Counterparts.closed enough enough' alike sound).alike a).sameFrom c (.refl c)

/-- The depth that the parser of a grammar takes is sufficient: what ends at all ends there. -/
theorem endsIn_iff {a : Grammar n 0} {o : Outcome (Parse Value)} :
    a.EndsIn rules c o ↔ ((a.parser rules).run c).outcome = o ∧ o ≠ .unfinished := by
  constructor
  · rintro ⟨depth, rfl, ended⟩
    refine ⟨?_, ended⟩
    have more := parserAt_outcome_mono rules (Nat.le_max_left depth (sufficientDepth n c)) a c ended
    rw [← more]
    exact parserAt_settles rules a (Nat.le_max_right ..) (Nat.le_refl _)
  · rintro ⟨ho, ended⟩
    exact ⟨_, ho, ended⟩

/-- Two grammars that end in the same ways have parsers that do the same. -/
theorem outcome_of_endsIn {n' : Nat} {rules : Rules n} {rules' : Rules n'} {a : Grammar n 0}
    {b : Grammar n' 0} (h : ∀ o, a.EndsIn rules c o ↔ b.EndsIn rules' c o) :
    ((b.parser rules').run c).outcome = ((a.parser rules).run c).outcome := by
  by_cases ended : ((a.parser rules).run c).outcome = .unfinished
  · by_cases ended' : ((b.parser rules').run c).outcome = .unfinished
    · rw [ended, ended']
    · have ends := (h _).2 ((endsIn_iff rules').2 ⟨rfl, ended'⟩)
      exact ((endsIn_iff rules).1 ends).1.symm
  · have ends := (h _).1 ((endsIn_iff rules).2 ⟨rfl, ended⟩)
    exact ((endsIn_iff rules').1 ends).1

end Grammar

end TextParsing
