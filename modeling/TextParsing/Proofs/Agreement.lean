import TextParsing.Grammar.Meaning

/-!
When one parser ends as another does. Parsers are compared within a scope, since a parser that looks
deeper, or commits less, ends as another one does only where that one ends, or does not end in a
committed failure. Putting parsers together keeps the agreement of the parts.
-/

namespace TextParsing

universe u v w

/-- The outcomes for which two parsers are compared. -/
inductive Scope
  | all
  /-- The runs that end. -/
  | ended
  /-- The runs that end, and not in a committed failure. -/
  | uncommitted

def Scope.Has {α : Type u} (s : Scope) : Outcome α → Prop
  | .success _ => True
  | .failure f => s = uncommitted → f.committed = false
  | .unfinished => s = all

theorem Scope.has_of {α : Type u} {s : Scope} {o : Outcome α}
    (hf : ∀ f, o = .failure f → s = uncommitted → f.committed = false)
    (hu : o = .unfinished → s = all) : s.Has o := by
  cases o with
  | success a => trivial
  | failure f => exact hf f rfl
  | unfinished => exact hu rfl

section

variable {ε ε' : Type} {α : Type u} {β : Type v} {s : Scope}

namespace Reply

/-- The reply `r'` ends as `r` does, if `r` ends within the scope. -/
def Agrees (s : Scope) (r : Reply ε α) (r' : Reply ε' α) : Prop :=
  s.Has r.outcome → r'.outcome = r.outcome

variable {r : Reply ε α} {r' : Reply ε' α}

theorem agrees_of_outcome_eq (h : r'.outcome = r.outcome) : Agrees s r r' := fun _ => h

theorem success_agrees (a : α) : Agrees s (success a : Reply ε α) (success a : Reply ε' α) :=
  agrees_of_outcome_eq rfl

/-- What has not ended within the scope is handed on, so it is the agreement of what went before
that counts. -/
theorem Agrees.handle {k : α → Reply ε β} {k' : α → Reply ε' β} {l : Failure → Reply ε β}
    {l' : Failure → Reply ε' β} (h : Agrees s r r') (hk : ∀ a, Agrees s (k a) (k' a))
    (hl : ∀ f, Agrees s (l f) (l' f)) : Agrees s (r.handle k l) (r'.handle k' l') := by
  intro hs
  obtain ⟨xs, o⟩ := r
  obtain ⟨ys, o'⟩ := r'
  cases o with
  | success a =>
    obtain rfl := h trivial
    exact hk a hs
  | failure f =>
    cases hf : f.committed with
    | true =>
      simp only [Reply.handle, hf] at hs
      obtain rfl := h hs
      simp [Reply.handle, hf]
    | false =>
      obtain rfl := h fun _ => hf
      simp only [Reply.handle, hf] at hs ⊢
      exact hl f hs
  | unfinished =>
    obtain rfl := h hs
    rfl

theorem Agrees.bind {k : α → Reply ε β} {k' : α → Reply ε' β} (h : Agrees s r r')
    (hk : ∀ a, Agrees s (k a) (k' a)) : Agrees s (r.bind k) (r'.bind k') :=
  h.handle hk fun _ => agrees_of_outcome_eq rfl

theorem Agrees.map {g : α → β} (h : Agrees s r r') : Agrees s (r.map g) (r'.map g) :=
  h.bind fun a => success_agrees (g a)

theorem Agrees.recover {l : Failure → Reply ε α} {l' : Failure → Reply ε' α} (h : Agrees s r r')
    (hl : ∀ f, Agrees s (l f) (l' f)) : Agrees s (r.recover l) (r'.recover l') :=
  h.handle success_agrees hl

theorem Agrees.mapFailure {g : Failure → Failure} (hg : ∀ f, (g f).committed = f.committed)
    (h : Agrees s r r') : Agrees s (r.mapFailure g) (r'.mapFailure g) := by
  intro hs
  have hr : s.Has r.outcome := by
    simp only [Reply.mapFailure] at hs
    split at hs
    · next f hf =>
      rw [hf]
      exact fun hu => (hg f).symm.trans (hs hu)
    · exact hs
  simp only [Reply.mapFailure, h hr]
  split
  · rfl
  · exact h hr

theorem has_of_commit {note : Location → List ε} (hs : s.Has (r.commit note).outcome) :
    s.Has r.outcome := by
  simp only [Reply.commit] at hs
  split at hs
  · next f hf =>
    split at hs
    · exact hs
    · exact hf ▸ fun hu => nomatch hs hu
  · exact hs

theorem Agrees.commit {note : Location → List ε} {note' : Location → List ε'}
    (h : Agrees s r r') : Agrees s (r.commit note) (r'.commit note') := by
  intro hs
  have hr := h (has_of_commit hs)
  simp only [Reply.commit, hr]
  split
  · split
    · exact hr
    · rfl
  · exact hr

/-- Without a commitment, what did not end in a committed failure ends in the same way. -/
theorem Agrees.uncommit {note : Location → List ε} (h : Agrees .uncommitted r r') :
    Agrees .uncommitted (r.commit note) r' := by
  intro hs
  rw [h (has_of_commit hs)]
  simp only [Reply.commit] at hs ⊢
  split
  · next f hf =>
    split
    · rfl
    · next hc =>
      simp only [hf, hc] at hs
      exact nomatch hs rfl
  · rfl

end Reply

open Reply

namespace Parser

/-- From every cursor `q` ends as `p` does, if `p` ends within the scope. -/
def Agrees (s : Scope) (p : Parser ε α) (q : Parser ε' α) : Prop :=
  ∀ c, Reply.Agrees s (p.run c) (q.run c)

variable {p : Parser ε α} {p' : Parser ε' α} {q : Parser ε β} {q' : Parser ε' β}

theorem Agrees.outcome_eq (hp : p.Agrees .ended p') {c : Cursor}
    (ended : (p.run c).outcome ≠ .unfinished) : (p'.run c).outcome = (p.run c).outcome := by
  apply hp c
  apply Scope.has_of
  · simp
  · intro hu
    exact absurd hu ended

theorem Agrees.map {g : α → β} (hp : p.Agrees s p') : (p.map g).Agrees s (p'.map g) :=
  fun c => (hp c).map

theorem Agrees.mapWithRange {g : α → Range → β} (hp : p.Agrees s p') :
    (p.mapWithRange g).Agrees s (p'.mapWithRange g) := fun c => (hp c).map

theorem Agrees.filterMap {g : α → Option β} {d : Option String} (hp : p.Agrees s p') :
    (p.filterMap g d).Agrees s (p'.filterMap g d) := fun c => (hp c).bind fun t => by
  cases g t.target <;> exact agrees_of_outcome_eq rfl

theorem Agrees.bindWithRange {k : α → Range → Parser ε β} {k' : α → Range → Parser ε' β}
    (hp : p.Agrees s p') (hk : ∀ a r, (k a r).Agrees s (k' a r)) :
    (p.bindWithRange k).Agrees s (p'.bindWithRange k') := fun c =>
  (hp c).bind fun t => (hk t.target t.range t.rest).map

theorem Agrees.andThen {γ : Type w} {g : α → β → Range → γ} (hp : p.Agrees s p')
    (hq : q.Agrees s q') : (andThen g p q).Agrees s (andThen g p' q') := fun c =>
  (hp c).bind fun t => (hq t.rest).map

theorem Agrees.orElse {q : Parser ε α} {q' : Parser ε' α} (hp : p.Agrees s p')
    (hq : q.Agrees s q') : (p.orElse q).Agrees s (p'.orElse q') := fun c =>
  (hp c).recover fun _ => hq c

theorem Agrees.commit {note : Location → List ε} {note' : Location → List ε'}
    (hp : p.Agrees s p') : (p.commit note).Agrees s (p'.commit note') := fun c => (hp c).commit

theorem Agrees.uncommit {note : Location → List ε} (hp : p.Agrees .uncommitted p') :
    (p.commit note).Agrees .uncommitted p' := fun c => (hp c).uncommit

theorem Agrees.tag {d : String} (hp : p.Agrees s p') : (p.tag d).Agrees s (p'.tag d) := fun c =>
  (hp c).mapFailure fun f => f.tag_committed d

theorem Agrees.lexeme (hp : p.Agrees s p') : p.lexeme.Agrees s p'.lexeme := fun c => (hp c).map

theorem Agrees.withDefault {a : α} (hp : p.Agrees s p') :
    (p.withDefault a).Agrees s (p'.withDefault a) := fun c =>
  (hp c).recover fun _ => success_agrees _

theorem char_agrees (k : CharClass) :
    (char k : Parser ε Char).Agrees s (char k : Parser ε' Char) := fun c => by
  simp only [char]
  split
  · split <;> exact agrees_of_outcome_eq rfl
  · exact agrees_of_outcome_eq rfl

theorem token_agrees (cs : List Char) :
    (token cs : Parser ε (List Char)).Agrees s (token cs : Parser ε' (List Char)) := fun c => by
  simp only [token]
  split <;> exact agrees_of_outcome_eq rfl

theorem pattern_agrees (p : Pattern) :
    (pattern p : Parser ε (List Char)).Agrees s (pattern p : Parser ε' (List Char)) := fun c => by
  simp only [pattern]
  split <;> exact agrees_of_outcome_eq rfl

theorem endOfText_agrees :
    (endOfText : Parser ε Unit).Agrees s (endOfText : Parser ε' Unit) := fun c => by
  simp only [endOfText]
  split <;> exact agrees_of_outcome_eq rfl

theorem Agrees.repeatFrom (hp : p.Agrees s p') (bound : List Char) (c : Cursor) :
    Reply.Agrees s (repeatFrom p bound c) (repeatFrom p' bound c) := by
  induction bound generalizing c with
  | nil => exact agrees_of_outcome_eq rfl
  | cons x bound ih =>
    refine (hp c).handle (fun t => ?_) fun _ => success_agrees _
    split
    · exact success_agrees _
    · exact (ih t.rest).map

theorem Agrees.many (hp : p.Agrees s p') : p.many.Agrees s p'.many := fun c =>
  (hp.repeatFrom _ c).map

theorem Agrees.many1 (hp : p.Agrees s p') : p.many1.Agrees s p'.many1 := fun c =>
  (hp c).bind fun t => (hp.repeatFrom _ t.rest).map

theorem Agrees.timesFrom (hp : p.Agrees s p') (n : Nat) (c : Cursor) :
    Reply.Agrees s (timesFrom p n c) (timesFrom p' n c) := by
  induction n generalizing c with
  | zero => exact success_agrees _
  | succ n ih => exact (hp c).bind fun t => (ih t.rest).map

theorem Agrees.times {n : Nat} (hp : p.Agrees s p') : (times n p).Agrees s (times n p') :=
  fun c => (hp.timesFrom n c).map

theorem Agrees.sepBy1 (hp : p.Agrees s p') (hq : q.Agrees s q') :
    (sepBy1 p q).Agrees s (sepBy1 p' q') := fun c =>
  (hp c).bind fun t => ((hq.andThen hp).repeatFrom _ t.rest).map

theorem Agrees.sepBy (hp : p.Agrees s p') (hq : q.Agrees s q') :
    (sepBy p q).Agrees s (sepBy p' q') := (hp.sepBy1 hq).withDefault

theorem Agrees.linksFrom (hp : p.Agrees s p') (hq : q.Agrees s q') (bound : List Char)
    (c : Cursor) : Reply.Agrees s (linksFrom p q bound c) (linksFrom p' q' bound c) := by
  induction bound generalizing c with
  | nil => exact agrees_of_outcome_eq rfl
  | cons x bound ih =>
    refine (hq c).handle (fun o => ?_) fun _ => success_agrees _
    exact (hp o.rest).handle (fun t => (ih t.rest).map) fun _ => success_agrees _

theorem Agrees.chainLeft {g : β → α → α → Range → α} (hp : p.Agrees s p') (hq : q.Agrees s q') :
    (chainLeft g p q).Agrees s (chainLeft g p' q') := fun c =>
  (hp c).bind fun t => (hp.linksFrom hq _ t.rest).map

theorem Agrees.chainRight {g : β → α → α → Range → α} (hp : p.Agrees s p') (hq : q.Agrees s q') :
    (chainRight g p q).Agrees s (chainRight g p' q') := fun c =>
  (hp c).bind fun t => (hp.linksFrom hq _ t.rest).map

theorem Agrees.suffixesFrom (hq : q.Agrees s q') (bound : List Char) (c : Cursor) :
    Reply.Agrees s (suffixesFrom q bound c) (suffixesFrom q' bound c) := by
  induction bound generalizing c with
  | nil => exact agrees_of_outcome_eq rfl
  | cons x bound ih => exact (hq c).handle (fun t => (ih t.rest).map) fun _ => success_agrees _

theorem Agrees.chainSuffix {g : β → α → Range → α} (hp : p.Agrees s p') (hq : q.Agrees s q') :
    (chainSuffix g p q).Agrees s (chainSuffix g p' q') := fun c =>
  (hp c).bind fun t => (hq.suffixesFrom _ t.rest).map

end Parser

/-- How deep references may be followed by two parsers that are compared: where a run need not end,
equally deep, else the second one may go deeper. -/
structure Scope.Depths (s : Scope) (d d' : Nat) : Prop where
  le : d ≤ d'
  eq : s = all → d = d'

theorem Scope.Depths.refl (s : Scope) (d : Nat) : s.Depths d d := ⟨Nat.le_refl d, fun _ => rfl⟩

/-- References that are not followed do not end; those that are, are followed one deeper. -/
theorem Parser.agrees_of_depths {ι : Type} (f : Nat → ι → Parser ε α) (f' : Nat → ι → Parser ε' α)
    (h0 : ∀ i c, ((f 0 i).run c).outcome = .unfinished)
    (h0' : ∀ i c, ((f' 0 i).run c).outcome = .unfinished)
    (hf : ∀ d d', (∀ i, (f d i).Agrees s (f' d' i)) → ∀ i, (f (d + 1) i).Agrees s (f' (d' + 1) i))
    {d d' : Nat} (hd : s.Depths d d') (i : ι) : (f d i).Agrees s (f' d' i) := by
  induction d generalizing d' i with
  | zero =>
    intro c hs
    rw [h0] at hs
    obtain rfl := hd.eq hs
    rw [h0, h0']
  | succ d ih =>
    cases d' with
    | zero => exact absurd hd.le (Nat.not_succ_le_zero d)
    | succ d' =>
      exact hf d d' (ih ⟨Nat.le_of_succ_le_succ hd.le, fun h => Nat.succ.inj (hd.eq h)⟩) i

theorem Parser.Agrees.unroll {body : Parser ε α → Parser ε α} {body' : Parser ε' α → Parser ε' α}
    (hb : ∀ p p', p.Agrees s p' → (body p).Agrees s (body' p')) {d d' : Nat}
    (hd : s.Depths d d') : (Parser.mk (unroll body d)).Agrees s (Parser.mk (unroll body' d')) :=
  agrees_of_depths (fun d _ => ⟨Parser.unroll body d⟩) (fun d _ => ⟨Parser.unroll body' d⟩)
    (fun _ _ => rfl) (fun _ _ => rfl) (fun _ _ h _ => hb _ _ (h ())) hd ()

end

namespace Grammar

variable {n k : Nat} {ε ε' : Type} {s : Scope} {R : Recorder n ε} {R' : Recorder n ε'}

theorem watch_agrees {a a' : Grammar n k} {p : Parser ε Value} {p' : Parser ε' Value}
    (h : p.Agrees s p') : (R.watch a p).Agrees s (R'.watch a' p') := h

/-- How a grammar is recorded does not matter for how its runs end, and where they end, neither does
a greater depth. -/
theorem toParser_agrees {depth depth' : Nat} (hd : s.Depths depth depth')
    {rules : Fin n → Parser ε Value} {rules' : Fin n → Parser ε' Value}
    (hr : ∀ i, (rules i).Agrees s (rules' i)) (a : Grammar n k) {h : Fin k → Parser ε Value}
    {h' : Fin k → Parser ε' Value} (hh : ∀ i, (h i).Agrees s (h' i)) :
    (a.toParser R depth rules h).Agrees s (a.toParser R' depth' rules' h') := by
  induction a with
  | succeed | failHere | peek | dangling => exact fun c => Reply.agrees_of_outcome_eq rfl
  | char s => exact (Parser.char_agrees s).map
  | token cs => exact (Parser.token_agrees cs).map
  | pattern p => exact (Parser.pattern_agrees p).map
  | endOfText => exact Parser.endOfText_agrees.map
  | mapWithRange g a ih => exact (watch_agrees (ih hh)).mapWithRange
  | filterMap g d a ih => exact (watch_agrees (ih hh)).filterMap
  | bindWithRange a next iha ihn =>
    exact (watch_agrees (iha hh)).bindWithRange fun v r => watch_agrees (ihn v r hh)
  | andThen g a b iha ihb => exact (watch_agrees (iha hh)).andThen (watch_agrees (ihb hh))
  | orElse a b iha ihb => exact (watch_agrees (iha hh)).orElse (watch_agrees (ihb hh))
  | commit a ih => exact (watch_agrees (ih hh)).commit
  | tag d a ih => exact (watch_agrees (ih hh)).tag
  | lexeme a ih => exact (watch_agrees (ih hh)).lexeme.map
  | withDefault v a ih => exact (watch_agrees (ih hh)).withDefault
  | many a ih => exact (watch_agrees (ih hh)).many.map
  | many1 a ih => exact (watch_agrees (ih hh)).many1.map
  | times m a ih => exact (watch_agrees (ih hh)).times.map
  | sepBy1 a sep iha ihs => exact ((watch_agrees (iha hh)).sepBy1 (watch_agrees (ihs hh))).map
  | sepBy a sep iha ihs => exact ((watch_agrees (iha hh)).sepBy (watch_agrees (ihs hh))).map
  | chainLeft g a o iha iho => exact (watch_agrees (iha hh)).chainLeft (watch_agrees (iho hh))
  | chainRight g a o iha iho => exact (watch_agrees (iha hh)).chainRight (watch_agrees (iho hh))
  | chainSuffix g a s iha ihs => exact (watch_agrees (iha hh)).chainSuffix (watch_agrees (ihs hh))
  | recursive body ih =>
    exact .unroll (fun p p' hp => watch_agrees (ih (Fin.cases hp hh))) hd
  | ref i => exact hh i
  | rule i => exact hr i

theorem runRule_agrees (rules : Rules n) {depth depth' m m' : Nat} (hd : s.Depths depth depth')
    (hm : s.Depths m m') (i : Fin n) :
    (Parser.mk (runRule R rules depth m i)).Agrees s (Parser.mk (runRule R' rules depth' m' i)) :=
  Parser.agrees_of_depths (fun m i => ⟨runRule R rules depth m i⟩)
    (fun m i => ⟨runRule R' rules depth' m i⟩) (fun _ _ => rfl) (fun _ _ => rfl)
    (fun _ _ h i => watch_agrees (toParser_agrees hd h (rules i) nofun)) hm i

theorem recordedAt_agrees (rules : Rules n) {depth depth' : Nat} (hd : s.Depths depth depth')
    (a : Grammar n 0) :
    (a.recordedAt R rules depth).Agrees s (a.recordedAt R' rules depth') :=
  toParser_agrees hd (runRule_agrees rules hd hd) a nofun

/-- A run that ends at some depth ends in the same way at every greater one. -/
theorem parserAt_outcome_mono (rules : Rules n) {depth depth' : Nat} (hd : depth ≤ depth')
    (a : Grammar n 0) (c : Cursor)
    (h : ((a.parserAt rules depth).run c).outcome ≠ .unfinished) :
    ((a.parserAt rules depth').run c).outcome = ((a.parserAt rules depth).run c).outcome := by
  have deeper : Scope.ended.Depths depth depth' := ⟨hd, nofun⟩
  exact (recordedAt_agrees rules deeper a).outcome_eq h

/-- The run that is logged ends as the parser does. -/
theorem runAt_outcome (rules : Rules n) (depth : Nat) (a : Grammar n 0) (c : Cursor) :
    (a.runAt rules depth c).outcome = ((a.parserAt rules depth).run c).outcome := by
  apply recordedAt_agrees (s := .all) rules (.refl _ _) a c
  apply Scope.has_of <;> simp

/-- The run of `a` from `c` ends, in `o`. -/
def EndsIn (rules : Rules n) (a : Grammar n 0) (c : Cursor) (o : Outcome (Parse Value)) : Prop :=
  ∃ depth, ((a.parserAt rules depth).run c).outcome = o ∧ o ≠ .unfinished

theorem EndsIn.of_agrees {n' : Nat} {rules : Rules n} {rules' : Rules n'} {a : Grammar n 0}
    {b : Grammar n' 0} {c : Cursor} {o : Outcome (Parse Value)} (e : Nat → Nat)
    (h : ∀ depth, (a.parserAt rules depth).Agrees .ended (b.parserAt rules' (e depth)))
    (ha : a.EndsIn rules c o) : b.EndsIn rules' c o := by
  obtain ⟨depth, rfl, ended⟩ := ha
  exact ⟨e depth, (h depth).outcome_eq ended, ended⟩

theorem EndsIn.unique {rules : Rules n} {a : Grammar n 0} {c : Cursor}
    {o o' : Outcome (Parse Value)} (h : a.EndsIn rules c o) (h' : a.EndsIn rules c o') :
    o' = o := by
  obtain ⟨d, rfl, ended⟩ := h
  obtain ⟨d', rfl, ended'⟩ := h'
  have more := parserAt_outcome_mono rules (Nat.le_add_right d d') a c ended
  have more' := parserAt_outcome_mono rules (Nat.le_add_left d' d) a c ended'
  exact more'.symm.trans more

end Grammar

end TextParsing
