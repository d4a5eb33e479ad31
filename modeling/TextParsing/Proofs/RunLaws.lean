import TextParsing.Grammar.Meaning

/-!
What a run can do. A run ends with the failure of the last part it ran, adorned if its grammar does
that, or it fails of itself, or it does not fail; and no part was run after one that ended in a
committed failure. All else about the runs inside a run follows from this.
-/

namespace TextParsing

universe u v w

namespace Run

variable {n k : Nat}

def Committed (t : Run n) : Prop := ∃ f, t.outcome = .failure f ∧ f.committed = true

theorem not_committed {t : Run n} (h : ∀ f, t.outcome ≠ .failure f) : ¬ t.Committed :=
  fun ⟨f, hf, _⟩ => h f hf

def Of (a : Grammar n k) (c : Cursor) (t : Run n) : Prop := ∃ o ts, t = node a c o ts

/-- An outcome after the runs `ts`, of which only the last may have ended in a committed failure:
what `g` makes of the failure of that one, or no failure at all. -/
inductive Relays {α : Type u} (g : Failure → Failure) : List (Run n) → Outcome α → Prop
  | settled {ts : List (Run n)} {o : Outcome α} (h : ∀ t ∈ ts, ¬ t.Committed)
    (ho : ∀ f, o ≠ .failure f) : Relays g ts o
  | passed {ts : List (Run n)} {t : Run n} {f : Failure} (h : ∀ t ∈ ts, ¬ t.Committed)
    (hf : t.outcome = .failure f) : Relays g (ts ++ [t]) (.failure (g f))

/-- A run that is the last part is relayed as it is. -/
theorem relays_self (t : Run n) : Relays id [t] t.outcome := by
  cases ho : t.outcome with
  | failure f => exact .passed (List.forall_mem_nil _) ho
  | success u =>
    apply Relays.settled
    · exact List.forall_mem_singleton.2 (not_committed (by simp [ho]))
    · simp
  | unfinished =>
    apply Relays.settled
    · exact List.forall_mem_singleton.2 (not_committed (by simp [ho]))
    · simp

end Run

namespace Grammar

variable {n k : Nat}

/-- What a grammar makes of the failure of a part. -/
def adorn : Grammar n k → Failure → Failure
  | commit _, f => f.commit
  | tag d _, f => f.tag d
  | _, f => f

/-- Whether a grammar, having run `ts`, can fail of itself: it has no parts, or it refuses what its
part has produced. -/
def Refuses : Grammar n k → List (Run n) → Prop
  | failHere _, ts | char _, ts | token _, ts | pattern _, ts | endOfText, ts | dangling, ts =>
    ts = []
  | filterMap g _ _, ts => ∃ t u, ts = [t] ∧ t.outcome = .success u ∧ g u.target = none
  | _, _ => False

/-- What is refused has been a success. -/
theorem Refuses.not_failed {a : Grammar n k} {ts : List (Run n)} (h : a.Refuses ts) :
    ∀ t ∈ ts, ∀ f, t.outcome ≠ .failure f := by
  cases a with
  | failHere | char | token | pattern | endOfText | dangling =>
    obtain rfl : ts = [] := h
    simp
  | filterMap g d a =>
    obtain ⟨t, u, rfl, ht, -⟩ := h
    simp [ht]
  | _ => exact h.elim

/-- How a run of `a` from `c` may end after it has run the parts `ts`. -/
def Concludes (a : Grammar n k) (c : Cursor) (ts : List (Run n)) (o : Outcome (Parse Value)) :
    Prop :=
  Run.Relays a.adorn ts o ∨ a.Refuses ts ∧ ∃ f, o = .failure f ∧ f.cursor = c

/-- Which parts are run: the second alternative from the same place, if and only if the first has
failed recoverably. -/
def Arranges : Grammar n k → Cursor → List (Run n) → Prop
  | orElse a b, c, ts =>
    (∃ t, ts = [t] ∧ t.Of a c ∧ ∀ f, t.outcome = .failure f → f.committed = true) ∨
    ∃ t u, ts = [t, u] ∧ t.Of a c ∧ u.Of b c ∧ ∃ f, t.outcome = .failure f ∧ f.committed = false
  | _, _, _ => True

end Grammar

/-- A run that does, inside and outside, what runs of its grammar can do. -/
inductive Run.Lawful {n : Nat} : Run n → Prop
  | node {k : Nat} {a : Grammar n k} {c : Cursor} {o : Outcome (Parse Value)} {ts : List (Run n)}
    (ends : a.Concludes c ts o) (arranges : a.Arranges c ts) (parts : ∀ t ∈ ts, t.Lawful) :
    Lawful (.node a c o ts)

theorem Run.Lawful.parts {n : Nat} {t : Run n} (h : t.Lawful) : ∀ s ∈ t.parts, s.Lawful := by
  cases h with
  | node _ _ parts => exact parts

section

variable {n : Nat} {α : Type u} {β : Type v}

namespace Reply

/-- The reply hands on the failure of the last run in its log, and all of these are lawful. -/
structure Orderly (r : Reply (Run n) α) : Prop where
  ends : Run.Relays id r.log r.outcome
  lawful : ∀ t ∈ r.log, t.Lawful

variable {r : Reply (Run n) α}

theorem success_orderly (a : α) : (success a : Reply (Run n) α).Orderly :=
  ⟨.settled nofun nofun, nofun⟩

theorem unfinished_orderly : (unfinished : Reply (Run n) α).Orderly := ⟨.settled nofun nofun, nofun⟩

theorem Orderly.after {xs : List (Run n)} (h : r.Orderly) (hc : ∀ t ∈ xs, ¬ t.Committed)
    (hl : ∀ t ∈ xs, t.Lawful) : (r.after xs).Orderly := by
  obtain ⟨ys, o⟩ := r
  refine ⟨?_, List.forall_mem_append.2 ⟨hl, h.lawful⟩⟩
  cases h.ends with
  | settled hy ho => exact .settled (List.forall_mem_append.2 ⟨hc, hy⟩) ho
  | @passed ts t f hy hf =>
    have := Run.Relays.passed (α := α) (g := id) (List.forall_mem_append.2 ⟨hc, hy⟩) hf
    rwa [List.append_assoc] at this

/-- After a success or a recoverable failure nothing in the log is committed. -/
theorem Orderly.not_committed (h : r.Orderly)
    (ho : ∀ f, r.outcome = .failure f → f.committed = false) : ∀ t ∈ r.log, ¬ t.Committed := by
  obtain ⟨ys, o⟩ := r
  cases h.ends with
  | settled hy _ => exact hy
  | passed hy hf =>
    refine List.forall_mem_append.2 ⟨hy, List.forall_mem_singleton.2 ?_⟩
    rintro ⟨g, hg, hc⟩
    rw [hf] at hg
    cases hg
    exact Bool.false_ne_true ((ho _ rfl).symm.trans hc)

theorem Orderly.failed {xs : List (Run n)} {f : Failure}
    (h : (Reply.mk xs (.failure f) : Reply (Run n) α).Orderly) :
    (Reply.mk xs (.failure f) : Reply (Run n) β).Orderly := by
  refine ⟨?_, h.lawful⟩
  cases h.ends with
  | settled _ ho => exact absurd rfl (ho f)
  | passed hy hf => exact .passed hy hf

theorem Orderly.handle {k : α → Reply (Run n) β} {l : Failure → Reply (Run n) β} (h : r.Orderly)
    (hk : ∀ a, (k a).Orderly) (hl : ∀ f, (l f).Orderly) : (r.handle k l).Orderly := by
  have hc := h.not_committed
  obtain ⟨xs, o⟩ := r
  cases o with
  | success a => exact (hk a).after (hc (by simp)) h.lawful
  | failure f =>
    cases hf : f.committed with
    | true =>
      simp only [Reply.handle, hf]
      exact h.failed
    | false =>
      simp only [Reply.handle, hf]
      exact (hl f).after (hc (by simp [hf])) h.lawful
  | unfinished => exact ⟨.settled (hc (by simp)) (by simp [Reply.handle]), h.lawful⟩

theorem Orderly.bind_of_success {k : α → Reply (Run n) β} (h : r.Orderly)
    (hk : ∀ a, r.outcome = .success a → (k a).Orderly) : (r.bind k).Orderly := by
  have hc := h.not_committed
  obtain ⟨xs, o⟩ := r
  cases o with
  | success a => exact (hk a rfl).after (hc (by simp)) h.lawful
  | failure f =>
    cases hf : f.committed <;>
      simpa [Reply.bind, Reply.handle, failure, Reply.after, hf] using h.failed
  | unfinished => exact ⟨.settled (hc (by simp)) (by simp [Reply.bind, Reply.handle]), h.lawful⟩

theorem Orderly.bind {k : α → Reply (Run n) β} (h : r.Orderly) (hk : ∀ a, (k a).Orderly) :
    (r.bind k).Orderly := h.bind_of_success fun a _ => hk a

theorem Orderly.map {g : α → β} (h : r.Orderly) : (r.map g).Orderly :=
  h.bind fun a => success_orderly (g a)

theorem Orderly.recover {l : Failure → Reply (Run n) α} (h : r.Orderly) (hl : ∀ f, (l f).Orderly) :
    (r.recover l).Orderly := h.handle success_orderly hl

/-- With nothing logged, to commit is to change the failure. -/
theorem commit_eq_mapFailure : r.commit (fun _ => []) = r.mapFailure Failure.commit := by
  obtain ⟨xs, o⟩ := r
  cases o with
  | failure f =>
    obtain ⟨c, d, t, committed⟩ := f
    cases committed <;> simp [commit, mapFailure, Failure.commit]
  | success a => rfl
  | unfinished => rfl

end Reply

open Reply

namespace Parser

def Orderly (p : Parser (Run n) α) : Prop := ∀ c, (p.run c).Orderly

variable {p : Parser (Run n) α} {q : Parser (Run n) β}

theorem Orderly.map {g : α → β} (hp : p.Orderly) : (p.map g).Orderly := fun c => (hp c).map

theorem Orderly.mapWithRange {g : α → Range → β} (hp : p.Orderly) : (p.mapWithRange g).Orderly :=
  fun c => (hp c).map

theorem Orderly.bindWithRange {k : α → Range → Parser (Run n) β} (hp : p.Orderly)
    (hk : ∀ a r, (k a r).Orderly) : (p.bindWithRange k).Orderly := fun c =>
  (hp c).bind fun t => (hk t.target t.range t.rest).map

theorem Orderly.andThen {γ : Type w} {g : α → β → Range → γ} (hp : p.Orderly) (hq : q.Orderly) :
    (andThen g p q).Orderly := fun c => (hp c).bind fun t => (hq t.rest).map

theorem Orderly.orElse {q : Parser (Run n) α} (hp : p.Orderly) (hq : q.Orderly) :
    (p.orElse q).Orderly := fun c => (hp c).recover fun _ => hq c

theorem Orderly.lexeme (hp : p.Orderly) : p.lexeme.Orderly := fun c => (hp c).map

theorem Orderly.withDefault {a : α} (hp : p.Orderly) : (p.withDefault a).Orderly := fun c =>
  (hp c).recover fun _ => success_orderly _

theorem Orderly.repeatFrom (hp : p.Orderly) (bound : List Char) (c : Cursor) :
    (repeatFrom p bound c).Orderly := by
  induction bound generalizing c with
  | nil => exact unfinished_orderly
  | cons x bound ih =>
    refine (hp c).handle (fun t => ?_) fun _ => success_orderly _
    split
    · exact success_orderly _
    · exact (ih t.rest).map

theorem Orderly.many (hp : p.Orderly) : p.many.Orderly := fun c => (hp.repeatFrom _ c).map

theorem Orderly.many1 (hp : p.Orderly) : p.many1.Orderly := fun c =>
  (hp c).bind fun t => (hp.repeatFrom _ t.rest).map

theorem Orderly.timesFrom (hp : p.Orderly) (m : Nat) (c : Cursor) : (timesFrom p m c).Orderly := by
  induction m generalizing c with
  | zero => exact success_orderly _
  | succ m ih => exact (hp c).bind fun t => (ih t.rest).map

theorem Orderly.times {m : Nat} (hp : p.Orderly) : (times m p).Orderly := fun c =>
  (hp.timesFrom m c).map

theorem Orderly.sepBy1 (hp : p.Orderly) (hq : q.Orderly) : (sepBy1 p q).Orderly := fun c =>
  (hp c).bind fun t => ((hq.andThen hp).repeatFrom _ t.rest).map

theorem Orderly.sepBy (hp : p.Orderly) (hq : q.Orderly) : (sepBy p q).Orderly :=
  (hp.sepBy1 hq).withDefault

theorem Orderly.linksFrom (hp : p.Orderly) (hq : q.Orderly) (bound : List Char) (c : Cursor) :
    (linksFrom p q bound c).Orderly := by
  induction bound generalizing c with
  | nil => exact unfinished_orderly
  | cons x bound ih =>
    refine (hq c).handle (fun o => ?_) fun _ => success_orderly _
    exact (hp o.rest).handle (fun t => (ih t.rest).map) fun _ => success_orderly _

theorem Orderly.chainLeft {g : β → α → α → Range → α} (hp : p.Orderly) (hq : q.Orderly) :
    (chainLeft g p q).Orderly := fun c => (hp c).bind fun t => (hp.linksFrom hq _ t.rest).map

theorem Orderly.chainRight {g : β → α → α → Range → α} (hp : p.Orderly) (hq : q.Orderly) :
    (chainRight g p q).Orderly := fun c => (hp c).bind fun t => (hp.linksFrom hq _ t.rest).map

theorem Orderly.suffixesFrom (hq : q.Orderly) (bound : List Char) (c : Cursor) :
    (suffixesFrom q bound c).Orderly := by
  induction bound generalizing c with
  | nil => exact unfinished_orderly
  | cons x bound ih => exact (hq c).handle (fun t => (ih t.rest).map) fun _ => success_orderly _

theorem Orderly.chainSuffix {g : β → α → Range → α} (hp : p.Orderly) (hq : q.Orderly) :
    (chainSuffix g p q).Orderly := fun c => (hp c).bind fun t => (hq.suffixesFrom _ t.rest).map

theorem unroll_orderly {body : Parser (Run n) α → Parser (Run n) α}
    (hb : ∀ q, q.Orderly → (body q).Orderly) (m : Nat) : (Parser.mk (unroll body m)).Orderly := by
  induction m with
  | zero => exact fun _ => unfinished_orderly
  | succ m ih => exact fun c => hb _ ih c

end Parser

end

namespace Grammar

variable {n k : Nat} {a b : Grammar n k} {c : Cursor} {p q : Parser (Run n) Value}

theorem run_watch :
    (Recorder.runs.watch a p).run c = ⟨[.ofReply a c (p.run c)], (p.run c).outcome⟩ := rfl

/-- The log of a recorded part is its run, which ends as the part does. -/
theorem watch_orderly (hp : ∀ c, (Run.ofReply a c (p.run c)).Lawful) :
    (Recorder.runs.watch a p).Orderly := fun c =>
  ⟨Run.relays_self (.ofReply a c (p.run c)), List.forall_mem_singleton.2 (hp c)⟩

theorem lawful_success (hc : a.Arranges c []) (t : Parse Value) :
    (Run.ofReply a c (.success t)).Lawful := .node (.inl (.settled nofun nofun)) hc nofun

theorem lawful_failure (ha : a.Refuses []) (hc : a.Arranges c []) {f : Failure}
    (hf : f.cursor = c) : (Run.ofReply a c (.failure f)).Lawful :=
  .node (.inr ⟨ha, f, rfl, hf⟩) hc nofun

theorem lawful_ofReply {r : Reply (Run n) (Parse Value)} (h : r.Orderly) (ha : ∀ f, a.adorn f = f)
    (hc : a.Arranges c r.log) : (Run.ofReply a c r).Lawful := by
  have ends := h.ends
  rw [show id = a.adorn from (funext ha).symm] at ends
  exact .node (.inl ends) hc h.lawful

theorem lawful_filterMap {g : Value → Option Value} {d : Option String}
    (hp : ∀ c, (Run.ofReply a c (p.run c)).Lawful) :
    (Run.ofReply (filterMap g d a) c (((Recorder.runs.watch a p).filterMap g d).run c)).Lawful := by
  have hw := watch_orderly hp c
  by_cases refused : ∃ t, (p.run c).outcome = .success t ∧ g t.target = none
  · obtain ⟨t, ho, hg⟩ := refused
    simp only [Parser.filterMap, run_watch, ho, Reply.bind, Reply.handle, hg]
    exact .node (.inr ⟨⟨_, t, rfl, ho, hg⟩, _, rfl, rfl⟩) trivial hw.lawful
  · refine lawful_ofReply (hw.bind_of_success ?_) (fun _ => rfl) trivial
    intro t ho
    cases hg : g t.target with
    | some v => exact Reply.success_orderly _
    | none => exact absurd ⟨t, ho, hg⟩ refused

theorem lawful_mapFailure {g : Failure → Failure} (ha : ∀ f, b.adorn f = g f)
    (hb : ∀ ts : List (Run n), b.Arranges c ts)
    (hp : ∀ c, (Run.ofReply a c (p.run c)).Lawful) :
    (Run.ofReply b c (((Recorder.runs.watch a p).run c).mapFailure g)).Lawful := by
  have hw := watch_orderly hp c
  generalize (Recorder.runs.watch a p).run c = r at hw
  obtain ⟨ts, o⟩ := r
  refine .node (.inl ?_) (hb _) ?_
  · cases hw.ends with
    | settled h ho =>
      cases o with
      | failure f => exact absurd rfl (ho f)
      | success u => exact .settled h nofun
      | unfinished => exact .settled h nofun
    | passed h hf =>
      have := Run.Relays.passed (α := Parse Value) (g := b.adorn) h hf
      rwa [ha] at this
  · cases o <;> exact hw.lawful

theorem arranges_orElse :
    (orElse a b).Arranges c
      (((Recorder.runs.watch a p).orElse (Recorder.runs.watch b q)).run c).log := by
  simp only [Parser.orElse, run_watch]
  cases ho : (p.run c).outcome with
  | success t => exact .inl ⟨_, rfl, ⟨_, _, rfl⟩, fun f hf => nomatch ho.symm.trans hf⟩
  | unfinished => exact .inl ⟨_, rfl, ⟨_, _, rfl⟩, fun f hf => nomatch ho.symm.trans hf⟩
  | failure f =>
    cases hf : f.committed with
    | true =>
      simp only [Reply.recover, Reply.handle, hf]
      refine .inl ⟨_, rfl, ⟨_, _, rfl⟩, fun g hg => ?_⟩
      cases ho.symm.trans hg
      exact hf
    | false =>
      simp only [Reply.recover, Reply.handle, hf]
      exact .inr ⟨_, _, rfl, ⟨_, _, rfl⟩, ⟨_, _, rfl⟩, f, ho, hf⟩

theorem toParser_lawful {depth : Nat} {rules : Fin n → Parser (Run n) Value}
    (hr : ∀ i, (rules i).Orderly) (a : Grammar n k) {h : Fin k → Parser (Run n) Value}
    (hh : ∀ i, (h i).Orderly) (c : Cursor) :
    (Run.ofReply a c ((a.toParser .runs depth rules h).run c)).Lawful := by
  induction a generalizing c with
  | succeed v => exact lawful_success (by trivial) _
  | peek s => exact lawful_success (by trivial) _
  | failHere f => exact lawful_failure (by trivial) (by trivial) rfl
  | dangling => exact lawful_failure (by trivial) (by trivial) rfl
  | char s =>
    simp only [toParser, Parser.run_map, Parser.char]
    split
    · split
      · exact lawful_success (by trivial) _
      · exact lawful_failure (by trivial) (by trivial) rfl
    · exact lawful_failure (by trivial) (by trivial) rfl
  | token cs =>
    simp only [toParser, Parser.run_map, Parser.token]
    split
    · exact lawful_success (by trivial) _
    · exact lawful_failure (by trivial) (by trivial) rfl
  | pattern p =>
    simp only [toParser, Parser.run_map, Parser.pattern]
    split
    · exact lawful_success (by trivial) _
    · exact lawful_failure (by trivial) (by trivial) rfl
  | endOfText =>
    simp only [toParser, Parser.run_map, Parser.endOfText]
    split
    · exact lawful_success (by trivial) _
    · exact lawful_failure (by trivial) (by trivial) rfl
  | mapWithRange g a ih =>
    exact lawful_ofReply ((watch_orderly (ih hh)).mapWithRange c) (fun _ => rfl) trivial
  | filterMap g d a ih => exact lawful_filterMap (ih hh)
  | bindWithRange a next iha ihn =>
    have hn v r := watch_orderly (ihn v r hh)
    exact lawful_ofReply ((watch_orderly (iha hh)).bindWithRange hn c) (fun _ => rfl) trivial
  | andThen g a b iha ihb =>
    have ha := watch_orderly (iha hh)
    have hb := watch_orderly (ihb hh)
    exact lawful_ofReply (ha.andThen hb c) (fun _ => rfl) trivial
  | orElse a b iha ihb =>
    have ha := watch_orderly (iha hh)
    have hb := watch_orderly (ihb hh)
    exact lawful_ofReply (ha.orElse hb c) (fun _ => rfl) arranges_orElse
  | commit a ih =>
    simp only [toParser, Parser.commit, Recorder.runs, Reply.commit_eq_mapFailure]
    exact lawful_mapFailure (fun _ => rfl) (fun _ => trivial) (ih hh)
  | tag d a ih => exact lawful_mapFailure (fun _ => rfl) (fun _ => trivial) (ih hh)
  | lexeme a ih =>
    exact lawful_ofReply ((watch_orderly (ih hh)).lexeme.map c) (fun _ => rfl) trivial
  | withDefault v a ih =>
    exact lawful_ofReply ((watch_orderly (ih hh)).withDefault c) (fun _ => rfl) trivial
  | many a ih => exact lawful_ofReply ((watch_orderly (ih hh)).many.map c) (fun _ => rfl) trivial
  | many1 a ih => exact lawful_ofReply ((watch_orderly (ih hh)).many1.map c) (fun _ => rfl) trivial
  | times m a ih =>
    exact lawful_ofReply ((watch_orderly (ih hh)).times.map c) (fun _ => rfl) trivial
  | sepBy1 a sep iha ihs =>
    have ha := watch_orderly (iha hh)
    have hs := watch_orderly (ihs hh)
    exact lawful_ofReply ((ha.sepBy1 hs).map c) (fun _ => rfl) trivial
  | sepBy a sep iha ihs =>
    have ha := watch_orderly (iha hh)
    have hs := watch_orderly (ihs hh)
    exact lawful_ofReply ((ha.sepBy hs).map c) (fun _ => rfl) trivial
  | chainLeft g a o iha iho =>
    have ha := watch_orderly (iha hh)
    have ho := watch_orderly (iho hh)
    exact lawful_ofReply (ha.chainLeft ho c) (fun _ => rfl) trivial
  | chainRight g a o iha iho =>
    have ha := watch_orderly (iha hh)
    have ho := watch_orderly (iho hh)
    exact lawful_ofReply (ha.chainRight ho c) (fun _ => rfl) trivial
  | chainSuffix g a s iha ihs =>
    have ha := watch_orderly (iha hh)
    have hs := watch_orderly (ihs hh)
    exact lawful_ofReply (ha.chainSuffix hs c) (fun _ => rfl) trivial
  | recursive body ih =>
    have hb q (hq : Parser.Orderly q) := watch_orderly (ih (h := Fin.cases q h) (Fin.cases hq hh))
    exact lawful_ofReply (Parser.unroll_orderly hb depth c) (fun _ => rfl) trivial
  | ref i => exact lawful_ofReply (hh i c) (fun _ => rfl) trivial
  | rule i => exact lawful_ofReply (hr i c) (fun _ => rfl) trivial

theorem runRule_orderly (rules : Rules n) (depth m : Nat) (i : Fin n) :
    (Parser.mk (runRule .runs rules depth m i)).Orderly := by
  induction m generalizing i with
  | zero => exact fun _ => Reply.unfinished_orderly
  | succ m ih => exact watch_orderly (toParser_lawful ih (rules i) nofun)

theorem runAt_lawful (rules : Rules n) (depth : Nat) (a : Grammar n 0) (c : Cursor) :
    (a.runAt rules depth c).Lawful :=
  toParser_lawful (runRule_orderly rules depth depth) a nofun c

end Grammar

end TextParsing
