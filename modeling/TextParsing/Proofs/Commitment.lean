import TextParsing.Proofs.Agreement
import TextParsing.Proofs.RunLaws

/-!
A committed failure ends everything. The events of a run are its beginning, those of its parts in
order, and its end; after one run has ended in a committed failure no run begins, and every run that
was still under way ends in the same failure.
-/

namespace TextParsing

variable {n k : Nat}

/-- What is seen of a run while it happens. -/
inductive Event (n : Nat) : Type
  | enter {k : Nat} (a : Grammar n k) (c : Cursor)
  | leave {k : Nat} (a : Grammar n k) (c : Cursor) (o : Outcome (Parse Value))

namespace Event

/-- A run ends with the failure `f`. -/
def Fails (e : Event n) (f : Failure) : Prop :=
  ∃ (k : Nat) (a : Grammar n k) (c : Cursor), e = leave a c (.failure f)

@[simp] theorem not_fails_enter {a : Grammar n k} {c : Cursor} {f : Failure} :
    ¬ (enter a c).Fails f := nofun

@[simp] theorem fails_leave {a : Grammar n k} {c : Cursor} {o : Outcome (Parse Value)}
    {f : Failure} : (leave a c o).Fails f ↔ o = .failure f := by
  constructor
  · rintro ⟨_, _, _, h⟩
    cases h
    rfl
  · rintro rfl
    exact ⟨k, a, c, rfl⟩

end Event

/-- The failure `g` is the committed failure `f` further out: committed, at the same place, and with
the same description if a tag has given one. -/
structure Failure.Carries (g f : Failure) : Prop where
  committed : g.committed = true
  cursor : g.cursor = f.cursor
  described : f.tagged = true → g.tagged = true ∧ g.expected = f.expected

namespace Failure.Carries

variable {f g h : Failure}

theorem refl (hf : f.committed = true) : f.Carries f := ⟨hf, rfl, fun ht => ⟨ht, rfl⟩⟩

theorem trans (hg : h.Carries g) (hf : g.Carries f) : h.Carries f where
  committed := hg.committed
  cursor := hg.cursor.trans hf.cursor
  described := fun ht =>
    have hgf := hf.described ht
    have hhg := hg.described hgf.1
    ⟨hhg.1, hhg.2.trans hgf.2⟩

end Failure.Carries

theorem Grammar.adorn_carries {f : Failure} (a : Grammar n k) (hf : f.committed = true) :
    (a.adorn f).Carries f := by
  cases a with
  | commit a => exact ⟨rfl, rfl, fun ht => ⟨ht, rfl⟩⟩
  | tag d a =>
    refine ⟨(f.tag_committed d).trans hf, f.tag_cursor d, fun ht => ⟨f.tag_tagged d, ?_⟩⟩
    rw [adorn, Failure.tag_expected, if_pos ht]
  | _ => exact .refl hf

namespace Event

/-- If `e` is the end of a run in a committed failure then `e'` is the end of one in the same
failure. -/
def Yields (e e' : Event n) : Prop :=
  ∀ f, e.Fails f → f.committed = true → ∃ g, e'.Fails g ∧ g.Carries f

/-- No run has ended in a committed failure. -/
def Quiet (e : Event n) : Prop := ∀ f, e.Fails f → f.committed = false

variable {e e' : Event n} {es es' : List (Event n)}

theorem Quiet.yields (h : e.Quiet) : e.Yields e' := fun f he hf =>
  absurd (hf.symm.trans (h f he)) nofun

theorem pairwise_append_of_quiet (hq : ∀ e ∈ es, e.Quiet) (h : es'.Pairwise Yields) :
    (es ++ es').Pairwise Yields := by
  induction es with
  | nil => exact h
  | cons e es ih =>
    obtain ⟨he, hes⟩ := List.forall_mem_cons.1 hq
    exact List.pairwise_cons.2 ⟨fun _ _ => he.yields, ih hes⟩

end Event

namespace Run

mutual

def events : Run n → List (Event n)
  | node a c o ts => .enter a c :: (eventsOf ts ++ [.leave a c o])

def eventsOf : List (Run n) → List (Event n)
  | [] => []
  | t :: ts => t.events ++ eventsOf ts

end

theorem eventsOf_eq (ts : List (Run n)) : eventsOf ts = ts.flatMap events := by
  induction ts with
  | nil => rfl
  | cons t ts ih => simp [eventsOf, ih]

theorem events_node (a : Grammar n k) (c : Cursor) (o : Outcome (Parse Value)) (ts : List (Run n)) :
    (node a c o ts).events = .enter a c :: ts.flatMap events ++ [.leave a c o] := by
  simp [events, eventsOf_eq]

theorem events_eq_append (t : Run n) :
    ∃ (es : List (Event n)) (k : Nat) (a : Grammar n k) (c : Cursor),
      t.events = es ++ [.leave a c t.outcome] := by
  cases t with
  | node a c o ts => exact ⟨.enter a c :: eventsOf ts, _, a, c, rfl⟩

variable {t : Run n} {e : Event n} {f : Failure}

/-- The run itself ends in the committed failure that some run in it has ended in. -/
theorem carries_of_mem_events (h : t.events.Pairwise Event.Yields) (he : e ∈ t.events)
    (hf : e.Fails f) (hc : f.committed = true) : ∃ g, t.outcome = .failure g ∧ g.Carries f := by
  obtain ⟨es, k, a, c, heq⟩ := t.events_eq_append
  rw [heq] at h he
  obtain he | he := List.mem_append.1 he
  · obtain ⟨g, hg, hgf⟩ := (List.pairwise_append.1 h).2.2 e he _ (List.mem_singleton_self _) f hf hc
    exact ⟨g, Event.fails_leave.1 hg, hgf⟩
  · obtain rfl := List.mem_singleton.1 he
    exact ⟨f, Event.fails_leave.1 hf, .refl hc⟩

theorem quiet_of_not_committed (h : t.events.Pairwise Event.Yields) (ht : ¬ t.Committed) :
    ∀ e ∈ t.events, e.Quiet := by
  intro e he f hf
  refine eq_false_of_ne_true fun hc => ht ?_
  obtain ⟨g, hg, hgf⟩ := carries_of_mem_events h he hf hc
  exact ⟨g, hg, hgf.committed⟩

/-- Nothing is committed before the last part ends, nor if no part ends so. -/
theorem quiet_of_parts {a : Grammar n k} {c : Cursor} {ts : List (Run n)}
    (hp : ∀ t ∈ ts, t.events.Pairwise Event.Yields) (h : ∀ t ∈ ts, ¬ t.Committed) :
    ∀ e ∈ Event.enter a c :: ts.flatMap events, e.Quiet := by
  refine List.forall_mem_cons.2 ⟨fun f hf => absurd hf Event.not_fails_enter, fun e he => ?_⟩
  obtain ⟨t, ht, he⟩ := List.mem_flatMap.1 he
  exact quiet_of_not_committed (hp t ht) (h t ht) e he

end Run

/-- Only the last part that was run can have ended in a committed failure, and then the run ends in
the same one. -/
theorem Run.Lawful.pairwise_events {t : Run n} (h : t.Lawful) :
    t.events.Pairwise Event.Yields := by
  induction h with
  | @node k a c o ts ends _ _ ih =>
    have settled (h : ∀ t ∈ ts, ¬ t.Committed) :
        (Run.node a c o ts).events.Pairwise Event.Yields := by
      rw [events_node]
      exact Event.pairwise_append_of_quiet (quiet_of_parts ih h) (List.pairwise_singleton ..)
    obtain (⟨h, -⟩ | @⟨ts, t, f, h, hf⟩) | ⟨h, -⟩ := ends
    · exact settled h
    · obtain ⟨ih, iht⟩ := List.forall_mem_append.1 ih
      have iht := iht t (List.mem_singleton_self t)
      rw [events_node, List.flatMap_append, List.flatMap_singleton, ← List.cons_append,
        List.append_assoc]
      refine Event.pairwise_append_of_quiet (quiet_of_parts ih h)
        (List.pairwise_append.2 ⟨iht, List.pairwise_singleton .., ?_⟩)
      rintro e he _ he' g hg hc
      obtain rfl := List.mem_singleton.1 he'
      obtain ⟨f', hf', hfg⟩ := carries_of_mem_events iht he hg hc
      cases hf.symm.trans hf'
      exact ⟨_, Event.fails_leave.2 rfl, (a.adorn_carries hfg.committed).trans hfg⟩
    · exact settled fun t ht => not_committed (h.not_failed t ht)

namespace Grammar

/-- Once some run, however deep, has ended in a committed failure, no run begins any more, all that
are still under way end in that failure, and so does the parser. -/
theorem committed_failure_ends_all (rules : Rules n) (depth : Nat) (a : Grammar n 0) (c : Cursor)
    {before after : List (Event n)} {e : Event n} {f : Failure}
    (happened : (a.runAt rules depth c).events = before ++ e :: after) (fails : e.Fails f)
    (committed : f.committed = true) :
    (∀ e' ∈ after, ∃ g, e'.Fails g ∧ g.Carries f) ∧
      ∃ g, ((a.parserAt rules depth).run c).outcome = .failure g ∧ g.Carries f := by
  have yields := (runAt_lawful rules depth a c).pairwise_events
  constructor
  · rw [happened] at yields
    intro e' he'
    exact (List.pairwise_cons.1 (List.pairwise_append.1 yields).2.1).1 e' he' f fails committed
  · rw [← runAt_outcome]
    have he : e ∈ (a.runAt rules depth c).events := by simp [happened]
    exact Run.carries_of_mem_events yields he fails committed

/-- The first alternative is committed to, so the second one is not tried. -/
theorem committed_failure_ends_all_of_choice :
    let b : Grammar 0 0 := char (.single 'b')
    let a : Grammar 0 0 := b.commit.orElse (char (.single 'c'))
    let c : Cursor := .ofText ['c']
    let f : Failure := .expecting c (CharClass.single 'b').expected
    let before := [.enter a c, .enter b.commit c, .enter b c, .leave b c (.failure f)]
    let after := [.leave a c (.failure f.commit)]
    (a.runAt Fin.elim0 1 c).events = before ++ .leave b.commit c (.failure f.commit) :: after ∧
      (∀ e ∈ after, ∃ g, e.Fails g ∧ g.Carries f.commit) ∧
      ∃ g, ((a.parserAt Fin.elim0 1).run c).outcome = .failure g ∧ g.Carries f.commit := by
  intro b a c f before after
  have happened :
      (a.runAt Fin.elim0 1 c).events = before ++ .leave b.commit c (.failure f.commit) :: after :=
    rfl
  exact ⟨happened, committed_failure_ends_all _ 1 a c happened (Event.fails_leave.2 rfl) rfl⟩

end Grammar

end TextParsing
