import TextParsing.Proofs.Extent

/-!
Getting ahead in the text. A parser that consumes leaves less text than it found, so it can succeed
only so often in a row.
-/

namespace TextParsing

universe u v w

namespace Cursor

variable {a b d : Cursor}

/-- The cursor `b` stands after `a`: at least one character has been read between them. -/
def Passes (a b : Cursor) : Prop := ∃ x cs, a.Reads (x :: cs) b

theorem Reaches.length_le (h : a.Reaches b) : b.rest.length ≤ a.rest.length := by
  obtain ⟨cs, hcs⟩ := h
  rw [hcs.rest, List.length_append]
  exact Nat.le_add_left ..

theorem Reaches.passes (h : a.Reaches b) (hb : (b == a) = false) : a.Passes b := by
  obtain ⟨cs, hcs⟩ := h
  cases cs with
  | nil =>
    rw [hcs.beq_iff.2 rfl] at hb
    exact nomatch hb
  | cons x cs => exact ⟨x, cs, hcs⟩

namespace Passes

theorem reaches (h : a.Passes b) : a.Reaches b :=
  let ⟨x, cs, hcs⟩ := h
  ⟨x :: cs, hcs⟩

theorem length_lt (h : a.Passes b) : b.rest.length < a.rest.length := by
  obtain ⟨x, cs, hcs⟩ := h
  rw [hcs.rest, List.length_append, List.length_cons]
  omega

theorem beq (h : a.Passes b) : (b == a) = false := by
  obtain ⟨x, cs, hcs⟩ := h
  apply eq_false_of_ne_true
  intro same
  exact nomatch hcs.beq_iff.1 same

theorem ne (h : a.Passes b) : b ≠ a := by
  rintro rfl
  exact Nat.lt_irrefl _ h.length_lt

theorem trans_reaches (h : a.Passes b) (k : b.Reaches d) : a.Passes d := by
  obtain ⟨x, cs, hcs⟩ := h
  obtain ⟨ds, hds⟩ := k
  exact ⟨x, cs ++ ds, hcs.trans hds⟩

end Passes

end Cursor

namespace Reply

variable {ε : Type} {α : Type u} {β : Type v} {γ : Type w}

theorem ends_self (r : Reply ε α) : r.Ends (fun a => r.outcome = .success a) fun _ => True := by
  rw [Ends]
  split
  · assumption
  · trivial
  · trivial

/-- What is done with a success matters only where there is one. -/
theorem handle_congr {r : Reply ε α} {k k' : α → Reply ε β} {l : Failure → Reply ε β}
    (h : ∀ a, r.outcome = .success a → k a = k' a) : r.handle k l = r.handle k' l := by
  obtain ⟨xs, o⟩ := r
  cases o with
  | success a => simp only [handle, h a rfl]
  | failure f => rfl
  | unfinished => rfl

theorem handle_bind (r : Reply ε α) (k : α → Reply ε β) (l : β → Reply ε γ)
    (m : Failure → Reply ε γ) :
    (r.bind k).handle l m = r.handle (fun a => (k a).handle l m) m := by
  obtain ⟨xs, o⟩ := r
  cases o with
  | success a => exact handle_after xs (k a) l m
  | failure f => cases hf : f.committed <;> simp [bind, handle, failure, after, hf]
  | unfinished => rfl

theorem outcome_handle_eq_success {r : Reply ε α} {k : α → Reply ε β} {l : Failure → Reply ε β}
    {b : β} : (r.handle k l).outcome = .success b ↔
      (∃ a, r.outcome = .success a ∧ (k a).outcome = .success b) ∨
        ∃ f, r.outcome = .failure f ∧ f.committed = false ∧ (l f).outcome = .success b := by
  obtain ⟨xs, o⟩ := r
  cases o with
  | success a => simp [handle, after]
  | failure f => cases hf : f.committed <;> simp [handle, after, hf]
  | unfinished => simp [handle]

theorem outcome_bind_eq_success {r : Reply ε α} {k : α → Reply ε β} {b : β} :
    (r.bind k).outcome = .success b ↔
      ∃ a, r.outcome = .success a ∧ (k a).outcome = .success b := by
  simp [bind, outcome_handle_eq_success, failure]

theorem outcome_map_eq_success {r : Reply ε α} {g : α → β} {b : β} :
    (r.map g).outcome = .success b ↔ ∃ a, r.outcome = .success a ∧ g a = b := by
  simp [map, outcome_bind_eq_success, success]

theorem outcome_handle_eq_failure {r : Reply ε α} {k : α → Reply ε β} {l : Failure → Reply ε β}
    {f : Failure} : (r.handle k l).outcome = .failure f ↔
      (∃ a, r.outcome = .success a ∧ (k a).outcome = .failure f) ∨
        (r.outcome = .failure f ∧ f.committed = true) ∨
          ∃ g, r.outcome = .failure g ∧ g.committed = false ∧ (l g).outcome = .failure f := by
  obtain ⟨xs, o⟩ := r
  cases o with
  | success a => simp [handle, after]
  | failure g =>
    cases hg : g.committed with
    | true =>
      simp only [handle, hg, if_true, Outcome.failure.injEq, reduceCtorEq]
      grind
    | false =>
      simp only [handle, after, hg, reduceCtorEq]
      grind
  | unfinished => simp [handle]

theorem outcome_map_eq_failure {r : Reply ε α} {g : α → β} {f : Failure} :
    (r.map g).outcome = .failure f ↔ r.outcome = .failure f := by
  simp [map, bind, outcome_handle_eq_failure, success, failure, ← and_or_left]

/-- Nothing is recovered from a success or a committed failure. -/
theorem recover_eq_self {r : Reply ε α} (h : ∀ f, r.outcome = .failure f → f.committed = true)
    (l : Failure → Reply ε α) : r.recover l = r := by
  obtain ⟨xs, o⟩ := r
  cases o with
  | success a => simp [recover, handle, success, after]
  | failure f => simp [recover, handle, h f rfl]
  | unfinished => rfl

theorem outcome_bind_of_failure {r : Reply ε α} {f : Failure} (h : r.outcome = .failure f)
    (k : α → Reply ε β) : (r.bind k).outcome = .failure f := by
  cases hf : f.committed <;> simp [bind, handle, failure, after, h, hf]

end Reply

namespace Parser

variable {ε : Type} {α : Type u} {β : Type v} {γ : Type w} {p : Parser ε α} {q : Parser ε β}

/-- The parser never succeeds without having read something. -/
def Consumes (p : Parser ε α) : Prop :=
  ∀ c, (p.run c).Ends (fun t => c.Passes t.rest) fun _ => True

theorem Consumes.passes (hp : p.Consumes) {c : Cursor} {t : Parse α}
    (ht : (p.run c).outcome = .success t) : c.Passes t.rest := (hp c).of_success ht

theorem Sound.reaches (hp : p.Sound) {c : Cursor} {t : Parse α}
    (ht : (p.run c).outcome = .success t) : c.Reaches t.rest := ((hp c).of_success ht).reaches

theorem Consumes.map {g : α → β} (hp : p.Consumes) : (p.map g).Consumes := fun c =>
  (hp c).map fun _ ht => ht

theorem char_consumes (k : CharClass) : (char k : Parser ε Char).Consumes := by
  intro c
  simp only [char]
  split
  · next x rest hx =>
    split
    · exact ⟨x, [], Cursor.reads_of_advance hx⟩
    · trivial
  · trivial

theorem andThen_success {g : α → β → Range → γ} {c : Cursor} {t : Parse α} {u : Parse β}
    (ht : (p.run c).outcome = .success t) (hu : (q.run t.rest).outcome = .success u) :
    ((andThen g p q).run c).outcome =
      .success (.spanning (g t.target u.target ⟨c.location, u.rest.location⟩) c u.rest) := by
  simp [Parser.andThen, Reply.bind, Reply.map, Reply.handle, ht, hu, Reply.success, Reply.after]

theorem filterMap_of_refused {g : α → Option β} {c : Cursor} {t : Parse α}
    (ht : (p.run c).outcome = .success t) (hg : g t.target = none) (d : Option String) :
    (p.filterMap g d).run c = ⟨(p.run c).log, .failure ⟨c, d, false, false⟩⟩ := by
  simp only [filterMap, Reply.bind, Reply.handle_of_success ht, hg]
  simp [Reply.after, Reply.failure]

theorem filterMap_eq_success {g : α → Option β} {d : Option String} {c : Cursor} {t : Parse β} :
    ((p.filterMap g d).run c).outcome = .success t ↔
      ∃ u b, (p.run c).outcome = .success u ∧ g u.target = some b ∧ t = ⟨b, u.range, u.rest⟩ := by
  simp only [filterMap, Reply.outcome_bind_eq_success]
  refine exists_congr fun u => ?_
  cases g u.target with
  | some b => simp [Reply.success, eq_comm]
  | none => simp [Reply.failure]

/-- A sequence consumes if its first part does. -/
theorem Consumes.andThen {g : α → β → Range → γ} (hp : p.Consumes) (hq : q.Sound) :
    (andThen g p q).Consumes := by
  intro c
  refine (hp c).bind fun t ht => ?_
  refine Reply.Ends.map (Q := fun _ => True) ((hq t.rest).mono (fun _ hu => hu) fun _ _ => trivial)
    fun u hu => ?_
  exact ht.trans_reaches hu.reaches

end Parser

end TextParsing
