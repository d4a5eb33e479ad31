import Mathlib.Data.Finset.Card
import Mathlib.Data.Finset.Range
import TextParsing.Proofs.Anchoring

/-!
Programs inside others. The instructions of an expression are the same wherever they stand but for
the addresses they name, so threads are followed through them the same way in every program that has
them.
-/

namespace TextParsing.Pattern

namespace Instruction

def rename (ρ : Nat → Nat) : Instruction → Instruction
  | accept => accept
  | read s next => read s (ρ next)
  | check a next => check a (ρ next)
  | jump next => jump (ρ next)
  | fork first second => fork (ρ first) (ρ second)

/-- The addresses at which the search goes on. -/
def targets : Instruction → List Nat
  | accept => []
  | read _ next | check _ next | jump next => [next]
  | fork first second => [first, second]

end Instruction

/-- The `n` addresses from `base` on go to those from `base'` on. -/
def Moves (ρ : Nat → Nat) (n base base' : Nat) : Prop := ∀ i < n, ρ (base + i) = base' + i

namespace Moves

variable {ρ : Nat → Nat} {m n base base' : Nat}

theorem first (h : Moves ρ n base base') (hn : 0 < n) : ρ base = base' := h 0 hn

theorem behind (h : Moves ρ n base base') (k : Nat) (hk : k + m ≤ n) :
    Moves ρ m (base + k) (base' + k) := by
  intro i hi
  rw [Nat.add_assoc, Nat.add_assoc]
  exact h (k + i) (by omega)

end Moves

namespace Program

variable {ρ : Nat → Nat}

end Program

/-- The program `w` has the instructions that `p` has at the addresses `A`, which lead to no others,
at new addresses. -/
structure Embeds (ρ : Nat → Nat) (A : Finset Nat) (p w : Program) : Prop where
  code : ∀ a ∈ A, ∃ x, p.code[a]? = some x ∧ w.code[ρ a]? = some (x.rename ρ) ∧
    ∀ b ∈ x.targets, b ∈ A
  injective : Set.InjOn ρ A

def Thread.rename (ρ : Nat → Nat) (t : Thread) : Thread := ⟨t.start, ρ t.address⟩

namespace Front

variable {p w : Program} {s : Spot} {f g base : Front} {A : Finset Nat} {a b start : Nat}

/-- Nothing is followed behind a thread that accepts, nor a second time. -/
theorem follow_of_done (h : (f.accepted.isSome || f.seen.contains a) = true) (n : Nat) :
    follow p s start n a f = f := by
  cases n with
  | zero => rfl
  | succ n => rw [follow, if_pos h]

theorem follow_seen (h : f.seen.contains b = true) (n a : Nat) :
    (follow p s start n a f).seen.contains b = true := by
  induction n generalizing a f with
  | zero => exact h
  | succ n ih =>
    have visited : (f.visit a).seen.contains b = true := by simp [visit, h]
    simp only [follow]
    split
    · exact h
    · split
      · exact visited
      · exact visited
      · split <;> exact visited
      · split
        · exact ih visited _
        · exact visited
      · exact ih visited _
      · exact ih (ih visited _) _

/-- The addresses of `A` that no thread has been at. -/
def unseen (A : Finset Nat) (f : Front) : Finset Nat := A.filter fun a => f.seen.contains a = false

@[simp] theorem mem_unseen : a ∈ f.unseen A ↔ a ∈ A ∧ f.seen.contains a = false :=
  Finset.mem_filter

theorem card_unseen_le (A : Finset Nat) (f : Front) : (f.unseen A).card ≤ A.card :=
  Finset.card_filter_le ..

theorem unseen_visit (f : Front) : (f.visit a).unseen A = (f.unseen A).erase a := by
  ext b
  simp only [mem_unseen, visit, AddressSet.contains_insert, Bool.or_eq_false_iff,
    decide_eq_false_iff_not, Finset.mem_erase]
  grind

theorem card_unseen_visit (ha : a ∈ A) (h : f.seen.contains a = false) :
    ((f.visit a).unseen A).card < (f.unseen A).card := by
  rw [unseen_visit]
  exact Finset.card_erase_lt_of_mem (mem_unseen.2 ⟨ha, h⟩)

theorem card_unseen_follow (n a : Nat) :
    ((follow p s start n a f).unseen A).card ≤ (f.unseen A).card := by
  refine Finset.card_le_card fun b hb => ?_
  obtain ⟨inside, fresh⟩ := mem_unseen.1 hb
  refine mem_unseen.2 ⟨inside, eq_false_of_ne_true fun seen => ?_⟩
  exact Bool.false_ne_true (fresh.symm.trans (follow_seen seen n a))

/-- Follow threads in order, each through at most `n` instructions. -/
def followAll (p : Program) (s : Spot) (n : Nat) (ts : List Thread) (f : Front) : Front :=
  ts.foldl (fun f t => follow p s t.start n t.address f) f

/-- What threads have come to in a program that is found in another: `g` has what `f` has, and
besides what `base` has. -/
structure Shows (ρ : Nat → Nat) (A : Finset Nat) (p : Program) (base f g : Front) : Prop where
  seen : ∀ a ∈ A, g.seen.contains (ρ a) = f.seen.contains a
  others : ∀ x, (∀ a ∈ A, ρ a ≠ x) → g.seen.contains x = base.seen.contains x
  ahead : g.ahead = f.ahead.map (·.rename ρ) ++ base.ahead
  accepted : g.accepted = f.accepted
  inside : ∀ t ∈ f.ahead, t.address ∈ A
  accepts : ∀ a ∈ A, p.code[a]? = some .accept → f.seen.contains a = true →
    f.accepted.isSome = true

namespace Shows

variable {ρ : Nat → Nat}

theorem visit_seen (h : Shows ρ A p base f g) (e : Embeds ρ A p w) (ha : a ∈ A) (b : Nat)
    (hb : b ∈ A) : (g.visit (ρ a)).seen.contains (ρ b) = (f.visit a).seen.contains b := by
  have same : ρ a = ρ b ↔ a = b := e.injective.eq_iff ha hb
  simp [Front.visit, h.seen b hb, same]

theorem visit_others (h : Shows ρ A p base f g) (ha : a ∈ A) (x : Nat) (hx : ∀ a ∈ A, ρ a ≠ x) :
    (g.visit (ρ a)).seen.contains x = base.seen.contains x := by
  simp [Front.visit, h.others x hx, hx a ha]

theorem visit (h : Shows ρ A p base f g) (e : Embeds ρ A p w) (ha : a ∈ A)
    (plain : p.code[a]? ≠ some .accept) :
    Shows ρ A p base (f.visit a) (g.visit (ρ a)) where
  seen := h.visit_seen e ha
  others := h.visit_others ha
  ahead := h.ahead
  accepted := h.accepted
  inside := h.inside
  accepts b hb accept seen := by
    have other : a ≠ b := fun same => plain (same ▸ accept)
    exact h.accepts b hb accept (by simpa [Front.visit, other] using seen)

theorem visit_accept (h : Shows ρ A p base f g) (e : Embeds ρ A p w) (ha : a ∈ A)
    (start : Nat) : Shows ρ A p base ((f.visit a).accept start) ((g.visit (ρ a)).accept start) where
  seen := h.visit_seen e ha
  others := h.visit_others ha
  ahead := h.ahead
  accepted := rfl
  inside := h.inside
  accepts _ _ _ _ := rfl

theorem push (h : Shows ρ A p base f g) {t : Thread} (ht : t.address ∈ A) :
    Shows ρ A p base (f.push t) (g.push (t.rename ρ)) where
  seen := h.seen
  others := h.others
  ahead := congrArg (t.rename ρ :: ·) h.ahead
  accepted := h.accepted
  inside := List.forall_mem_cons.2 ⟨ht, h.inside⟩
  accepts := h.accepts

/-- The search goes the same way in both programs, if it can go through all that is not seen. -/
theorem follow (h : Shows ρ A p base f g) (e : Embeds ρ A p w) (ha : a ∈ A) {n n' : Nat}
    (hn : (f.unseen A).card ≤ n) (hn' : (f.unseen A).card ≤ n') :
    Shows ρ A p base (Front.follow p s start n a f) (Front.follow w s start n' (ρ a) g) := by
  -- on the number of addresses that are not seen, as no other is followed
  induction k : (f.unseen A).card using Nat.strong_induction_on generalizing a f g n n' with
  | _ k ih =>
    subst k
    obtain ⟨x, hp, hw, targets⟩ := e.code a ha
    have same : (g.accepted.isSome || g.seen.contains (ρ a)) =
        (f.accepted.isSome || f.seen.contains a) := by rw [h.accepted, h.seen a ha]
    by_cases done : (f.accepted.isSome || f.seen.contains a) = true
    · rwa [follow_of_done done, follow_of_done (same.trans done)]
    have fresh : f.seen.contains a = false := by simp_all
    have less := card_unseen_visit ha fresh
    obtain ⟨n, rfl⟩ : ∃ k, n = k + 1 := Nat.exists_eq_succ_of_ne_zero (by omega)
    obtain ⟨n', rfl⟩ : ∃ k, n' = k + 1 := Nat.exists_eq_succ_of_ne_zero (by omega)
    have visited (plain : x ≠ .accept) : Shows ρ A p base (f.visit a) (g.visit (ρ a)) :=
      h.visit e ha (by simpa [hp] using plain)
    have onward {f' g' : Front} {b : Nat} (shown : Shows ρ A p base f' g') (hb : b ∈ A)
        (fewer : (f'.unseen A).card < (f.unseen A).card) :
        Shows ρ A p base (Front.follow p s start n b f') (Front.follow w s start n' (ρ b) g') :=
      ih _ fewer shown hb (by omega) (by omega) rfl
    simp only [Front.follow, same, done, hp, hw, Bool.false_eq_true, ↓reduceIte]
    cases x with
    | accept => exact h.visit_accept e ha start
    | read k next =>
      have inside : next ∈ A := targets next (List.mem_singleton_self _)
      simp only [Instruction.rename]
      split
      · exact (visited (by simp)).push (t := ⟨start, next⟩) inside
      · exact visited (by simp)
    | check c next =>
      have inside : next ∈ A := targets next (List.mem_singleton_self _)
      simp only [Instruction.rename]
      split
      · exact onward (visited (by simp)) inside less
      · exact visited (by simp)
    | jump next => exact onward (visited (by simp)) (targets next (List.mem_singleton_self _)) less
    | fork first second =>
      have atFirst : first ∈ A := targets first (List.mem_cons_self ..)
      have atSecond : second ∈ A :=
        targets second (List.mem_cons_of_mem _ (List.mem_cons_self ..))
      have preferred := onward (visited (by simp)) atFirst less
      exact onward preferred atSecond ((card_unseen_follow n first).trans_lt less)

theorem followAll (h : Shows ρ A p base f g) (e : Embeds ρ A p w) {ts : List Thread}
    (ht : ∀ t ∈ ts, t.address ∈ A) {n n' : Nat} (hn : (f.unseen A).card ≤ n)
    (hn' : (f.unseen A).card ≤ n') :
    Shows ρ A p base (Front.followAll p s n ts f)
      (Front.followAll w s n' (ts.map (·.rename ρ)) g) := by
  induction ts generalizing f g with
  | nil => exact h
  | cons t ts ih =>
    obtain ⟨ht, others⟩ := List.forall_mem_cons.1 ht
    have fewer : ((Front.follow p s t.start n t.address f).unseen A).card ≤ (f.unseen A).card :=
      card_unseen_follow n t.address
    exact ih (h.follow e ht hn hn') others (fewer.trans hn) (fewer.trans hn')

theorem of_empty (hg : ∀ a ∈ A, g.seen.contains (ρ a) = false) (accepted : g.accepted = none) :
    Shows ρ A p g empty g where
  seen a ha := by simp [hg a ha, empty]
  others _ _ := rfl
  ahead := rfl
  accepted := accepted
  inside := List.forall_mem_nil _
  accepts a _ _ seen := by simp [empty] at seen

/-- What follows threads in a program by itself follows them where the program is found, if they
have been nowhere in it before. -/
theorem ofThreads (e : Embeds ρ A p w) (hp : A.card ≤ p.code.size)
    (hg : ∀ a ∈ A, g.seen.contains (ρ a) = false) (accepted : g.accepted = none)
    {ts : List Thread} (ht : ∀ t ∈ ts, t.address ∈ A) {n : Nat} (hn : A.card ≤ n) :
    Shows ρ A p g (Front.ofThreads p s ts) (Front.followAll w s n (ts.map (·.rename ρ)) g) :=
  (of_empty hg accepted).followAll e ht ((card_unseen_le A _).trans hp)
    ((card_unseen_le A _).trans hn)

end Shows

end Front

namespace Program

/-- The address of the end, and those of the `n` instructions behind the anchor. -/
def body (n : Nat) : Finset Nat := (Finset.range (n + 2)).erase 1

/-- Move the instructions behind the anchor by `k`. -/
def shift (k a : Nat) : Nat := if a = 0 then 0 else a + k

end Program

end TextParsing.Pattern
