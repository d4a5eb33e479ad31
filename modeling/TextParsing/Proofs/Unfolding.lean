import TextParsing.Grammar.Substitution
import TextParsing.Proofs.Depth
import TextParsing.Proofs.Provenance

/-!
Three ways to recur. A grammar may refer to itself, or have itself in the place where it does, or
refer to a rule that it is; the runs of these that end, end in the same way. A reference itself does
nothing but run what it refers to.
-/

namespace TextParsing

namespace Grammar

variable {n k : Nat} {rules : Rules n}

/-- The body of a recursive grammar with that grammar in the place of the references to it. -/
def unfold (body : Grammar n (k + 1)) : Grammar n k :=
  body.subst id (Fin.cases body.recursive ref)

section Unfolded

variable {depth : Nat} {parsers : Fin n → Parser Location Value} {h : Fin k → Parser Location Value}

/-- To unfold a recursive grammar is to enter it once more. -/
theorem toParser_unfold (body : Grammar n (k + 1)) :
    body.unfold.toParser .commits depth parsers h =
      ⟨Parser.unroll (fun self => body.toParser .commits depth parsers (Fin.cases self h))
        (depth + 1)⟩ := by
  rw [unfold, toParser_subst]
  congr 1
  funext i
  refine Fin.cases ?_ (fun j => ?_) i <;> rfl

theorem recursive_agrees_unfold (body : Grammar n 1) (depth : Nat) :
    (body.recursive.parserAt rules depth).Agrees .ended (body.unfold.parserAt rules depth) := by
  rw [parserAt, parserAt, recordedAt, recordedAt, toParser_unfold]
  apply Parser.Agrees.unroll
  · intro p p' hp
    apply toParser_agrees (.refl _ depth)
    · exact fun i => runRule_agrees rules (.refl _ depth) (.refl _ depth) i
    · exact Fin.cases hp nofun
  · exact ⟨Nat.le_succ depth, nofun⟩

theorem unfold_agrees_recursive (body : Grammar n 1) (depth : Nat) :
    (body.unfold.parserAt rules depth).Agrees .ended
      (body.recursive.parserAt rules (depth + 1)) := by
  have deeper : Scope.ended.Depths depth (depth + 1) := ⟨Nat.le_succ depth, nofun⟩
  rw [parserAt, parserAt, recordedAt, recordedAt, toParser_unfold]
  apply Parser.Agrees.unroll
  · intro p p' hp
    apply toParser_agrees deeper
    · exact fun i => runRule_agrees rules deeper deeper i
    · exact Fin.cases hp nofun
  · exact .refl _ _

end Unfolded

section WithBody

variable (body : Grammar n 1)

theorem runRule_withBody_succ (depth m : Nat) (i : Fin n) :
    runRule .commits (rules.withBody body) depth m i.succ = runRule .commits rules depth m i := by
  induction m generalizing i with
  | zero => rfl
  | succ m ih =>
    funext c
    change (((rules i).rename Fin.succ id).toParser .commits depth _ _).run c = _
    rw [toParser_rename]
    simp only [ih]
    rfl

theorem runRule_withBody_zero (depth m : Nat) (c : Cursor) :
    runRule .commits (rules.withBody body) depth (m + 1) 0 c =
      (body.toParser .commits depth (fun i => ⟨runRule .commits rules depth m i⟩)
        fun _ => ⟨runRule .commits (rules.withBody body) depth m 0⟩).run c := by
  change ((body.subst Fin.succ fun _ => rule 0).toParser .commits depth _ _).run c = _
  rw [toParser_subst]
  simp only [runRule_withBody_succ]
  rfl

/-- A rule spends its entries on other rules too, so it goes no deeper than the recursive
grammar. -/
theorem rule_agrees_unroll {depth m : Nat} (hm : m ≤ depth) :
    (Parser.mk (runRule .commits (rules.withBody body) depth m 0)).Agrees .ended
      ⟨Parser.unroll (fun self => body.toParser .commits depth
        (fun i => ⟨runRule .commits rules depth depth i⟩) (Fin.cases self Fin.elim0)) m⟩ := by
  induction m with
  | zero => exact fun _ h => nomatch h
  | succ m ih =>
    have same : Scope.ended.Depths depth depth := .refl _ _
    have fewer : Scope.ended.Depths m depth := ⟨Nat.le_of_succ_le hm, nofun⟩
    intro c
    change Reply.Agrees _ (runRule _ _ _ (m + 1) 0 c) _
    rw [runRule_withBody_zero]
    apply toParser_agrees same
    · exact fun i => runRule_agrees rules same fewer i
    · exact Fin.cases (ih fewer.le) nofun

/-- With as many entries more as the rules may take, a rule goes as deep as the recursive
grammar. -/
theorem unroll_agrees_rule {depth depth' : Nat} (hd : depth ≤ depth') (m : Nat) :
    (Parser.mk (Parser.unroll (fun self => body.toParser .commits depth
        (fun i => ⟨runRule .commits rules depth depth i⟩) (Fin.cases self Fin.elim0)) m)).Agrees
      .ended ⟨runRule .commits (rules.withBody body) depth' (m + depth) 0⟩ := by
  induction m with
  | zero => exact fun _ h => nomatch h
  | succ m ih =>
    have deeper : Scope.ended.Depths depth depth' := ⟨hd, nofun⟩
    have more : Scope.ended.Depths depth (m + depth) := ⟨Nat.le_add_left depth m, nofun⟩
    intro c
    change Reply.Agrees _ _ (runRule _ _ _ (m + 1 + depth) 0 c)
    rw [Nat.add_right_comm, runRule_withBody_zero]
    apply toParser_agrees deeper
    · exact fun i => runRule_agrees rules deeper more i
    · exact Fin.cases ih nofun

theorem rule_agrees_recursive (depth : Nat) :
    ((rule 0).parserAt (rules.withBody body) depth).Agrees .ended
      (body.recursive.parserAt rules depth) := rule_agrees_unroll body (Nat.le_refl depth)

theorem recursive_agrees_rule (depth : Nat) :
    (body.recursive.parserAt rules depth).Agrees .ended
      ((rule 0).parserAt (rules.withBody body) (depth + depth)) :=
  unroll_agrees_rule body (Nat.le_add_left depth depth) depth

end WithBody

end Grammar

namespace Run

variable {n k : Nat}

/-- The run `t` has the run `s` in it, however deep. -/
inductive Has (t : Run n) : Run n → Prop
  | self : Has t t
  | part {s u : Run n} (h : Has t s) (hu : u ∈ s.parts) : Has t u

theorem Lawful.has {t s : Run n} (ht : t.Lawful) (h : t.Has s) : s.Lawful := by
  induction h with
  | self => exact ht
  | part _ hu ih => exact ih.parts _ hu

/-- A reference makes no failures. -/
theorem Lawful.failed_ref {i : Fin k} {c : Cursor} {f : Failure} {ts : List (Run n)}
    (h : (Run.node (.ref i) c (.failure f) ts).Lawful) : ∃ s ∈ ts, s.outcome = .failure f := by
  by_cases last : ∃ s ∈ ts.getLast?, ∃ g, s.outcome = .failure g
  · obtain ⟨s, hs, g, hg⟩ := last
    have same : f = g := h.passes rfl hs hg
    exact ⟨s, List.mem_of_getLast? hs, same ▸ hg⟩
  · have made := h.creates rfl fun s hs g hg => last ⟨s, hs, g, hg⟩
    exact made.1.1.elim

end Run

namespace Grammar

variable {n : Nat}

/-- The parsers of a recursive grammar, of the grammar with itself in the place of the references to
it, and of the rule that it is do the same from every cursor. No failure is made where the grammar
refers to itself. -/
theorem recursion_unfolds (rules : Rules n) (body : Grammar n 1) (c : Cursor) :
    ((body.unfold.parser rules).run c).outcome = ((body.recursive.parser rules).run c).outcome ∧
    (((rule 0).parser (rules.withBody body)).run c).outcome =
      ((body.recursive.parser rules).run c).outcome ∧
    ∀ (depth k : Nat) (i : Fin k) (d : Cursor) (f : Failure) (ts : List (Run n)),
      (body.recursive.runAt rules depth c).Has (.node (ref i) d (.failure f) ts) →
        ∃ s ∈ ts, s.outcome = .failure f := by
  refine ⟨outcome_of_endsIn fun o => ⟨?_, ?_⟩, outcome_of_endsIn fun o => ⟨?_, ?_⟩, ?_⟩
  · exact EndsIn.of_agrees id (recursive_agrees_unfold body)
  · exact EndsIn.of_agrees (· + 1) (unfold_agrees_recursive body)
  · exact EndsIn.of_agrees (fun depth => depth + depth) (recursive_agrees_rule body)
  · exact EndsIn.of_agrees id (rule_agrees_recursive body)
  · intro depth k i d f ts h
    exact ((runAt_lawful rules depth _ c).has h).failed_ref

end Grammar

end TextParsing
