import TextParsing.Proofs.Gathering

/-!
Ordered choice. However alternatives are nested, they are tried in their order and all from the same
place, up to the first that does not decline. After a parser that never declines nothing else is
tried; what two alternatives begin with may be read once for both; and a part that may be missing is
a choice between the part and nothing.
-/

namespace TextParsing

universe u v w

namespace Reply

variable {ε : Type} {α : Type u} {β : Type v} {γ : Type w}

/-- Whatever is gone on with after a reply may go on from both of its ends. -/
theorem handle_handle (r : Reply ε α) (k : α → Reply ε β) (h : Failure → Reply ε β)
    (l : β → Reply ε γ) (m : Failure → Reply ε γ) :
    (r.handle k h).handle l m = r.handle (fun a => (k a).handle l m) fun f => (h f).handle l m := by
  obtain ⟨xs, o⟩ := r
  cases o with
  | success a => exact handle_after xs (k a) l m
  | failure f =>
    cases hf : f.committed with
    | true => simp [handle, hf]
    | false =>
      simp only [handle, hf]
      exact handle_after xs (h f) l m
  | unfinished => rfl

theorem outcome_handle_congr (r : Reply ε α) {k k' : α → Reply ε β} {h h' : Failure → Reply ε β}
    (hk : ∀ a, (k a).outcome = (k' a).outcome) (hh : ∀ f, (h f).outcome = (h' f).outcome) :
    (r.handle k h).outcome = (r.handle k' h').outcome := by
  obtain ⟨xs, o⟩ := r
  cases o with
  | success a => exact hk a
  | failure f =>
    cases hf : f.committed with
    | true => simp [handle, hf]
    | false => simpa [handle, hf, after] using hh f
  | unfinished => rfl

end Reply

namespace Parser

open Reply

variable {ε : Type} {α : Type u} {β : Type v} {γ : Type w} {p q : Parser ε α} {c : Cursor}

theorem orElse_assoc (p q r : Parser ε α) : (p.orElse q).orElse r = p.orElse (q.orElse r) := by
  ext c
  simp only [orElse, recover, handle_handle, handle_success]

theorem fail_orElse (d : String) (p : Parser ε α) : (fail d).orElse p = p := rfl

theorem orElse_of_declines (h : p.Declines c) (q : Parser ε α) :
    (p.orElse q).run c = (q.run c).after (p.run c).log := by
  obtain ⟨f, hf, recoverable⟩ := h
  simp only [orElse, recover, handle_of_recoverable hf recoverable]

theorem committed_of_not_declines (h : ¬ p.Declines c) {f : Failure}
    (hf : (p.run c).outcome = .failure f) : f.committed = true := by
  by_contra recoverable
  exact h ⟨f, hf, eq_false_of_ne_true recoverable⟩

theorem orElse_of_not_declines (h : ¬ p.Declines c) (q : Parser ε α) :
    (p.orElse q).run c = p.run c :=
  recover_eq_self (fun _ hf => committed_of_not_declines h hf) _

/-- Alternatives put together two by two, in any nesting. -/
inductive Choice (ε : Type) (α : Type u)
  | one (p : Parser ε α)
  | either (first second : Choice ε α)

namespace Choice

def parser : Choice ε α → Parser ε α
  | one p => p
  | either s t => s.parser.orElse t.parser

def alternatives : Choice ε α → List (Parser ε α)
  | one p => [p]
  | either s t => s.alternatives ++ t.alternatives

end Choice

/-- Of the alternatives `ps`, those of `before` decline at `c` and `p` is the next one. It declines
only if it is the last. -/
structure Chosen (ps : List (Parser ε α)) (c : Cursor) (before : List (Parser ε α))
    (p : Parser ε α) : Prop where
  declined : ∀ q ∈ before, q.Declines c
  next : ∃ later, ps = before ++ p :: later ∧ (p.Declines c → later = [])

theorem exists_chosen (p : Parser ε α) (ps : List (Parser ε α)) (c : Cursor) :
    ∃ before q, Chosen (p :: ps) c before q := by
  by_cases h : p.Declines c
  · induction ps generalizing p with
    | nil => exact ⟨[], p, List.forall_mem_nil _, [], rfl, fun _ => rfl⟩
    | cons p' ps ih =>
      by_cases h' : p'.Declines c
      · obtain ⟨before, q, declined, later, hl, last⟩ := ih p' h'
        exact ⟨p :: before, q, List.forall_mem_cons.2 ⟨h, declined⟩, later,
          congrArg (p :: ·) hl, last⟩
      · exact ⟨[p], p', List.forall_mem_singleton.2 h, ps, rfl, fun k => absurd k h'⟩
  · exact ⟨[], p, List.forall_mem_nil _, ps, rfl, fun k => absurd k h⟩

theorem Chosen.firstOf_run {ps before : List (Parser ε α)} (h : Chosen (p :: ps) c before q) :
    (firstOf p ps).run c = (q.run c).after (before.flatMap fun r => (r.run c).log) := by
  obtain ⟨declined, later, hl, last⟩ := h
  induction before generalizing p ps with
  | nil =>
    cases hl
    cases later with
    | nil => rfl
    | cons r later => exact orElse_of_not_declines (fun h => nomatch last h) _
  | cons p' before ih =>
    obtain ⟨first, others⟩ := List.forall_mem_cons.1 declined
    cases ps with
    | nil => exact absurd (List.cons.inj hl).2.symm (List.append_ne_nil_of_right_ne_nil _ nofun)
    | cons r ps =>
      obtain ⟨rfl, rest⟩ := List.cons.inj hl
      rw [firstOf, orElse_of_declines first, ih others rest, after_after, List.flatMap_cons]

theorem firstOf_append (p : Parser ε α) (ps : List (Parser ε α)) (q : Parser ε α)
    (qs : List (Parser ε α)) :
    firstOf p (ps ++ q :: qs) = (firstOf p ps).orElse (firstOf q qs) := by
  induction ps generalizing p with
  | nil => rfl
  | cons p' ps ih => rw [List.cons_append, firstOf, ih, firstOf, orElse_assoc]

/-- How alternatives are nested does not matter. -/
theorem Choice.exists_firstOf (t : Choice ε α) :
    ∃ p ps, t.alternatives = p :: ps ∧ t.parser = firstOf p ps := by
  induction t with
  | one p => exact ⟨p, [], rfl, rfl⟩
  | either s t ihs iht =>
    obtain ⟨p, ps, hs, hp⟩ := ihs
    obtain ⟨q, qs, ht, hq⟩ := iht
    refine ⟨p, ps ++ q :: qs, ?_, ?_⟩
    · rw [alternatives, hs, ht, List.cons_append]
    · rw [parser, hp, hq, firstOf_append]

/-- The parser never fails recoverably. -/
def NeverDeclines (p : Parser ε α) : Prop := ∀ c, ¬ p.Declines c

theorem neverDeclines_of_committed
    (h : ∀ c f, (p.run c).outcome = .failure f → f.committed = true) : p.NeverDeclines :=
  fun c ⟨f, hf, recoverable⟩ => nomatch recoverable.symm.trans (h c f hf)

theorem NeverDeclines.orElse (h : p.NeverDeclines) (q : Parser ε α) : p.orElse q = p := by
  ext c
  exact orElse_of_not_declines (h c) q

theorem NeverDeclines.map {g : α → β} (h : p.NeverDeclines) : (p.map g).NeverDeclines := by
  rintro c ⟨f, hf, recoverable⟩
  exact h c ⟨f, outcome_map_eq_failure.1 hf, recoverable⟩

theorem commit_neverDeclines (note : Location → List ε) (p : Parser ε α) :
    (p.commit note).NeverDeclines := by
  rintro c ⟨f, hf, recoverable⟩
  simp only [commit, Reply.commit] at hf
  split at hf
  · split at hf
    · next g hg committed =>
      cases hg.symm.trans hf
      exact Bool.false_ne_true (recoverable.symm.trans committed)
    · cases hf
      exact Bool.false_ne_true recoverable.symm
  · next refused => exact refused f hf

theorem many_neverDeclines (p : Parser ε α) : p.many.NeverDeclines :=
  neverDeclines_of_committed fun _ _ hf => committed_of_repeatFrom (outcome_map_eq_failure.1 hf)

/-- Where something is given in place of each recoverable failure, only a committed one is left. -/
theorem committed_of_handle {k : Parse α → Parse β} {d : Parse β} {f : Failure}
    (hf : ((p.run c).handle (fun t => .success (k t)) fun _ => .success d).outcome = .failure f) :
    f.committed = true := by
  obtain ⟨t, -, ht⟩ | ⟨-, committed⟩ | ⟨g, -, -, hg⟩ := outcome_handle_eq_failure.1 hf
  · cases ht
  · exact committed
  · cases hg

theorem withDefault_neverDeclines (a : α) (p : Parser ε α) : (p.withDefault a).NeverDeclines :=
  neverDeclines_of_committed fun _ _ hf => committed_of_handle hf

theorem optional_neverDeclines (p : Parser ε α) : p.optional.NeverDeclines :=
  neverDeclines_of_committed fun _ _ hf => committed_of_handle hf

theorem optional_eq_orElse (p : Parser ε α) : p.optional = (p.map some).orElse (succeed none) := by
  ext c
  simp only [optional, orElse, run_map, recover, handle_map]
  rfl

/-- Two alternatives with the same beginning come to the same if it is read once for both. Where
they part, the second goes on from where the beginning ended. -/
theorem outcome_seq_orElse (s : Parser ε α) (t u : Parser ε β) (c : Cursor) :
    (((seq s t).orElse (seq s u)).run c).outcome = ((seq s (t.orElse u)).run c).outcome := by
  simp only [seq, andThen, orElse, recover]
  cases h : (s.run c).outcome with
  | success a =>
    simp only [Reply.bind, handle_of_success h, handle_after, handle_map, map_handle]
    exact outcome_handle_congr _ (fun _ => rfl) fun _ => rfl
  | failure f =>
    have read (k : Parse α → Reply ε (Parse (α × β))) :
        ((s.run c).bind k).outcome = .failure f := outcome_bind_of_failure h k
    cases hf : f.committed with
    | true => rw [handle_of_committed (read _) hf, read]
    | false => rw [handle_of_recoverable (read _) hf, after, read, read]
  | unfinished => simp [Reply.bind, handle, h]

/-- What alternatives come to. -/
structure ChoiceLaws (p q r : Parser ε α) (s : Parser ε β) (t u : Parser ε γ) (a : α) : Prop where
  orElse_assoc : (p.orElse q).orElse r = p.orElse (q.orElse r)
  fail_orElse : ∀ d, (fail d).orElse p = p
  orElse_of_neverDeclines : p.NeverDeclines → p.orElse q = p
  seq_orElse : ∀ c,
    (((seq s t).orElse (seq s u)).run c).outcome = ((seq s (t.orElse u)).run c).outcome
  optional_eq : p.optional = (p.map some).orElse (succeed none)
  withDefault_eq : p.withDefault a = p.orElse (succeed a)

/-- The parsers that never decline, whatever they are made of. -/
structure Steadfast (note : Location → List ε) (p : Parser ε α) (sep : Parser ε β)
    (s : Parser ε (List Char)) (a : α) : Prop where
  commit : (p.commit note).NeverDeclines
  many : p.many.NeverDeclines
  skipMany : p.skipMany.NeverDeclines
  concatMany : s.concatMany.NeverDeclines
  optional : p.optional.NeverDeclines
  withDefault : (p.withDefault a).NeverDeclines
  orEmpty : s.orEmpty.NeverDeclines
  sepBy : (sepBy p sep).NeverDeclines

theorem choiceLaws (p q r : Parser ε α) (s : Parser ε β) (t u : Parser ε γ) (a : α) :
    ChoiceLaws p q r s t u a where
  orElse_assoc := orElse_assoc p q r
  fail_orElse d := fail_orElse d p
  orElse_of_neverDeclines h := h.orElse q
  seq_orElse := outcome_seq_orElse s t u
  optional_eq := optional_eq_orElse p
  withDefault_eq := withDefault_eq_orElse a p

theorem steadfast (note : Location → List ε) (p : Parser ε α) (sep : Parser ε β)
    (s : Parser ε (List Char)) (a : α) : Steadfast note p sep s a where
  commit := commit_neverDeclines note p
  many := many_neverDeclines p
  skipMany := (many_neverDeclines p).map
  concatMany := (many_neverDeclines s).map
  optional := optional_neverDeclines p
  withDefault := withDefault_neverDeclines a p
  orEmpty := withDefault_neverDeclines [] s
  sepBy := withDefault_neverDeclines [] (sepBy1 p sep)

/-- Alternatives are an ordered choice: what the first does that does not decline, or else the last
one, is what they do together. They log what is logged up to there. -/
theorem choice_is_ordered :
    (∀ (p : Parser ε α) (ps : List (Parser ε α)) (c : Cursor), ∃ before q,
      Chosen (p :: ps) c before q ∧
        (firstOf p ps).run c = (q.run c).after (before.flatMap fun r => (r.run c).log)) ∧
    (∀ t : Choice ε α, ∃ p ps, t.alternatives = p :: ps ∧ t.parser = firstOf p ps) ∧
    (∀ (p q r : Parser ε α) (s : Parser ε β) (t u : Parser ε γ) (a : α),
      ChoiceLaws p q r s t u a) ∧
    ∀ (note : Location → List ε) (p : Parser ε α) (sep : Parser ε β) (s : Parser ε (List Char))
      (a : α), Steadfast note p sep s a := by
  refine ⟨fun p ps c => ?_, Choice.exists_firstOf, choiceLaws, steadfast⟩
  obtain ⟨before, q, chosen⟩ := exists_chosen p ps c
  exact ⟨before, q, chosen, chosen.firstOf_run⟩

end Parser

end TextParsing
