import Mathlib.Data.List.Chain
import TextParsing.Grammar.Forms
import TextParsing.Proofs.Agreement
import TextParsing.Proofs.RunLaws

/-!
Where a failure comes from. A failing run has failed as the part that it ran last did, and so on
inwards to the one run that failed while no part of it did. That run made the failure; the tags and
commitments on the way back out say what has become of it.
-/

namespace TextParsing

variable {n k : Nat}

namespace Grammar

def commits : Grammar n k → Bool
  | commit _ => true
  | _ => false

/-- The description that a tag gives. -/
def description : Grammar n k → Option String
  | tag d _ => some d
  | _ => none

variable (a : Grammar n k) (f : Failure)

theorem adorn_cursor : (a.adorn f).cursor = f.cursor := by
  cases a with
  | tag d a => exact f.tag_cursor d
  | _ => rfl

theorem adorn_committed : (a.adorn f).committed = (a.commits || f.committed) := by
  cases a with
  | tag d a => exact f.tag_committed d
  | _ => rfl

theorem adorn_tagged : (a.adorn f).tagged = (a.description.isSome || f.tagged) := by
  cases a with
  | tag d a => exact f.tag_tagged d
  | _ => rfl

theorem adorn_expected :
    (a.adorn f).expected = if f.tagged then f.expected else a.description.or f.expected := by
  cases a with
  | tag d a => exact f.tag_expected d
  | _ => exact (ite_self _).symm

end Grammar

namespace Run

def adorn : Run n → Failure → Failure
  | node a _ _ _ => a.adorn

def commits : Run n → Bool
  | node a _ _ _ => a.commits

def description : Run n → Option String
  | node a _ _ _ => a.description

theorem adorn_cursor (t : Run n) (f : Failure) : (t.adorn f).cursor = f.cursor :=
  match t with
  | node a _ _ _ => a.adorn_cursor f

theorem adorn_committed (t : Run n) (f : Failure) :
    (t.adorn f).committed = (t.commits || f.committed) :=
  match t with
  | node a _ _ _ => a.adorn_committed f

theorem adorn_tagged (t : Run n) (f : Failure) :
    (t.adorn f).tagged = (t.description.isSome || f.tagged) :=
  match t with
  | node a _ _ _ => a.adorn_tagged f

theorem adorn_expected (t : Run n) (f : Failure) :
    (t.adorn f).expected = if f.tagged then f.expected else t.description.or f.expected :=
  match t with
  | node a _ _ _ => a.adorn_expected f

/-- The run failed of itself, with the failure `f`. -/
def Creates : Run n → Failure → Prop
  | node a _ o ts, f => a.Refuses ts ∧ o = .failure f

/-- The runs that the failure of a run has come through, from it inwards. A part after which another
one was run has not passed its failure on. -/
inductive Blames : Run n → List (Run n) → Prop
  | made {t : Run n} {f : Failure} (ht : t.outcome = .failure f)
    (hp : ∀ s ∈ t.parts.getLast?, ∀ g, s.outcome ≠ .failure g) : Blames t [t]
  | passed {t s : Run n} {f g : Failure} {chain : List (Run n)} (ht : t.outcome = .failure f)
    (hs : t.parts.getLast? = some s) (hg : s.outcome = .failure g) (h : s.Blames chain) :
    Blames t (t :: chain)

/-- If `t` is the run of a choice then `s` is the run of the second alternative after a recoverable
failure of the first one, or that of the first alternative in a committed failure. -/
def Chooses : Run n → Run n → Prop
  | node (.orElse a b) c _ ts, s =>
    (ts = [s] ∧ s.Of a c ∧ s.Committed) ∨
    ∃ t f, ts = [t, s] ∧ t.Of a c ∧ s.Of b c ∧ t.outcome = .failure f ∧ f.committed = false
  | _, _ => True

section

variable (chain : List (Run n)) (f : Failure)

theorem cursor_foldr_adorn : (chain.foldr adorn f).cursor = f.cursor := by
  induction chain with
  | nil => rfl
  | cons t chain ih => exact (t.adorn_cursor _).trans ih

theorem committed_foldr_adorn :
    (chain.foldr adorn f).committed = true ↔
      f.committed = true ∨ ∃ t ∈ chain, t.commits = true := by
  induction chain with
  | nil => simp
  | cons t chain ih =>
    rw [List.foldr_cons, adorn_committed, Bool.or_eq_true, ih, List.exists_mem_cons_iff]
    exact or_left_comm

theorem tagged_foldr_adorn :
    (chain.foldr adorn f).tagged = true ↔
      f.tagged = true ∨ ∃ t ∈ chain, t.description.isSome = true := by
  induction chain with
  | nil => simp
  | cons t chain ih =>
    rw [List.foldr_cons, adorn_tagged, Bool.or_eq_true, ih, List.exists_mem_cons_iff]
    exact or_left_comm

theorem isSome_findSome?_description :
    (chain.reverse.findSome? description).isSome = true ↔
      ∃ t ∈ chain, t.description.isSome = true := by
  simp

/-- The first tag on the way out describes the failure, unless one has when it was made. -/
theorem expected_foldr_adorn :
    (chain.foldr adorn f).expected =
      if f.tagged then f.expected else (chain.reverse.findSome? description).or f.expected := by
  induction chain with
  | nil => simp
  | cons t chain ih =>
    have tagged := tagged_foldr_adorn chain f
    rw [← isSome_findSome?_description] at tagged
    rw [List.foldr_cons, adorn_expected, ih, List.reverse_cons, List.findSome?_append]
    cases hd : chain.reverse.findSome? description with
    | none => cases hf : f.tagged <;> simp [tagged, hf, hd]
    | some d => simp [tagged, hd]

end

variable {t s : Run n} {f g : Failure} {chain : List (Run n)}

theorem Blames.head (h : t.Blames chain) : chain.head? = some t := by
  cases h <;> rfl

theorem Blames.unique {ts us : List (Run n)} (h : t.Blames ts) (h' : t.Blames us) : us = ts := by
  induction h generalizing us with
  | made ht hp =>
    cases h' with
    | made => rfl
    | passed _ hs hg => exact absurd hg (hp _ hs _)
  | passed ht hs hg h ih =>
    cases h' with
    | made _ hp => exact absurd hg (hp _ hs _)
    | passed _ hs' _ h' =>
      cases hs.symm.trans hs'
      rw [ih h']

theorem Lawful.exists_blames (h : t.Lawful) (hf : t.outcome = .failure f) :
    ∃ chain, t.Blames chain := by
  induction h generalizing f with
  | @node k a c o ts _ _ _ ih =>
    by_cases hp : ∃ s ∈ ts.getLast?, ∃ g, s.outcome = .failure g
    · obtain ⟨s, hs, g, hg⟩ := hp
      obtain ⟨chain, hc⟩ := ih s (List.mem_of_getLast? hs) hg
      exact ⟨_, .passed hf hs hg hc⟩
    · exact ⟨_, .made hf fun s hs g hg => hp ⟨s, hs, g, hg⟩⟩

theorem Lawful.creates (h : t.Lawful) (ht : t.outcome = .failure f)
    (hp : ∀ s ∈ t.parts.getLast?, ∀ g, s.outcome ≠ .failure g) :
    t.Creates f ∧ f.cursor = t.start := by
  cases h with
  | node ends =>
    obtain (⟨-, ho⟩ | ⟨-, hg⟩) | ⟨hr, g, rfl, hc⟩ := ends
    · exact absurd ht (ho f)
    · exact absurd hg (hp _ List.getLast?_concat _)
    · cases ht
      exact ⟨⟨hr, rfl⟩, hc⟩

/-- What makes a failure does not change it afterwards. -/
theorem Creates.adorn (h : t.Creates f) (g : Failure) : t.adorn g = g := by
  cases t with
  | node a c o ts =>
    cases a with
    | commit a => exact h.1.elim
    | tag d a => exact h.1.elim
    | _ => rfl

theorem Lawful.passes (h : t.Lawful) (ht : t.outcome = .failure f)
    (hs : t.parts.getLast? = some s) (hg : s.outcome = .failure g) : f = t.adorn g := by
  cases h with
  | node ends =>
    obtain (⟨-, ho⟩ | ⟨-, hg'⟩) | ⟨hr, -⟩ := ends
    · exact absurd ht (ho f)
    · cases ht
      cases hs.symm.trans List.getLast?_concat
      cases hg.symm.trans hg'
      rfl
    · exact absurd hg (hr.not_failed s (List.mem_of_getLast? hs) g)

theorem Lawful.chooses (h : t.Lawful) (hs : t.parts.getLast? = some s)
    (hg : s.outcome = .failure g) : t.Chooses s := by
  cases h with
  | @node k a c o ts _ arranges =>
    cases a with
    | orElse a b =>
      obtain ⟨u, rfl, hu, hc⟩ | ⟨u, v, rfl, hu, hv, hc⟩ := arranges
      · cases hs
        exact .inl ⟨rfl, hu, g, hg, hc g hg⟩
      · cases hs
        obtain ⟨f, hf⟩ := hc
        exact .inr ⟨u, f, rfl, hu, hv, hf⟩
    | _ => trivial

/-- A failure is the one that was made at the origin, with all that was added to it on the way
out. -/
theorem Blames.outcome (h : t.Blames chain) (ht : t.Lawful) :
    ∃ origin g, chain.getLast? = some origin ∧ origin.Creates g ∧ g.cursor = origin.start ∧
      t.outcome = .failure (chain.foldr adorn g) := by
  induction h with
  | @made t f hf hp =>
    obtain ⟨created, place⟩ := ht.creates hf hp
    exact ⟨t, f, rfl, created, place, by rw [List.foldr_cons, created.adorn]; exact hf⟩
  | @passed t s f g chain hf hs hg h ih =>
    obtain ⟨origin, g₀, last, created, place, ho⟩ := ih (ht.parts s (List.mem_of_getLast? hs))
    refine ⟨origin, g₀, ?_, created, place, ?_⟩
    · rw [List.getLast?_cons, last]
      rfl
    · cases hg.symm.trans ho
      rw [hf, ht.passes hf hs hg, List.foldr_cons]

theorem Blames.chooses (h : t.Blames chain) (ht : t.Lawful) : chain.IsChain Chooses := by
  induction h with
  | made => exact List.isChain_singleton _
  | @passed t s f g chain hf hs hg h ih =>
    refine List.isChain_cons.2 ⟨fun u hu => ?_, ih (ht.parts s (List.mem_of_getLast? hs))⟩
    cases h.head.symm.trans hu
    exact ht.chooses hs hg

/-- Where the failure `f` of a run comes from: the runs it has come through, from that run inwards,
the last of them, in which it was made, and the failure `g` as it was made there. -/
structure Provenance (t : Run n) (f : Failure) (chain : List (Run n)) (origin : Run n)
    (g : Failure) : Prop where
  blames : t.Blames chain
  unique : ∀ ts, t.Blames ts → ts = chain
  last : chain.getLast? = some origin
  creates : origin.Creates g
  cursor : f.cursor = origin.start
  committed : f.committed = true ↔ g.committed = true ∨ ∃ u ∈ chain, u.commits = true
  /-- The first tag on the way out describes the failure, unless one has when it was made. -/
  expected : f.expected =
    if g.tagged then g.expected else (chain.reverse.findSome? description).or g.expected
  tagged : f.tagged = true ↔ g.tagged = true ∨ ∃ u ∈ chain, u.description.isSome = true
  chooses : chain.IsChain Chooses

end Run

namespace Grammar

/-- Every failure has been made in exactly one run, and is what the runs around that one, up to the
whole, have made of it. -/
theorem failure_provenance (rules : Rules n) (depth : Nat) (a : Grammar n 0) (c : Cursor)
    {f : Failure} (failed : ((a.parserAt rules depth).run c).outcome = .failure f) :
    ∃ chain origin g, (a.runAt rules depth c).Provenance f chain origin g := by
  have lawful := runAt_lawful rules depth a c
  rw [← runAt_outcome] at failed
  obtain ⟨chain, blames⟩ := lawful.exists_blames failed
  obtain ⟨origin, g, last, creates, place, outcome⟩ := blames.outcome lawful
  cases failed.symm.trans outcome
  exact ⟨chain, origin, g, {
    blames, last, creates
    unique := fun _ h => blames.unique h
    cursor := (Run.cursor_foldr_adorn chain g).trans place
    committed := Run.committed_foldr_adorn chain g
    expected := Run.expected_foldr_adorn chain g
    tagged := Run.tagged_foldr_adorn chain g
    chooses := blames.chooses lawful }⟩

/-- The first alternative does not apply. The second one commits to its second character, which is
wrong, and of the two tags around that it is the inner one that counts. -/
theorem failure_provenance_of_choice :
    let pair : Grammar 0 0 := (char (.single 'b')).seq (char (.single 'c')).commit
    let a : Grammar 0 0 := ((char (.single 'a')).orElse (pair.tag "pair")).tag "word"
    let c : Cursor := .ofText ['b', 'd']
    let f : Failure := ⟨c.consume 1, some "pair", true, true⟩
    ((a.parserAt Fin.elim0 1).run c).outcome = .failure f ∧
      ∃ chain origin g, (a.runAt Fin.elim0 1 c).Provenance f chain origin g :=
  ⟨rfl, failure_provenance _ 1 _ _ rfl⟩

end Grammar

end TextParsing
