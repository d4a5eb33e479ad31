import TextParsing.Proofs.Choosing

/-!
Where a commitment may stand. To commit to a sequence is to commit to each of its parts, to commit
to alternatives is to commit to the last, and to commit to what never declines is nothing; what is
logged is the same as well. Only what refuses a target that has been read is not committed by a
commitment inside it.
-/

namespace TextParsing

universe u v w

namespace Reply

variable {ε : Type} {α : Type u} {β : Type v} (note : Location → List ε)

theorem commit_after (xs : List ε) (r : Reply ε α) :
    (r.after xs).commit note = (r.commit note).after xs := by
  obtain ⟨ys, o⟩ := r
  cases o with
  | success a => rfl
  | failure f => cases hf : f.committed <;> simp [commit, after, hf]
  | unfinished => rfl

/-- A committed failure stays as it is, so only a recoverable one is left to be committed. -/
theorem commit_eq_recover (r : Reply ε α) :
    r.commit note = r.recover fun f => (failure f).commit note := by
  obtain ⟨xs, o⟩ := r
  cases o with
  | success a => simp [commit, recover, handle, success, after]
  | failure f => cases hf : f.committed <;> simp [commit, recover, handle, failure, after, hf]
  | unfinished => rfl

theorem commit_handle (r : Reply ε α) (k : α → Reply ε β) (h : Failure → Reply ε β) :
    (r.handle k h).commit note =
      r.handle (fun a => (k a).commit note) fun f => (h f).commit note := by
  obtain ⟨xs, o⟩ := r
  cases o with
  | success a => exact commit_after note xs (k a)
  | failure f =>
    cases hf : f.committed with
    | true => simp [handle, commit, hf]
    | false =>
      simp only [handle, hf]
      exact commit_after note xs (h f)
  | unfinished => rfl

theorem commit_recover (r : Reply ε α) (h : Failure → Reply ε α) :
    (r.recover h).commit note = r.recover fun f => (h f).commit note :=
  commit_handle note r success h

theorem commit_bind (r : Reply ε α) (k : α → Reply ε β) :
    (r.bind k).commit note = (r.commit note).bind fun a => (k a).commit note := by
  rw [bind, commit_handle, commit_eq_recover note r, bind, recover, handle_handle]
  congr 1
  funext f
  cases hf : f.committed with
  | true => simp [commit, failure, handle, hf]
  | false => simp [commit, failure, handle, hf, Failure.commit]

theorem commit_map (g : α → β) (r : Reply ε α) :
    (r.map g).commit note = (r.commit note).map g := commit_bind note r _

theorem commit_commit (r : Reply ε α) : (r.commit note).commit note = r.commit note := by
  obtain ⟨xs, o⟩ := r
  cases o with
  | success a => rfl
  | failure f => cases hf : f.committed <;> simp [commit, hf, Failure.commit]
  | unfinished => rfl

theorem commit_mapFailure_tag (d : String) (r : Reply ε α) :
    (r.mapFailure fun f => f.tag d).commit note =
      (r.commit note).mapFailure fun f => f.tag d := by
  obtain ⟨xs, o⟩ := r
  cases o with
  | success a => rfl
  | failure f =>
    cases hf : f.committed <;> simp [mapFailure, commit, hf, Failure.location, Failure.tag_commit]
  | unfinished => rfl

end Reply

namespace Parser

open Reply

section

variable {ε : Type} {α : Type u} {β : Type v} {γ : Type w} (note : Location → List ε)

theorem commit_commit (p : Parser ε α) : (p.commit note).commit note = p.commit note := by
  ext c
  exact Reply.commit_commit note (p.run c)

theorem commit_map (g : α → β) (p : Parser ε α) :
    (p.map g).commit note = (p.commit note).map g := by
  ext c
  exact Reply.commit_map note _ (p.run c)

theorem commit_andThen (g : α → β → Range → γ) (p : Parser ε α) (q : Parser ε β) :
    (andThen g p q).commit note = andThen g (p.commit note) (q.commit note) := by
  ext c
  simp only [commit, andThen, commit_bind, Reply.commit_map]

theorem commit_between (p : Parser ε α) (q : Parser ε β) (r : Parser ε γ) :
    (between p q r).commit note =
      between (p.commit note) (q.commit note) (r.commit note) := by
  ext c
  simp only [commit, between, commit_bind, Reply.commit_map]

theorem commit_orElse (p q : Parser ε α) :
    (p.orElse q).commit note = p.orElse (q.commit note) := by
  ext c
  exact commit_recover note (p.run c) _

theorem commit_tag (d : String) (p : Parser ε α) :
    (p.tag d).commit note = (p.commit note).tag d := by
  ext c
  exact commit_mapFailure_tag note d (p.run c)

theorem commit_timesFrom (p : Parser ε α) (n : Nat) (c : Cursor) :
    (timesFrom p n c).commit note = timesFrom (p.commit note) n c := by
  induction n generalizing c with
  | zero => rfl
  | succ n ih => simp only [timesFrom, commit, commit_bind, Reply.commit_map, ih]

theorem commit_times (n : Nat) (p : Parser ε α) :
    (times n p).commit note = times n (p.commit note) := by
  ext c
  simp only [times, commit, Reply.commit_map]
  rw [commit_timesFrom]
  rfl

variable {note} in
theorem NeverDeclines.commit {p : Parser ε α} (h : p.NeverDeclines) : p.commit note = p := by
  ext c
  change (p.run c).commit note = p.run c
  rw [commit_eq_recover]
  exact recover_eq_self (fun _ hf => committed_of_not_declines (h c) hf) _

/-- Once something has been read there is nothing left to commit to in a repetition. -/
theorem commit_many1 (p : Parser ε α) :
    p.many1.commit note = (seq (p.commit note) p.many).map fun (a, as) => a :: as := by
  rw [many1_eq_seq, commit_map, seq, commit_andThen, (many_neverDeclines p).commit]
  rfl

end

section

variable {ε : Type} {α : Type u} {β : Type v} {c : Cursor} {p : Parser ε α} {t : Parse α}

theorem commit_of_success (ht : (p.run c).outcome = .success t) (note : Location → List ε) :
    (p.commit note).run c = p.run c := by
  simp only [commit, Reply.commit, ht]

end

/-- A commitment may be made at either of two places. -/
structure CommitLaws {ε : Type} {α : Type u} {β : Type v} {γ : Type w} (note : Location → List ε)
    (p q : Parser ε α) (r : Parser ε β) (s : Parser ε γ) (f : Parser ε (α → β))
    (t u : Parser ε (List Char)) : Prop where
  commit : (p.commit note).commit note = p.commit note
  seq : (seq p r).commit note = seq (p.commit note) (r.commit note)
  keepRight : (keepRight p r).commit note = keepRight (p.commit note) (r.commit note)
  keepLeft : (keepLeft p r).commit note = keepLeft (p.commit note) (r.commit note)
  between : (between p r s).commit note =
    between (p.commit note) (r.commit note) (s.commit note)
  surrounded : (p.surrounded r).commit note = (p.commit note).surrounded (r.commit note)
  concat : (concat t u).commit note = concat (t.commit note) (u.commit note)
  apply : (apply f p).commit note = apply (f.commit note) (p.commit note)
  orElse : (p.orElse q).commit note = p.orElse (q.commit note)
  tag : ∀ d, (p.tag d).commit note = (p.commit note).tag d
  times : ∀ n, (times n p).commit note = times n (p.commit note)
  many1 : p.many1.commit note = (Parser.seq (p.commit note) p.many).map fun (a, as) => a :: as
  many : p.many.commit note = p.many
  optional : p.optional.commit note = p.optional
  withDefault : ∀ a, (p.withDefault a).commit note = p.withDefault a
  sepBy : (sepBy p r).commit note = sepBy p r

/-- Where a target that `p` has read is refused, a commitment to `p` does not help: that is a
recoverable failure where `p` began, and nothing is logged of it. Only a commitment to all of it
makes it a committed one. -/
structure RefusalLaws {ε : Type} {α : Type u} {β : Type v} (note : Location → List ε)
    (p : Parser ε α) (g : α → Option β) (test : α → Bool) (d : Option String) (c : Cursor)
    (t : Parse α) : Prop where
  filterMap : g t.target = none →
    ((p.commit note).filterMap g d).run c = ⟨(p.run c).log, .failure ⟨c, d, false, false⟩⟩
  filter : test t.target = false →
    ((p.commit note).filter test).run c = ⟨(p.run c).log, .failure (.unexpected c)⟩
  commit_filterMap : g t.target = none → ((p.filterMap g d).commit note).run c =
    ⟨(p.run c).log ++ note c.location, .failure ⟨c, d, false, true⟩⟩

section

variable {ε : Type} {α : Type u} {β : Type v} {γ : Type w}

theorem commitLaws (note : Location → List ε) (p q : Parser ε α) (r : Parser ε β) (s : Parser ε γ)
    (f : Parser ε (α → β)) (t u : Parser ε (List Char)) : CommitLaws note p q r s f t u where
  commit := commit_commit note p
  seq := commit_andThen note _ p r
  keepRight := commit_andThen note _ p r
  keepLeft := commit_andThen note _ p r
  between := commit_between note p r s
  surrounded := commit_between note r p r
  concat := commit_andThen note _ t u
  apply := commit_andThen note _ f p
  orElse := commit_orElse note p q
  tag d := commit_tag note d p
  times n := commit_times note n p
  many1 := commit_many1 note p
  many := (many_neverDeclines p).commit
  optional := (optional_neverDeclines p).commit
  withDefault a := (withDefault_neverDeclines a p).commit
  sepBy := (withDefault_neverDeclines [] (sepBy1 p r)).commit

theorem refusalLaws {p : Parser ε α} {c : Cursor} {t : Parse α}
    (ht : (p.run c).outcome = .success t) (note : Location → List ε) (g : α → Option β)
    (test : α → Bool) (d : Option String) : RefusalLaws note p g test d c t := by
  have same := commit_of_success ht note
  have committed : ((p.commit note).run c).outcome = .success t := by rw [same, ht]
  constructor
  · intro hg
    rw [filterMap_of_refused committed hg, same]
  · intro htest
    rw [filter_eq_filterMap, filterMap_of_refused committed (by simp [htest]), same]
    rfl
  · intro hg
    simp only [commit, filterMap_of_refused ht hg]
    rfl

/-- A commitment may be moved into a sequence, to the last of several alternatives, past a tag, and
to the first item of a repetition, and left out where nothing is ever declined, without any change
to what is parsed, to how a parse fails or to what is logged. It may not be moved past what refuses
targets. -/
theorem commitment_moves (note : Location → List ε) :
    (∀ (p q : Parser ε α) (r : Parser ε β) (s : Parser ε γ) (f : Parser ε (α → β))
      (t u : Parser ε (List Char)), CommitLaws note p q r s f t u) ∧
    ∀ (p : Parser ε α) (c : Cursor) (t : Parse α), (p.run c).outcome = .success t →
      ∀ (g : α → Option β) (test : α → Bool) (d : Option String),
        RefusalLaws note p g test d c t :=
  ⟨commitLaws note, fun _ _ _ ht g test d => refusalLaws ht note g test d⟩

/-- A zero that is read after a commitment and then refused. -/
theorem commitment_moves_of_zero :
    let p : Parser Location Char := char .digit
    let nonzero (x : Char) : Option Char := if x = '0' then none else some x
    let c : Cursor := .ofText ['0']
    (p.run c).outcome = .success (.spanning '0' c (c.drop 1)) ∧ nonzero '0' = none ∧
      ((p.commit fun l => [l]).filterMap nonzero (some "another digit")).run c =
        ⟨[], .failure ⟨c, some "another digit", false, false⟩⟩ ∧
      ((p.filterMap nonzero (some "another digit")).commit fun l => [l]).run c =
        ⟨[.start], .failure ⟨c, some "another digit", false, true⟩⟩ := by
  intro p nonzero c
  have read : (p.run c).outcome = .success (.spanning '0' c (c.drop 1)) := rfl
  have refused := (commitment_moves (γ := Unit) fun l => [l]).2 p c _ read nonzero (· != '0')
    (some "another digit")
  exact ⟨read, rfl, refused.filterMap rfl, refused.commit_filterMap rfl⟩

end

end Parser

end TextParsing
