import TextParsing.Proofs.Likeness
import TextParsing.Proofs.Provenance

/-!
What is noted while a text is parsed. The places that a parser logs can be read off its run: each
commitment logs the recoverable failure that it changes. The failure of a lawful run has come
through one chain of runs, and what is logged off that chain has been nothing, so at most one place
is logged, which is the one that is reported.
-/

namespace TextParsing

variable {n k : Nat}

namespace Run

/-- Where the run has failed, if it has failed recoverably. -/
def recoverable (t : Run n) : List Location :=
  match t.outcome with
  | .failure f => if f.committed then [] else [f.location]
  | _ => []

end Run

/-- What a run of `a` that made the runs `ts` and fails logs of itself. -/
def Grammar.mark : Grammar n k → Outcome (Parse Value) → List (Run n) → List Location
  | commit _, .failure _, ts => ts.getLast?.elim [] Run.recoverable
  | _, _, _ => []

namespace Run

mutual

/-- The places that a run logs, in order. -/
def marks : Run n → List Location
  | node a _ o ts => marksOf ts ++ a.mark o ts

def marksOf : List (Run n) → List Location
  | [] => []
  | t :: ts => t.marks ++ marksOf ts

end

theorem marksOf_eq (ts : List (Run n)) : marksOf ts = ts.flatMap marks := by
  induction ts with
  | nil => rfl
  | cons t ts ih => rw [marksOf, ih, List.flatMap_cons]

theorem marks_node (a : Grammar n k) (c : Cursor) (o : Outcome (Parse Value)) (ts : List (Run n)) :
    (node a c o ts).marks = ts.flatMap marks ++ a.mark o ts := by
  rw [marks, marksOf_eq]

theorem marks_commit_of_failure (a : Grammar n k) (c : Cursor) (f : Failure) (t : Run n) :
    (node a.commit c (.failure f) [t]).marks = t.marks ++ t.recoverable := by
  rw [marks_node, List.flatMap_singleton]
  rfl

theorem marks_commit (a : Grammar n k) (c : Cursor) (o : Outcome (Parse Value))
    (ho : ∀ f, o ≠ .failure f) (t : Run n) : (node a.commit c o [t]).marks = t.marks := by
  rw [marks_node, List.flatMap_singleton]
  cases o with
  | failure f => exact absurd rfl (ho f)
  | success u => exact List.append_nil _
  | unfinished => exact List.append_nil _

/-- Two runs that are the same but for the log: places there, runs here. -/
def marked : Likeness Location (Run n) where
  Logs xs ts := xs = ts.flatMap marks
  Places := Eq
  Locations := Eq
  Failures := Eq
  logs_nil := rfl
  logs_append := by
    rintro _ _ ts us rfl rfl
    exact List.flatMap_append.symm
  location := congrArg Cursor.location
  rest := Cursor.rest_of_eq
  offset := Cursor.offset_of_eq
  reads := Cursor.Reads.of_eq
  committed := Failure.committed_of_eq
  failure := by
    rintro c _ expected tagged committed rfl
    rfl
  commit := congrArg Failure.commit
  tag := Failure.tag_of_eq

theorem marked_exact : (marked (n := n)).Exact := fun _ _ h => h

theorem logs_singleton {xs : List Location} {t : Run n} : marked.Logs xs [t] ↔ xs = t.marks := by
  change xs = List.flatMap marks [t] ↔ _
  rw [List.flatMap_singleton]

end Run

namespace Grammar

open Run (marked)

variable {a : Grammar n k}

/-- A run that does not log of itself logs what its parts do. -/
theorem watch_alike (ha : ∀ o (ts : List (Run n)), a.mark o ts = []) {p : Parser Location Value}
    {p' : Parser (Run n) Value} (h : p.Alike marked Eq p') :
    p.Alike marked Eq (Recorder.runs.watch a p') := by
  intro c c' hc
  obtain ⟨log, outcome⟩ := h c c' hc
  refine ⟨Run.logs_singleton.2 ?_, outcome⟩
  rw [Run.ofReply, Run.marks_node, ha, List.append_nil]
  exact log

/-- A commitment logs the failure of its part after all that the part has logged. -/
theorem commit_alike {p : Parser Location Value} {p' : Parser (Run n) Value}
    (h : p.Alike marked Eq (Recorder.runs.watch a p')) :
    (p.commit fun l => [l]).Alike marked Eq
      (Recorder.runs.watch a.commit ((Recorder.runs.watch a p').commit fun _ => [])) := by
  intro c c' hc
  obtain ⟨log, outcome⟩ := h c c' hc
  simp only [Recorder.watch, Recorder.runs, Parser.commit] at log outcome ⊢
  generalize p.run c = r at log outcome ⊢
  generalize p'.run c' = r' at log outcome ⊢
  obtain ⟨xs, o⟩ := r
  obtain ⟨ts, o'⟩ := r'
  obtain rfl : xs = _ := Run.logs_singleton.1 log
  cases outcome with
  | success ht =>
    simp only [Reply.commit]
    exact ⟨Run.logs_singleton.2 (Run.marks_commit a c' (.success _) (by simp) _).symm, .success ht⟩
  | @failure f f' hf =>
    obtain rfl : f = f' := hf
    cases hc : f.committed <;> simp only [Reply.commit, hc] <;>
      refine ⟨Run.logs_singleton.2 ((Run.marks_commit_of_failure ..).trans ?_).symm, .failure rfl⟩
    · simp [Run.recoverable, Run.ofReply, Run.outcome, hc]
    · simp [Run.recoverable, Run.ofReply, Run.outcome, hc]
  | unfinished =>
    simp only [Reply.commit]
    exact ⟨Run.logs_singleton.2 (Run.marks_commit a c' .unfinished (by simp) _).symm, .unfinished⟩

/-- The same grammar with two recorders: what the one logs is read off the runs that the other
logs. -/
theorem toParser_alike_runs {depth : Nat} {rules : Fin n → Parser Location Value}
    {rules' : Fin n → Parser (Run n) Value} (hr : ∀ i, (rules i).Alike marked Eq (rules' i))
    (a : Grammar n k) {h : Fin k → Parser Location Value} {h' : Fin k → Parser (Run n) Value}
    (hh : ∀ i, (h i).Alike marked Eq (h' i)) :
    (a.toParser .commits depth rules h).Alike marked Eq
      (Recorder.runs.watch a (a.toParser .runs depth rules' h')) := by
  induction a with
  | commit a ih => exact commit_alike (ih hh)
  | succeed v => exact watch_alike (fun _ _ => rfl) (Parser.succeed_alike rfl)
  | failHere f =>
    refine watch_alike (fun _ _ => rfl) (Parser.failWith_alike ?_)
    rintro c _ rfl
    rfl
  | dangling =>
    refine watch_alike (fun _ _ => rfl) (Parser.failWith_alike ?_)
    rintro c _ rfl
    rfl
  | char s =>
    exact watch_alike (fun _ _ => rfl) ((Parser.char_alike s).map fun _ _ => congrArg Value.char)
  | peek s =>
    exact watch_alike (fun _ _ => rfl) ((Parser.peek_alike s).map fun _ _ => congrArg Value.bool)
  | token cs =>
    exact watch_alike (fun _ _ => rfl) ((Parser.token_alike cs).map fun _ _ => congrArg Value.text)
  | pattern p =>
    exact watch_alike (fun _ _ => rfl) ((Parser.pattern_alike p).map fun _ _ => congrArg Value.text)
  | endOfText => exact watch_alike (fun _ _ => rfl) (Parser.endOfText_alike.map fun _ _ _ => rfl)
  | mapWithRange g a ih =>
    exact watch_alike (fun _ _ => rfl) ((ih hh).mapWithRange (Run.marked_exact.congr g))
  | filterMap g d a ih =>
    exact watch_alike (fun _ _ => rfl) ((ih hh).filterMap (option_congr g))
  | bindWithRange a next iha ihn =>
    refine watch_alike (fun _ _ => rfl) ((iha hh).bindWithRange ?_)
    rintro v _ r r' rfl hr'
    obtain rfl := hr'.eq Run.marked_exact
    exact ihn v r hh
  | andThen g a b iha ihb =>
    exact watch_alike (fun _ _ => rfl) ((iha hh).andThen (ihb hh) (Run.marked_exact.congr₂ g))
  | orElse a b iha ihb => exact watch_alike (fun _ _ => rfl) ((iha hh).orElse (ihb hh))
  | tag d a ih => exact watch_alike (fun _ _ => rfl) (ih hh).tag
  | lexeme a ih =>
    exact watch_alike (fun _ _ => rfl) ((ih hh).lexeme.map fun _ _ => congrArg Value.text)
  | withDefault v a ih => exact watch_alike (fun _ _ => rfl) ((ih hh).withDefault rfl)
  | many a ih => exact watch_alike (fun _ _ => rfl) ((ih hh).many.map list_congr)
  | many1 a ih => exact watch_alike (fun _ _ => rfl) ((ih hh).many1.map list_congr)
  | times m a ih => exact watch_alike (fun _ _ => rfl) ((ih hh).times.map list_congr)
  | sepBy1 a sep iha ihs =>
    exact watch_alike (fun _ _ => rfl) (((iha hh).sepBy1 (ihs hh)).map list_congr)
  | sepBy a sep iha ihs =>
    exact watch_alike (fun _ _ => rfl) (((iha hh).sepBy (ihs hh)).map list_congr)
  | chainLeft g a o iha iho =>
    exact watch_alike (fun _ _ => rfl) (.chainLeft (Run.marked_exact.congr₃ g) (iha hh) (iho hh))
  | chainRight g a o iha iho =>
    exact watch_alike (fun _ _ => rfl) (.chainRight (Run.marked_exact.congr₃ g) (iha hh) (iho hh))
  | chainSuffix g a s iha ihs =>
    exact watch_alike (fun _ _ => rfl) ((iha hh).chainSuffix (ihs hh) (Run.marked_exact.congr₂ g))
  | recursive body ih =>
    refine watch_alike (fun _ _ => rfl) (Parser.unroll_alike (fun p p' hp => ?_) depth)
    exact ih (Fin.cases hp hh)
  | ref i => exact watch_alike (fun _ _ => rfl) (hh i)
  | rule i => exact watch_alike (fun _ _ => rfl) (hr i)

theorem runRule_alike_runs (rules : Rules n) (depth m : Nat) (i : Fin n) :
    (Parser.mk (runRule .commits rules depth m i)).Alike marked Eq
      (Parser.mk (runRule .runs rules depth m i)) := by
  induction m generalizing i with
  | zero => exact fun _ _ _ => Reply.unfinished_alike
  | succ m ih => exact toParser_alike_runs ih (rules i) nofun

theorem log_eq_marks (rules : Rules n) (depth : Nat) (a : Grammar n 0) (c : Cursor) :
    ((a.parserAt rules depth).run c).log = (a.runAt rules depth c).marks := by
  have alike : (a.parserAt rules depth).Alike marked Eq
      (Recorder.runs.watch a (a.recordedAt .runs rules depth)) :=
    toParser_alike_runs (runRule_alike_runs rules depth depth) a nofun
  exact Run.logs_singleton.1 (alike c c rfl).log

variable {a : Grammar n k} {ts : List (Run n)}

theorem mark_of_commits_eq_false (ha : a.commits = false) (o : Outcome (Parse Value)) :
    a.mark o ts = [] := by
  cases a with
  | commit a => exact nomatch ha
  | _ => rfl

theorem mark_of_not_failure {o : Outcome (Parse Value)} (ho : ∀ f, o ≠ .failure f) :
    a.mark o ts = [] := by
  cases a with
  | commit a =>
    cases o with
    | failure f => exact absurd rfl (ho f)
    | _ => rfl
  | _ => rfl

theorem mark_concat (f : Failure) (t : Run n) :
    a.mark (.failure f) (ts ++ [t]) = if a.commits then t.recoverable else [] := by
  cases a with
  | commit a => simp [mark, commits]
  | _ => rfl

theorem Refuses.commits_eq_false (h : a.Refuses ts) : a.commits = false := by
  cases a with
  | commit a => exact h.elim
  | _ => rfl

end Grammar

namespace Run

variable {t : Run n}

/-- A run that has not ended in a committed failure has logged nothing. -/
theorem Lawful.marks_eq_nil (h : t.Lawful) (ht : ¬ t.Committed) : t.marks = [] := by
  induction h with
  | @node k a c o ts ends _ _ ih =>
    have quiet (h : ∀ t ∈ ts, ¬ t.Committed) : ts.flatMap marks = [] :=
      List.flatMap_eq_nil_iff.2 fun t m => ih t m (h t m)
    rw [marks_node]
    obtain (⟨h, ho⟩ | @⟨ts, t, f, h, hf⟩) | ⟨h, -⟩ := ends
    · rw [quiet h, Grammar.mark_of_not_failure ho, List.append_nil]
    · have hc : (a.commits || f.committed) = false :=
        (a.adorn_committed f).symm.trans (eq_false_of_ne_true fun hc => ht ⟨_, rfl, hc⟩)
      rw [Bool.or_eq_false_iff] at hc
      rw [quiet, Grammar.mark_of_commits_eq_false hc.1, List.append_nil]
      refine List.forall_mem_append.2 ⟨h, List.forall_mem_singleton.2 ?_⟩
      rintro ⟨g, hg, hgc⟩
      cases hf.symm.trans hg
      exact Bool.false_ne_true (hc.2.symm.trans hgc)
    · rw [quiet fun t m => not_committed (h.not_failed t m),
        Grammar.mark_of_commits_eq_false h.commits_eq_false, List.append_nil]

theorem Creates.outcome {f : Failure} (h : t.Creates f) : t.outcome = .failure f := by
  cases t
  exact h.2

theorem Creates.marks_eq_nil {f : Failure} (h : t.Creates f) (ht : t.Lawful) : t.marks = [] := by
  cases t with
  | node a c o ts =>
    have quiet : ts.flatMap marks = [] := List.flatMap_eq_nil_iff.2 fun s m =>
      (ht.parts s m).marks_eq_nil (not_committed (h.1.not_failed s m))
    rw [marks_node, quiet, Grammar.mark_of_commits_eq_false h.1.commits_eq_false, List.append_nil]

theorem Creates.commits_eq_false {f : Failure} (h : t.Creates f) : t.commits = false := by
  cases t
  exact h.1.commits_eq_false

theorem location_foldr_adorn (chain : List (Run n)) (g : Failure) :
    (chain.foldr adorn g).location = g.location :=
  congrArg Cursor.location (cursor_foldr_adorn chain g)

/-- What has become of a failure on its way out is logged by the next commitment, unless there has
been one or it was made committed. -/
theorem recoverable_of_foldr (t : Run n) (chain : List (Run n)) (g : Failure)
    (h : t.outcome = .failure (chain.foldr adorn g)) :
    t.recoverable = if g.committed || chain.any commits then [] else [g.location] := by
  have committed : (chain.foldr adorn g).committed = (g.committed || chain.any commits) := by
    rw [Bool.eq_iff_iff, committed_foldr_adorn, Bool.or_eq_true, List.any_eq_true]
  simp only [recoverable, h, committed, location_foldr_adorn]

/-- Of the runs that a failure has come through, the first commitment logs it if it was made
recoverable. Nothing else is logged. -/
theorem Blames.marks_eq {chain : List (Run n)} {origin : Run n} {g : Failure}
    (h : t.Blames chain) (ht : t.Lawful) (last : chain.getLast? = some origin)
    (hg : origin.Creates g) :
    t.marks = if !g.committed && chain.any commits then [g.location] else [] := by
  induction h with
  | @made t f hf hp =>
    obtain rfl : t = origin := by simpa using last
    rw [hg.marks_eq_nil ht, List.any_cons, hg.commits_eq_false]
    simp
  | @passed t s f gs chain hf hs hgs h ih =>
    have lawful := ht.parts s (List.mem_of_getLast? hs)
    obtain ⟨origin', g', last', created, -, outcome⟩ := h.outcome lawful
    have last : chain.getLast? = some origin := by
      rw [List.getLast?_cons, last'] at last
      rwa [last']
    obtain rfl : origin' = origin := Option.some.inj (last'.symm.trans last)
    obtain rfl : g' = g := by
      cases created.outcome.symm.trans hg.outcome
      rfl
    cases hgs.symm.trans outcome
    have own := s.recoverable_of_foldr chain g' hgs
    have inner := ih lawful last
    cases ht with
    | @node k a c o ts ends _ parts =>
      obtain (⟨-, ho⟩ | @⟨ts, u, f', hq, hu⟩) | ⟨refuses, -⟩ := ends
      · exact absurd hf (ho f)
      · obtain rfl : u = s := Option.some.inj (List.getLast?_concat.symm.trans hs)
        have quiet : ts.flatMap marks = [] := List.flatMap_eq_nil_iff.2 fun v m =>
          (parts v (List.mem_append_left _ m)).marks_eq_nil (hq v m)
        rw [marks_node, List.flatMap_append, quiet, List.nil_append, List.flatMap_singleton, inner,
          Grammar.mark_concat, own, List.any_cons]
        cases g'.committed <;> cases chain.any commits <;> cases ha : a.commits <;>
          simp [commits, ha]
      · exact absurd hgs (refuses.not_failed s (List.mem_of_getLast? hs) _)

/-- The failure of the run was made recoverable and has come through a commitment. -/
def PassesCommitment (t : Run n) : Prop :=
  ∃ chain origin g, t.Blames chain ∧ chain.getLast? = some origin ∧ origin.Creates g ∧
    g.committed = false ∧ ∃ u ∈ chain, u.commits = true

theorem PassesCommitment.marks_eq (h : t.PassesCommitment) (ht : t.Lawful) :
    ∃ f, t.outcome = .failure f ∧ f.committed = true ∧ t.marks = [f.location] := by
  obtain ⟨chain, origin, g, blames, last, created, recoverable, u, hu, commits⟩ := h
  obtain ⟨origin', g', last', created', -, outcome⟩ := blames.outcome ht
  obtain rfl : origin' = origin := Option.some.inj (last'.symm.trans last)
  obtain rfl : g' = g := by
    cases created'.outcome.symm.trans created.outcome
    rfl
  refine ⟨_, outcome, ?_, ?_⟩
  · exact (committed_foldr_adorn chain g').2 (.inr ⟨u, hu, commits⟩)
  · have any : chain.any Run.commits = true := List.any_eq_true.2 ⟨u, hu, commits⟩
    rw [blames.marks_eq ht last created, recoverable, any, location_foldr_adorn]
    rfl

theorem Lawful.marks_eq_nil_of_not_passes (h : t.Lawful) (hp : ¬ t.PassesCommitment) :
    t.marks = [] := by
  by_cases failed : ∃ f, t.outcome = .failure f
  · obtain ⟨f, hf⟩ := failed
    obtain ⟨chain, blames⟩ := h.exists_blames hf
    obtain ⟨origin, g, last, created, -, -⟩ := blames.outcome h
    rw [blames.marks_eq h last created, if_neg]
    rw [Bool.and_eq_true, Bool.not_eq_true', List.any_eq_true]
    rintro ⟨recoverable, commits⟩
    exact hp ⟨chain, origin, g, blames, last, created, recoverable, commits⟩
  · exact h.marks_eq_nil (not_committed fun f hf => failed ⟨f, hf⟩)

end Run

/-- What is noted of a parse of `cs` that was the run `t` and led to `answer`: the text, then the
place of a commitment if there is one, then the report if there is one. -/
structure Noted (t : Run n) (cs : List Char) (shown : String) (answer : Answer Value)
    (notes : List Note) (committing : Option Location) (failed : Option Report) : Prop where
  notes_eq : notes = .parsing cs shown ::
    (committing.map Note.committing).toList ++ (failed.map Note.failed).toList
  failed_iff : ∀ r, failed = some r ↔ answer = .refused r
  committing_iff : committing.isSome = true ↔ t.PassesCommitment
  committing_at : ∀ l, committing = some l →
    ∃ r, answer = .refused r ∧ r.kind = .committed ∧ r.location = l

theorem Run.Lawful.noted {t : Run n} (h : t.Lawful) (width : Nat) (cs : List Char)
    (shown : String) : ∃ committing failed,
      Noted t cs shown (.ofOutcome width t.outcome)
        (.parsing cs shown :: t.marks.map .committing ++ Note.ofAnswer (.ofOutcome width t.outcome))
        committing failed := by
  obtain ⟨failed, hf, hn⟩ : ∃ failed : Option Report,
      (∀ r, failed = some r ↔ Answer.ofOutcome width t.outcome = .refused r) ∧
      Note.ofAnswer (.ofOutcome width t.outcome) = (failed.map Note.failed).toList := by
    cases Answer.ofOutcome width t.outcome with
    | refused r => exact ⟨some r, by simp, rfl⟩
    | accepted v => exact ⟨none, by simp, rfl⟩
    | unfinished => exact ⟨none, by simp, rfl⟩
  by_cases hp : t.PassesCommitment
  · obtain ⟨f, outcome, committed, marks⟩ := hp.marks_eq h
    refine ⟨some f.location, failed, ?_, hf, ⟨fun _ => hp, fun _ => rfl⟩, ?_⟩
    · rw [marks, hn]
      rfl
    · rintro l ⟨⟩
      rw [outcome]
      refine ⟨_, rfl, ?_, rfl⟩
      rw [committed]
      rfl
  · refine ⟨none, failed, ?_, hf, ⟨nofun, fun h => absurd h hp⟩, nofun⟩
    rw [h.marks_eq_nil_of_not_passes hp, hn]
    rfl

namespace Grammar

/-- The notes on a parse, whatever alternatives and repetitions have failed on the way: the text,
at most one commitment, which is the one that is reported, and the report. -/
theorem notes_of_parse (rules : Rules n) (a : Grammar n 0) (width : Nat) (cs : List Char) :
    (∀ depth, ∃ committing failed,
      Noted (a.runAt rules depth (.ofText cs)) cs a.describe
        ((a.parserAt rules depth).parse width cs)
        ((a.parserAt rules depth).notes a.describe width cs) committing failed) ∧
    ∃ committing failed,
      Noted (a.runAt rules (sufficientDepth n (.ofText cs)) (.ofText cs)) cs a.describe
        (a.parse rules width cs) (a.notes rules width cs) committing failed := by
  have noted (depth : Nat) : ∃ committing failed,
      Noted (a.runAt rules depth (.ofText cs)) cs a.describe
        ((a.parserAt rules depth).parse width cs)
        ((a.parserAt rules depth).notes a.describe width cs) committing failed := by
    have lawful := runAt_lawful rules depth a (.ofText cs)
    obtain ⟨committing, failed, h⟩ := lawful.noted width cs a.describe
    rw [runAt_outcome, ← log_eq_marks] at h
    exact ⟨committing, failed, h⟩
  exact ⟨noted, noted (sufficientDepth n (.ofText cs))⟩

end Grammar

end TextParsing
