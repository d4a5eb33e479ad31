import TextParsing.Grammar.Forms
import TextParsing.Proofs.Agreement
import TextParsing.Proofs.Likeness

/-!
Grammars without their tags. A tag changes how a failure is described and nothing else of it, and no
parser looks at a description. So a grammar makes the same runs with its tags as without them, but
for those of the tags themselves, and each of them ends in the same way.
-/

namespace TextParsing

/-- The same grammar without its tags, also in the grammars it chooses while it is run. -/
@[simp] def Grammar.untag {n k : Nat} : Grammar n k → Grammar n k
  | succeed v => succeed v
  | failHere f => failHere f
  | char s => char s
  | peek s => peek s
  | token cs => token cs
  | pattern p => pattern p
  | endOfText => endOfText
  | mapWithRange g a => a.untag.mapWithRange g
  | filterMap g d a => a.untag.filterMap g d
  | bindWithRange a next => a.untag.bindWithRange fun v r => (next v r).untag
  | andThen g a b => andThen g a.untag b.untag
  | orElse a b => a.untag.orElse b.untag
  | commit a => a.untag.commit
  | tag _ a => a.untag
  | lexeme a => a.untag.lexeme
  | withDefault v a => a.untag.withDefault v
  | many a => a.untag.many
  | many1 a => a.untag.many1
  | times m a => a.untag.times m
  | sepBy1 a sep => a.untag.sepBy1 sep.untag
  | sepBy a sep => a.untag.sepBy sep.untag
  | chainLeft g a o => chainLeft g a.untag o.untag
  | chainRight g a o => chainRight g a.untag o.untag
  | chainSuffix g a s => chainSuffix g a.untag s.untag
  | recursive body => body.untag.recursive
  | ref i => ref i
  | dangling => dangling
  | rule i => rule i

def Rules.untag {n : Nat} (rules : Rules n) : Rules n := fun i => (rules i).untag

variable {n k : Nat}

def Grammar.isTag : Grammar n k → Bool
  | tag _ _ => true
  | _ => false

namespace Failure

/-- The failures are at the same place and classified alike. -/
structure Coincides (f f' : Failure) : Prop where
  cursor : f'.cursor = f.cursor
  committed : f'.committed = f.committed

/-- The failure `f'` is the failure `f` without the tag that it may have. -/
structure Untagged (f f' : Failure) : Prop extends f.Coincides f' where
  bare : f.tagged = false → f' = f

namespace Untagged

variable {f f' : Failure}

theorem refl (f : Failure) : f.Untagged f := ⟨⟨rfl, rfl⟩, fun _ => rfl⟩

theorem tag_left (h : f.Untagged f') (d : String) : (f.tag d).Untagged f' where
  cursor := h.cursor.trans (f.tag_cursor d).symm
  committed := h.committed.trans (f.tag_committed d).symm
  bare := by simp

theorem tag (h : f.Untagged f') (d : String) : (f.tag d).Untagged (f'.tag d) where
  cursor := by rw [tag_cursor, tag_cursor, h.cursor]
  committed := by rw [tag_committed, tag_committed, h.committed]
  bare := by simp

theorem commit (h : f.Untagged f') : f.commit.Untagged f'.commit :=
  ⟨⟨h.cursor, rfl⟩, fun ht => congrArg Failure.commit (h.bare ht)⟩

/-- Two failures that are the same without their tags. -/
theorem meet {g : Failure} (h : f.Untagged g) (h' : f'.Untagged g) : f.Coincides f' :=
  ⟨h'.cursor.symm.trans h.cursor, h'.committed.symm.trans h.committed⟩

end Untagged

end Failure

/-- The run `t'` is the run `t` without its tags: where the one is the run of a tag, the other is
the run of what is tagged, and all other runs have the same parts from the same places, in the same
order. -/
inductive Run.Untagged : Run n → Run n → Prop
  | tag {k : Nat} {d : String} {a : Grammar n k} {c : Cursor} {o o' : Outcome (Parse Value)}
    {ts : List (Run n)} {t : Run n} (ends : o.Alike Eq Failure.Untagged t.outcome)
    (part : Untagged (node a c o' ts) t) : Untagged (node (.tag d a) c o [node a c o' ts]) t
  | node {k : Nat} {a : Grammar n k} {c : Cursor} {o o' : Outcome (Parse Value)}
    {ts ts' : List (Run n)} (ha : a.isTag = false) (ends : o.Alike Eq Failure.Untagged o')
    (parts : List.Forall₂ Untagged ts ts') : Untagged (node a c o ts) (node a.untag c o' ts')

theorem Run.Untagged.ends {t t' : Run n} (h : t.Untagged t') :
    t.outcome.Alike Eq Failure.Untagged t'.outcome := by
  cases h with
  | tag ends _ => exact ends
  | node _ ends _ => exact ends

def untagging : Likeness (Run n) (Run n) where
  Logs := List.Forall₂ Run.Untagged
  Places := Eq
  Locations := Eq
  Failures := Failure.Untagged
  logs_nil := .nil
  logs_append hx hy := List.rel_append hx hy
  location := congrArg Cursor.location
  rest := Cursor.rest_of_eq
  offset := Cursor.offset_of_eq
  reads := Cursor.Reads.of_eq
  committed h := h.committed
  failure := by
    rintro c _ expected tagged committed rfl
    exact .refl _
  commit h := h.commit
  tag d h := h.tag d

theorem untagging_exact : (untagging (n := n)).Exact := fun _ _ h => h

theorem parse_eq {t t' : Parse Value} (h : t.Alike (untagging (n := n)) Eq t') : t = t' :=
  h.eq untagging_exact fun _ _ hc => hc

namespace Grammar

variable {a : Grammar n k} {p p' : Parser (Run n) Value}

theorem watch_untagged (ha : a.isTag = false) (h : p.Alike untagging Eq p') :
    (Recorder.runs.watch a p).Alike untagging Eq (Recorder.runs.watch a.untag p') := by
  rintro c _ rfl
  obtain ⟨log, outcome⟩ := h c c rfl
  refine ⟨.cons (.node ha ?_ log) .nil, outcome⟩
  exact outcome.mono (fun _ _ => parse_eq) fun _ _ hf => hf

/-- A tag hands on what its part does, and describes its failure. -/
theorem tag_untagged (d : String)
    (h : (Recorder.runs.watch a p).Alike untagging Eq (Recorder.runs.watch a.untag p')) :
    (Recorder.runs.watch (a.tag d) ((Recorder.runs.watch a p).tag d)).Alike untagging Eq
      (Recorder.runs.watch a.untag p') := by
  rintro c _ rfl
  obtain ⟨log, outcome⟩ := (h c c rfl).mapFailure_left fun _ _ hf => hf.tag_left d
  obtain ⟨part, -⟩ := List.forall₂_cons.1 (h c c rfl).log
  have log : (((Recorder.runs.watch a p).tag d).run c).log = [.ofReply a c (p.run c)] :=
    Reply.log_mapFailure ..
  refine ⟨.cons ?_ .nil, outcome⟩
  rw [Run.ofReply, log]
  exact .tag (outcome.mono (fun _ _ => parse_eq) fun _ _ hf => hf) part

/-- The same grammar with its tags and without them makes like runs. -/
theorem toParser_untagged {depth : Nat} {rules rules' : Fin n → Parser (Run n) Value}
    (hr : ∀ i, (rules i).Alike untagging Eq (rules' i)) (a : Grammar n k)
    {h h' : Fin k → Parser (Run n) Value} (hh : ∀ i, (h i).Alike untagging Eq (h' i)) :
    (Recorder.runs.watch a (a.toParser .runs depth rules h)).Alike untagging Eq
      (Recorder.runs.watch a.untag (a.untag.toParser .runs depth rules' h')) := by
  induction a with
  | tag d a ih => exact tag_untagged d (ih hh)
  | succeed v => exact watch_untagged rfl (Parser.succeed_alike rfl)
  | failHere f =>
    apply watch_untagged rfl
    apply Parser.failWith_alike
    rintro c _ rfl
    exact .refl _
  | dangling =>
    apply watch_untagged rfl
    apply Parser.failWith_alike
    rintro c _ rfl
    exact .refl _
  | char s =>
    exact watch_untagged rfl ((Parser.char_alike s).map fun _ _ => congrArg Value.char)
  | peek s =>
    exact watch_untagged rfl ((Parser.peek_alike s).map fun _ _ => congrArg Value.bool)
  | token cs =>
    exact watch_untagged rfl ((Parser.token_alike cs).map fun _ _ => congrArg Value.text)
  | pattern p =>
    exact watch_untagged rfl ((Parser.pattern_alike p).map fun _ _ => congrArg Value.text)
  | endOfText => exact watch_untagged rfl (Parser.endOfText_alike.map fun _ _ _ => rfl)
  | mapWithRange g a ih =>
    exact watch_untagged rfl ((ih hh).mapWithRange (untagging_exact.congr g))
  | filterMap g d a ih => exact watch_untagged rfl ((ih hh).filterMap (option_congr g))
  | bindWithRange a next iha ihn =>
    apply watch_untagged rfl
    apply (iha hh).bindWithRange
    rintro v _ r r' rfl hr'
    obtain rfl := hr'.eq untagging_exact
    exact ihn v r hh
  | andThen g a b iha ihb =>
    exact watch_untagged rfl ((iha hh).andThen (ihb hh) (untagging_exact.congr₂ g))
  | orElse a b iha ihb => exact watch_untagged rfl ((iha hh).orElse (ihb hh))
  | commit a ih => exact watch_untagged rfl ((ih hh).commit fun _ _ _ => .nil)
  | lexeme a ih =>
    exact watch_untagged rfl ((ih hh).lexeme.map fun _ _ => congrArg Value.text)
  | withDefault v a ih => exact watch_untagged rfl ((ih hh).withDefault rfl)
  | many a ih => exact watch_untagged rfl ((ih hh).many.map list_congr)
  | many1 a ih => exact watch_untagged rfl ((ih hh).many1.map list_congr)
  | times m a ih => exact watch_untagged rfl ((ih hh).times.map list_congr)
  | sepBy1 a sep iha ihs => exact watch_untagged rfl (((iha hh).sepBy1 (ihs hh)).map list_congr)
  | sepBy a sep iha ihs => exact watch_untagged rfl (((iha hh).sepBy (ihs hh)).map list_congr)
  | chainLeft g a o iha iho =>
    exact watch_untagged rfl (.chainLeft (untagging_exact.congr₃ g) (iha hh) (iho hh))
  | chainRight g a o iha iho =>
    exact watch_untagged rfl (.chainRight (untagging_exact.congr₃ g) (iha hh) (iho hh))
  | chainSuffix g a s iha ihs =>
    exact watch_untagged rfl ((iha hh).chainSuffix (ihs hh) (untagging_exact.congr₂ g))
  | recursive body ih =>
    apply watch_untagged rfl
    refine Parser.unroll_alike (fun p p' hp => ?_) depth
    exact ih (Fin.cases hp hh)
  | ref i => exact watch_untagged rfl (hh i)
  | rule i => exact watch_untagged rfl (hr i)

theorem runRule_untagged (rules : Rules n) (depth m : Nat) (i : Fin n) :
    (Parser.mk (runRule .runs rules depth m i)).Alike untagging Eq
      (Parser.mk (runRule .runs rules.untag depth m i)) := by
  induction m generalizing i with
  | zero => exact fun _ _ _ => Reply.unfinished_alike
  | succ m ih => exact toParser_untagged ih (rules i) nofun

/-- What is run does not depend on the tags. -/
theorem runAt_untagged (rules : Rules n) (depth : Nat) (a : Grammar n 0) (c : Cursor) :
    (a.runAt rules depth c).Untagged (a.untag.runAt rules.untag depth c) := by
  have alike : (Recorder.runs.watch a (a.recordedAt .runs rules depth)).Alike untagging Eq
      (Recorder.runs.watch a.untag (a.untag.recordedAt .runs rules.untag depth)) :=
    toParser_untagged (runRule_untagged rules depth depth) a nofun
  exact (List.forall₂_cons.1 (alike c c rfl).log).1

theorem parserAt_untagged (rules : Rules n) (depth : Nat) (a : Grammar n 0) (c : Cursor) :
    ((a.parserAt rules depth).run c).outcome.Alike Eq Failure.Untagged
      ((a.untag.parserAt rules.untag depth).run c).outcome := by
  rw [← runAt_outcome, ← runAt_outcome]
  exact (runAt_untagged rules depth a c).ends

theorem parserAt_retagged {rules rules' : Rules n} (hr : rules'.untag = rules.untag)
    {a a' : Grammar n 0} (ha : a'.untag = a.untag) (depth : Nat) (c : Cursor) :
    ((a.parserAt rules depth).run c).outcome.Alike Eq Failure.Coincides
      ((a'.parserAt rules' depth).run c).outcome := by
  have bare := parserAt_untagged rules depth a c
  have bare' := parserAt_untagged rules' depth a' c
  rw [ha, hr] at bare'
  exact bare.meet bare' fun _ _ _ => Failure.Untagged.meet

/-- A grammar does with its tags what it does without them: it makes the same runs, and each of
these ends in the same way, but for the description of a failure that has a tag. So it does not
matter where the tags of a grammar are. -/
theorem tags_only_describe (rules : Rules n) (a : Grammar n 0) (c : Cursor) :
    (∀ depth,
      ((a.parserAt rules depth).run c).outcome.Alike Eq Failure.Untagged
        ((a.untag.parserAt rules.untag depth).run c).outcome ∧
      (a.runAt rules depth c).Untagged (a.untag.runAt rules.untag depth c)) ∧
    ((a.parser rules).run c).outcome.Alike Eq Failure.Untagged
      ((a.untag.parser rules.untag).run c).outcome ∧
    ∀ (rules' : Rules n) (a' : Grammar n 0), rules'.untag = rules.untag → a'.untag = a.untag →
      (∀ depth,
        ((a.parserAt rules depth).run c).outcome.Alike Eq Failure.Coincides
          ((a'.parserAt rules' depth).run c).outcome ∧
        ∃ t, (a.runAt rules depth c).Untagged t ∧ (a'.runAt rules' depth c).Untagged t) ∧
      ((a.parser rules).run c).outcome.Alike Eq Failure.Coincides
        ((a'.parser rules').run c).outcome := by
  refine ⟨fun depth => ⟨parserAt_untagged rules depth a c, runAt_untagged rules depth a c⟩,
    parserAt_untagged rules _ a c, fun rules' a' hr ha => ⟨fun depth => ?_, ?_⟩⟩
  · refine ⟨parserAt_retagged hr ha depth c, _, runAt_untagged rules depth a c, ?_⟩
    rw [← ha, ← hr]
    exact runAt_untagged rules' depth a' c
  · exact parserAt_retagged hr ha _ c

/-- Two choices whose tags are at different places. The first alternative is committed to after its
first character, and its failure has one tag or the other, or none. -/
theorem tags_only_describe_of_choice :
    let b : Grammar 0 0 := char (.single 'b')
    let a : Grammar 0 0 :=
      ((char (.single 'a')).seq (b.tag "second").commit).orElse ((char (.single 'c')).tag "other")
    let a' : Grammar 0 0 := (((char (.single 'a')).seq b.commit).tag "pair").orElse
      (char (.single 'c'))
    let c : Cursor := .ofText ['a', 'x']
    let rules : Rules 0 := Fin.elim0
    rules.untag = rules.untag ∧ a'.untag = a.untag ∧
      ((a.parserAt rules 1).run c).outcome = .failure ⟨c.drop 1, some "second", true, true⟩ ∧
      ((a'.parserAt rules 1).run c).outcome = .failure ⟨c.drop 1, some "pair", true, true⟩ ∧
      ((a.untag.parserAt rules.untag 1).run c).outcome =
        .failure ⟨c.drop 1, some (CharClass.single 'b').expected, false, true⟩ ∧
      ∃ t, (a.runAt rules 1 c).Untagged t ∧ (a'.runAt rules 1 c).Untagged t := by
  intro b a a' c rules
  have same := (tags_only_describe rules a c).2.2 rules a' rfl rfl
  exact ⟨rfl, rfl, rfl, rfl, rfl, (same.1 1).2⟩

end Grammar

end TextParsing
