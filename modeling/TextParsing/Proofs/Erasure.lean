import TextParsing.Grammar.Forms
import TextParsing.Proofs.Agreement

/-!
Grammars without their commitments. A commitment only turns a recoverable failure into one that
ends the run, so a run that does not end in a committed failure goes on without commitments as it
does with them.
-/

namespace TextParsing

/-- The same grammar without its commitments, also in the grammars it chooses while it is run. -/
@[simp] def Grammar.erase {n k : Nat} : Grammar n k → Grammar n k
  | succeed v => succeed v
  | failHere f => failHere f
  | char s => char s
  | peek s => peek s
  | token cs => token cs
  | pattern p => pattern p
  | endOfText => endOfText
  | mapWithRange g a => a.erase.mapWithRange g
  | filterMap g d a => a.erase.filterMap g d
  | bindWithRange a next => a.erase.bindWithRange fun v r => (next v r).erase
  | andThen g a b => andThen g a.erase b.erase
  | orElse a b => a.erase.orElse b.erase
  | commit a => a.erase
  | tag d a => a.erase.tag d
  | lexeme a => a.erase.lexeme
  | withDefault v a => a.erase.withDefault v
  | many a => a.erase.many
  | many1 a => a.erase.many1
  | times m a => a.erase.times m
  | sepBy1 a sep => a.erase.sepBy1 sep.erase
  | sepBy a sep => a.erase.sepBy sep.erase
  | chainLeft g a o => chainLeft g a.erase o.erase
  | chainRight g a o => chainRight g a.erase o.erase
  | chainSuffix g a s => chainSuffix g a.erase s.erase
  | recursive body => body.erase.recursive
  | ref i => ref i
  | dangling => dangling
  | rule i => rule i

def Rules.erase {n : Nat} (rules : Rules n) : Rules n := fun i => (rules i).erase

namespace Grammar

variable {n k : Nat} {ε ε' : Type} {R : Recorder n ε} {R' : Recorder n ε'}

theorem toParser_erase_agrees {depth : Nat} {rules : Fin n → Parser ε Value}
    {rules' : Fin n → Parser ε' Value} (hr : ∀ i, (rules i).Agrees .uncommitted (rules' i))
    (a : Grammar n k) {h : Fin k → Parser ε Value} {h' : Fin k → Parser ε' Value}
    (hh : ∀ i, (h i).Agrees .uncommitted (h' i)) :
    (a.toParser R depth rules h).Agrees .uncommitted (a.erase.toParser R' depth rules' h') := by
  induction a with
  | succeed | failHere | peek | dangling => exact fun c => Reply.agrees_of_outcome_eq rfl
  | char s => exact (Parser.char_agrees s).map
  | token cs => exact (Parser.token_agrees cs).map
  | pattern p => exact (Parser.pattern_agrees p).map
  | endOfText => exact Parser.endOfText_agrees.map
  | mapWithRange g a ih => exact (watch_agrees (ih hh)).mapWithRange
  | filterMap g d a ih => exact (watch_agrees (ih hh)).filterMap
  | bindWithRange a next iha ihn =>
    exact (watch_agrees (iha hh)).bindWithRange fun v r => watch_agrees (ihn v r hh)
  | andThen g a b iha ihb => exact (watch_agrees (iha hh)).andThen (watch_agrees (ihb hh))
  | orElse a b iha ihb => exact (watch_agrees (iha hh)).orElse (watch_agrees (ihb hh))
  | commit a ih => exact Parser.Agrees.uncommit (p := R.watch a _) (ih hh)
  | tag d a ih => exact (watch_agrees (ih hh)).tag
  | lexeme a ih => exact (watch_agrees (ih hh)).lexeme.map
  | withDefault v a ih => exact (watch_agrees (ih hh)).withDefault
  | many a ih => exact (watch_agrees (ih hh)).many.map
  | many1 a ih => exact (watch_agrees (ih hh)).many1.map
  | times m a ih => exact (watch_agrees (ih hh)).times.map
  | sepBy1 a sep iha ihs => exact ((watch_agrees (iha hh)).sepBy1 (watch_agrees (ihs hh))).map
  | sepBy a sep iha ihs => exact ((watch_agrees (iha hh)).sepBy (watch_agrees (ihs hh))).map
  | chainLeft g a o iha iho => exact (watch_agrees (iha hh)).chainLeft (watch_agrees (iho hh))
  | chainRight g a o iha iho => exact (watch_agrees (iha hh)).chainRight (watch_agrees (iho hh))
  | chainSuffix g a s iha ihs => exact (watch_agrees (iha hh)).chainSuffix (watch_agrees (ihs hh))
  | recursive body ih =>
    exact .unroll (fun p p' hp => watch_agrees (ih (Fin.cases hp hh))) (.refl _ depth)
  | ref i => exact hh i
  | rule i => exact hr i

theorem runRule_erase_agrees (rules : Rules n) (depth m : Nat) (i : Fin n) :
    (Parser.mk (runRule R rules depth m i)).Agrees .uncommitted
      (Parser.mk (runRule R' rules.erase depth m i)) :=
  Parser.agrees_of_depths (fun m i => ⟨runRule R rules depth m i⟩)
    (fun m i => ⟨runRule R' rules.erase depth m i⟩) (fun _ _ => rfl) (fun _ _ => rfl)
    (fun _ _ h i => watch_agrees (toParser_erase_agrees h (rules i) nofun)) (.refl _ m) i

theorem parserAt_erase_agrees (rules : Rules n) (depth : Nat) (a : Grammar n 0) :
    (a.parserAt rules depth).Agrees .uncommitted (a.erase.parserAt rules.erase depth) :=
  toParser_erase_agrees (runRule_erase_agrees rules depth depth) a nofun

theorem success_of_accepted {width : Nat} {o : Outcome (Parse Value)} {v : Value}
    (h : Answer.ofOutcome width o = .accepted v) : ∃ t, o = .success t := by
  cases o with
  | success t => exact ⟨t, rfl⟩
  | failure f => exact nomatch h
  | unfinished => exact nomatch h

/-- Without its commitments a grammar has the same outcome wherever that is not a committed failure,
so it accepts whatever it accepts with them, as the same value. -/
theorem erase_outcome (rules : Rules n) (a : Grammar n 0) :
    (∀ depth c o, ((a.parserAt rules depth).run c).outcome = o → o ≠ .unfinished →
      (∀ f, o = .failure f → f.committed = false) →
      ((a.erase.parserAt rules.erase depth).run c).outcome = o) ∧
    ∀ width text v, a.parse rules width text = .accepted v →
      a.erase.parse rules.erase width text = .accepted v := by
  constructor
  · rintro depth c o rfl ended uncommitted
    apply parserAt_erase_agrees rules depth a c
    apply Scope.has_of
    · intro f hf _
      exact uncommitted f hf
    · intro hu
      exact absurd hu ended
  · intro width text v accepted
    obtain ⟨t, ht⟩ := success_of_accepted accepted
    have he := parserAt_erase_agrees rules (sufficientDepth n (.ofText text)) a (.ofText text)
    change Answer.ofOutcome width ((a.erase.parserAt rules.erase _).run _).outcome = _
    rw [he (ht ▸ trivial)]
    exact accepted

/-- The first alternative commits after its first character. One text does not get that far, the
other one gets through. -/
theorem erase_outcome_of_choice :
    let a : Grammar 0 0 := ((char (.single 'a')).seq (char (.single 'b')).commit).orElse
      (char (.single 'c'))
    let t : Parse Value := ⟨.char 'c', ⟨⟨1, 1, 0⟩, ⟨1, 2, 1⟩⟩, ⟨['c'], [], 1, ⟨1, 2, 1⟩⟩⟩
    let v : Value := .pair (.char 'a') (.char 'b')
    ((a.parserAt Fin.elim0 1).run (.ofText ['c'])).outcome = .success t ∧
      ((a.erase.parserAt (Rules.erase Fin.elim0) 1).run (.ofText ['c'])).outcome = .success t ∧
      a.parse Fin.elim0 80 ['a', 'b'] = .accepted v ∧
      a.erase.parse (Rules.erase Fin.elim0) 80 ['a', 'b'] = .accepted v :=
  ⟨rfl, (erase_outcome Fin.elim0 _).1 1 _ _ rfl nofun nofun, rfl,
    (erase_outcome Fin.elim0 _).2 80 _ _ rfl⟩

end Grammar

end TextParsing
