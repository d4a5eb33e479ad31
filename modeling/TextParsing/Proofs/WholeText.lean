import TextParsing.Grammar.FormLaws
import TextParsing.Proofs.Extent
import TextParsing.Proofs.Moving

/-!
Parsing the whole of a text. What is answered follows from how the run ended, and a report is about
the character where it ended. To parse a whole text and to run the parser with the end of the text
after it comes to the same, but for the kind of the report on what is left over.
-/

namespace TextParsing

universe u

variable {α : Type u}

/-- What the report `r` says of a parse of `text` that ended in `o`. -/
structure Report.Reports (text : List Char) (o : Outcome (Parse α)) (r : Report) : Prop where
  trailing_iff : r.kind = .trailingInput ↔ ∃ t, o = .success t ∧ t.rest.rest ≠ []
  mismatch_iff : r.kind = .mismatch ↔ ∃ f, o = .failure f ∧ f.committed = false
  committed_iff : r.kind = .committed ↔ ∃ f, o = .failure f ∧ f.committed = true
  after_success : ∀ t, o = .success t → r.location = t.rest.location
  at_failure : ∀ f, o = .failure f → r.location = f.location
  found_eq : r.found = text[r.location.index]?
  found_eq_none : r.found = none ↔ r.location.index = text.length
  found_of_trailing : r.kind = .trailingInput → r.found.isSome = true

/-- What is answered after a parse of `text` that ended in `o`. -/
structure Answer.Answers (text : List Char) (o : Outcome (Parse α)) (answer : Answer α) :
    Prop where
  accepted_iff : ∀ v, answer = .accepted v ↔ ∃ t, o = .success t ∧ t.target = v ∧ t.rest.rest = []
  refused_iff : (∃ r, answer = .refused r) ↔
    (∃ t, o = .success t ∧ t.rest.rest ≠ []) ∨ ∃ f, o = .failure f
  report : ∀ r, answer = .refused r → r.Reports text o

theorem Report.ofFailure_reports {text : List Char} {o : Outcome (Parse α)} {f : Failure}
    {kind : Kind} {width : Nat} (on : f.cursor.On text)
    (trailing : kind = .trailingInput ↔ ∃ t, o = .success t ∧ t.rest.rest ≠ [])
    (mismatch : kind = .mismatch ↔ ∃ f, o = .failure f ∧ f.committed = false)
    (committed : kind = .committed ↔ ∃ f, o = .failure f ∧ f.committed = true)
    (success : ∀ t, o = .success t → f.cursor = t.rest) (failure : ∀ g, o = .failure g → f = g) :
    (Report.ofFailure f kind width).Reports text o where
  trailing_iff := trailing
  mismatch_iff := mismatch
  committed_iff := committed
  after_success t ht := congrArg Cursor.location (success t ht)
  at_failure g hg := congrArg Failure.location (failure g hg)
  found_eq := on.peek_eq
  found_eq_none := on.peek_eq_none
  found_of_trailing h := by
    obtain ⟨t, ht, rest⟩ := trailing.1 h
    change f.cursor.peek.isSome = true
    rw [success t ht, Cursor.peek, List.isSome_head?]
    simp [rest]

theorem Answer.ofOutcome_answers {text : List Char} {o : Outcome (Parse α)}
    (rest : ∀ t, o = .success t → t.rest.On text) (cursor : ∀ f, o = .failure f → f.cursor.On text)
    (width : Nat) : (Answer.ofOutcome width o).Answers text o := by
  cases o with
  | success t =>
    cases ht : t.rest.rest with
    | nil =>
      have accepted : Answer.ofOutcome width (.success t) = .accepted t.target := by
        simp [ofOutcome, Cursor.isEmpty, ht]
      rw [accepted]
      constructor
      · intro v
        simp [ht]
      · simp [ht]
      · simp
    | cons x xs =>
      have refused : Answer.ofOutcome width (.success t) =
          .refused (.ofFailure (.trailing t.rest) .trailingInput width) := by
        simp [ofOutcome, Cursor.isEmpty, ht]
      rw [refused]
      constructor
      · intro v
        simp [ht]
      · simp [ht]
      · rintro r ⟨⟩
        apply Report.ofFailure_reports (rest t rfl)
        · simp [ht]
        · simp
        · simp
        · rintro u ⟨⟩
          rfl
        · simp
  | failure f =>
    constructor
    · simp [ofOutcome]
    · simp [ofOutcome]
    · rintro r ⟨⟩
      apply Report.ofFailure_reports (cursor f rfl)
      · cases hf : f.committed <;> simp
      · cases hf : f.committed <;> simp [hf]
      · cases hf : f.committed <;> simp [hf]
      · simp
      · rintro g ⟨⟩
        rfl
  | unfinished =>
    constructor
    · simp [ofOutcome]
    · simp [ofOutcome]
    · simp [ofOutcome]

/-- Two reports that differ at most in their kind. -/
structure Report.SameButKind (r r' : Report) : Prop where
  expected : r'.expected = r.expected
  found : r'.found = r.found
  location : r'.location = r.location
  line : r'.line = r.line
  markerStart : r'.markerStart = r.markerStart
  markerLength : r'.markerLength = r.markerLength
  message : r'.message = r.message
  display : r'.display = r.display
  preview : r'.preview = r.preview
  label : r'.label = r.label

/-- The answer `b` is `a` for a parser that asks for the end of the text itself, so that nothing can
be left over. -/
inductive Answer.Ended : Answer α → Answer α → Prop
  | accepted (v : α) : Ended (.accepted v) (.accepted v)
  | trailing {r r' : Report} (h : r.SameButKind r') (hr : r.kind = .trailingInput)
    (hr' : r'.kind = .mismatch) : Ended (.refused r) (.refused r')
  | refused {r : Report} (hr : r.kind ≠ .trailingInput) : Ended (.refused r) (.refused r)
  | unfinished : Ended .unfinished .unfinished

namespace Parser

variable {ε : Type} {p : Parser ε α}

theorem Sound.answers (hp : p.Sound) (width : Nat) (text : List Char) :
    (p.parse width text).Answers text (p.run (.ofText text)).outcome := by
  have on : (Cursor.ofText text).On text := ⟨0, rfl⟩
  have ends := hp (.ofText text)
  apply Answer.ofOutcome_answers
  · intro t ht
    exact on.reaches (ends.of_success ht).reaches
  · intro f hf
    exact on.reaches (ends.of_failure hf)

/-- With the end of the text asked for, what is left over is a recoverable failure. -/
theorem outcome_keepLeft_endOfText (p : Parser ε α) (c : Cursor) :
    ((p.keepLeft endOfText).run c).outcome =
      match (p.run c).outcome with
      | .success t =>
        if t.rest.isEmpty then .success (.spanning t.target c t.rest)
        else .failure (.trailing t.rest)
      | o => o := by
  simp only [keepLeft, andThen, endOfText, Reply.bind, Reply.handle]
  cases (p.run c).outcome with
  | success t => cases ht : t.rest.isEmpty <;> simp only [ht] <;> rfl
  | failure f => cases hf : f.committed <;> simp only [hf] <;> rfl
  | unfinished => rfl

theorem parse_keepLeft_endOfText (p : Parser ε α) (width : Nat) (text : List Char) :
    (p.parse width text).Ended ((p.keepLeft endOfText).parse width text) := by
  simp only [parse, outcome_keepLeft_endOfText]
  cases (p.run (.ofText text)).outcome with
  | success t =>
    cases ht : t.rest.isEmpty with
    | true =>
      simp only [Answer.ofOutcome, ht, if_true, Parse.spanning]
      exact .accepted t.target
    | false =>
      simp only [Answer.ofOutcome, ht, Bool.false_eq_true, if_false]
      exact .trailing ⟨rfl, rfl, rfl, rfl, rfl, rfl, rfl, rfl, rfl, rfl⟩ rfl rfl
  | failure f =>
    apply Answer.Ended.refused
    change (if f.committed then Report.Kind.committed else .mismatch) ≠ _
    cases f.committed <;> simp
  | unfinished => exact .unfinished

end Parser

namespace Grammar

variable {n : Nat}

theorem parserAt_keepLeft_endOfText (rules : Rules n) (depth : Nat) (a : Grammar n 0) :
    (a.keepLeft .endOfText).parserAt rules depth =
      (a.parserAt rules depth).keepLeft Parser.endOfText :=
  Parser.andThen_map_right (fun _ => Value.unit) (fun v _ _ => v) (a.parserAt rules depth)
    Parser.endOfText

/-- The answer to a whole text says how the run ended and what stands there. With the end of the
text asked for in the grammar it is the same, but that nothing is left over then. -/
theorem parse_answers (rules : Rules n) (a : Grammar n 0) (width : Nat) (text : List Char) :
    (∀ depth,
      ((a.parserAt rules depth).parse width text).Answers text
        ((a.parserAt rules depth).run (.ofText text)).outcome ∧
      ((a.parserAt rules depth).parse width text).Ended
        (((a.keepLeft .endOfText).parserAt rules depth).parse width text)) ∧
    (a.parse rules width text).Answers text ((a.parser rules).run (.ofText text)).outcome ∧
    (a.parse rules width text).Ended ((a.keepLeft .endOfText).parse rules width text) := by
  have answers (depth : Nat) : ((a.parserAt rules depth).parse width text).Answers text
      ((a.parserAt rules depth).run (.ofText text)).outcome :=
    (recordedAt_sound .commits rules depth a).answers width text
  have ended (depth : Nat) : ((a.parserAt rules depth).parse width text).Ended
      (((a.keepLeft .endOfText).parserAt rules depth).parse width text) := by
    rw [parserAt_keepLeft_endOfText]
    exact Parser.parse_keepLeft_endOfText (a.parserAt rules depth) width text
  let depth := sufficientDepth n (.ofText text)
  exact ⟨fun d => ⟨answers d, ended d⟩, answers depth, ended depth⟩

end Grammar

end TextParsing
