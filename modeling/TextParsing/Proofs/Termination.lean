import TextParsing.Grammar.Forms
import TextParsing.Grammar.Substitution
import TextParsing.Proofs.Agreement
import TextParsing.Proofs.Progress

/-!
Grammars whose runs all end. A grammar recurs safely if it always has read something before it
enters itself again, and a chain if each link of it reads something; repetitions stop by themselves.
So what is left of the text gets shorter from one entry to the next, and between two entries the
grammar does.
-/

namespace TextParsing

universe u v w

section

variable {ε : Type} {α : Type u} {β : Type v} {γ : Type w}

namespace Reply

def Finishes (r : Reply ε α) : Prop := r.outcome ≠ .unfinished

variable {r : Reply ε α}

theorem success_finishes (a : α) : (success a : Reply ε α).Finishes := nofun

theorem failure_finishes (f : Failure) : (failure f : Reply ε α).Finishes := nofun

theorem Finishes.of_success {a : α} (h : r.outcome = .success a) : r.Finishes :=
  fun unfinished => nomatch h.symm.trans unfinished

theorem Finishes.of_failure {f : Failure} (h : r.outcome = .failure f) : r.Finishes :=
  fun unfinished => nomatch h.symm.trans unfinished

theorem Finishes.handle {k : α → Reply ε β} {l : Failure → Reply ε β} (h : r.Finishes)
    (hk : ∀ a, r.outcome = .success a → (k a).Finishes)
    (hl : ∀ f, r.outcome = .failure f → f.committed = false → (l f).Finishes) :
    (r.handle k l).Finishes := by
  obtain ⟨xs, o⟩ := r
  cases o with
  | success a => exact hk a rfl
  | failure f =>
    cases hf : f.committed with
    | true => simp [Reply.handle, Finishes, hf]
    | false => simpa [Reply.handle, Finishes, after, hf] using hl f rfl hf
  | unfinished => exact absurd rfl h

theorem Finishes.bind {k : α → Reply ε β} (h : r.Finishes)
    (hk : ∀ a, r.outcome = .success a → (k a).Finishes) : (r.bind k).Finishes :=
  h.handle hk fun f _ _ => failure_finishes f

theorem Finishes.map {g : α → β} (h : r.Finishes) : (r.map g).Finishes :=
  h.bind fun a _ => success_finishes (g a)

theorem Finishes.recover {l : Failure → Reply ε α} (h : r.Finishes)
    (hl : ∀ f, r.outcome = .failure f → f.committed = false → (l f).Finishes) :
    (r.recover l).Finishes := h.handle (fun a _ => success_finishes a) hl

theorem Finishes.mapFailure {g : Failure → Failure} (h : r.Finishes) :
    (r.mapFailure g).Finishes := by
  obtain ⟨xs, o⟩ := r
  cases o with
  | success a => exact h
  | failure f => exact nofun
  | unfinished => exact h

theorem Finishes.commit {note : Location → List ε} (h : r.Finishes) : (r.commit note).Finishes := by
  obtain ⟨xs, o⟩ := r
  cases o with
  | success a => exact h
  | failure f => cases hf : f.committed <;> simp [Reply.commit, Finishes, hf]
  | unfinished => exact h

end Reply

open Reply

namespace Parser

/-- Wherever no more than `l` characters are left, the parser comes to an end. -/
def FinishesWithin (p : Parser ε α) (l : Nat) : Prop :=
  ∀ c : Cursor, c.rest.length ≤ l → (p.run c).Finishes

variable {p : Parser ε α} {q : Parser ε β} {l : Nat}

theorem char_finishes (k : CharClass) (c : Cursor) : ((char k : Parser ε Char).run c).Finishes := by
  simp only [char]
  split
  · split
    · exact success_finishes _
    · exact failure_finishes _
  · exact failure_finishes _

theorem token_finishes (cs : List Char) (c : Cursor) :
    ((token cs : Parser ε (List Char)).run c).Finishes := by
  simp only [token]
  split
  · exact success_finishes _
  · exact failure_finishes _

theorem pattern_finishes (p : Pattern) (c : Cursor) :
    ((pattern p : Parser ε (List Char)).run c).Finishes := by
  simp only [pattern]
  split
  · exact success_finishes _
  · exact failure_finishes _

theorem endOfText_finishes (c : Cursor) : ((endOfText : Parser ε Unit).run c).Finishes := by
  simp only [endOfText]
  split
  · exact success_finishes _
  · exact failure_finishes _

/-- A repetition stops by itself when it has read nothing, and what it reads can only get less. -/
theorem repeatFrom_finishes (hp : p.FinishesWithin l) (sound : p.Sound) {bound : List Char}
    {c : Cursor} (hc : c.rest.length ≤ l) (hb : c.rest.length < bound.length) :
    (repeatFrom p bound c).Finishes := by
  induction bound generalizing c with
  | nil => exact nomatch hb
  | cons x bound ih =>
    apply (hp c hc).handle
    · intro t ht
      split
      · exact success_finishes _
      · next moved =>
        have passes := (sound.reaches ht).passes (eq_false_of_ne_true moved)
        have shorter := passes.length_lt
        rw [List.length_cons] at hb
        apply Finishes.map
        apply ih <;> omega
    · intro f _ _
      exact success_finishes _

theorem timesFrom_finishes (hp : p.FinishesWithin l) (sound : p.Sound) (n : Nat) {c : Cursor}
    (hc : c.rest.length ≤ l) : (timesFrom p n c).Finishes := by
  induction n generalizing c with
  | zero => exact success_finishes _
  | succ n ih =>
    apply (hp c hc).bind
    intro t ht
    have fewer := (sound.reaches ht).length_le
    exact (ih (Nat.le_trans fewer hc)).map

theorem FinishesWithin.mono {l' : Nat} (hp : p.FinishesWithin l) (hl : l' ≤ l) :
    p.FinishesWithin l' := fun c hc => hp c (Nat.le_trans hc hl)

theorem FinishesWithin.many (hp : p.FinishesWithin l) (sound : p.Sound) :
    p.many.FinishesWithin l := fun _ hc =>
  (repeatFrom_finishes hp sound hc (Nat.lt_succ_self _)).map

theorem FinishesWithin.many1 (hp : p.FinishesWithin l) (sound : p.Sound) :
    p.many1.FinishesWithin l := by
  intro c hc
  apply (hp c hc).bind
  intro t ht
  have fewer := (sound.reaches ht).length_le
  exact (repeatFrom_finishes hp sound (Nat.le_trans fewer hc) (Nat.lt_succ_self _)).map

theorem FinishesWithin.times {n : Nat} (hp : p.FinishesWithin l) (sound : p.Sound) :
    (times n p).FinishesWithin l := fun _ hc => (timesFrom_finishes hp sound n hc).map

/-- Of the separator it matters only what it does behind the first item. -/
theorem FinishesWithin.sepBy1 (hp : p.FinishesWithin l) (soundp : p.Sound) (soundq : q.Sound)
    {c : Cursor} (hc : c.rest.length ≤ l)
    (hq : ∀ t, (p.run c).outcome = .success t → q.FinishesWithin t.rest.rest.length) :
    ((sepBy1 p q).run c).Finishes := by
  apply (hp c hc).bind
  intro t ht
  have fewer := (soundp.reaches ht).length_le
  have item : (keepRight q p).FinishesWithin t.rest.rest.length := by
    intro d hd
    apply (hq t ht d hd).bind
    intro u hu
    have fewer' := (soundq.reaches hu).length_le
    apply Finishes.map
    apply hp
    omega
  exact (repeatFrom_finishes item (soundq.andThen soundp) (Nat.le_refl _) (Nat.lt_succ_self _)).map

/-- A chain goes on only as long as its links read something. -/
theorem linksFrom_finishes {g : β → α → Range → γ} (hl : (andThen g q p).Consumes)
    (hp : p.FinishesWithin l) (hq : q.FinishesWithin l) (sound : q.Sound) {bound : List Char}
    {c : Cursor} (hc : c.rest.length ≤ l) (hb : c.rest.length < bound.length) :
    (linksFrom p q bound c).Finishes := by
  induction bound generalizing c with
  | nil => exact nomatch hb
  | cons x bound ih =>
    apply (hq c hc).handle
    · intro o ho
      have fewer := (sound.reaches ho).length_le
      apply (hp o.rest (Nat.le_trans fewer hc)).handle
      · intro t ht
        have shorter : t.rest.rest.length < c.rest.length :=
          (hl.passes (andThen_success ho ht)).length_lt
        rw [List.length_cons] at hb
        apply Finishes.map
        apply ih <;> omega
      · intro f _ _
        exact success_finishes _
    · intro f _ _
      exact success_finishes _

theorem suffixesFrom_finishes (hl : q.Consumes) (hq : q.FinishesWithin l) {bound : List Char}
    {c : Cursor} (hc : c.rest.length ≤ l) (hb : c.rest.length < bound.length) :
    (suffixesFrom q bound c).Finishes := by
  induction bound generalizing c with
  | nil => exact nomatch hb
  | cons x bound ih =>
    apply (hq c hc).handle
    · intro t ht
      have shorter := (hl.passes ht).length_lt
      rw [List.length_cons] at hb
      apply Finishes.map
      apply ih <;> omega
    · intro f _ _
      exact success_finishes _

end Parser

end

namespace Grammar

variable {n k : Nat}

/-- Wherever the grammar succeeds, it has read something. -/
def Consumes (rules : Rules n) (a : Grammar n 0) : Prop :=
  ∀ c t, a.EndsIn rules c (.success t) → c.Passes t.rest

def Produces (rules : Rules n) (a : Grammar n 0) (t : Parse Value) : Prop :=
  ∃ c, a.EndsIn rules c (.success t)

/-- Somewhere the grammar does not apply, so that something else is tried. -/
def Declines (rules : Rules n) (a : Grammar n 0) : Prop :=
  ∃ c f, a.EndsIn rules c (.failure f) ∧ f.committed = false

theorem consumes_iff {rules : Rules n} {a : Grammar n 0} :
    a.Consumes rules ↔ ∀ depth, (a.parserAt rules depth).Consumes := by
  constructor
  · intro h depth c
    exact (Reply.ends_self _).mono (fun t ht => h c t ⟨depth, ht, nofun⟩) fun _ _ => trivial
  · rintro h c t ⟨depth, ht, -⟩
    exact (h depth).passes ht

theorem char_consumes {rules : Rules n} (s : CharClass) : (char s : Grammar n 0).Consumes rules :=
  consumes_iff.2 fun _ => (Parser.char_consumes s).map

theorem Consumes.andThen {rules : Rules n} {g : Value → Value → Range → Value} {a b : Grammar n 0}
    (ha : a.Consumes rules) : (andThen g a b).Consumes rules :=
  consumes_iff.2 fun depth =>
    (consumes_iff.1 ha depth).andThen (recordedAt_sound .commits rules depth b)

/-- Where a grammar stands: what it may refer to, and whether something is sure to have been read
since that was entered. -/
structure Context (n k : Nat) where
  grammars : Fin k → Grammar n 0
  passed : Fin k → Prop
  /-- Whether something is sure to have been read since the rule was entered. -/
  rulePassed : Prop

namespace Context

/-- Outside of all rules. -/
def top : Context n 0 := ⟨Fin.elim0, Fin.elim0, True⟩

/-- At the entry of a rule. -/
def rule : Context n 0 := ⟨Fin.elim0, Fin.elim0, False⟩

/-- The grammar `a` with what it refers to in the place of its references. -/
def close (Γ : Context n k) (a : Grammar n k) : Grammar n 0 := a.subst id Γ.grammars

/-- The place behind `a`. -/
def after (rules : Rules n) (Γ : Context n k) (a : Grammar n k) : Context n k where
  grammars := Γ.grammars
  passed i := Γ.passed i ∨ (Γ.close a).Consumes rules
  rulePassed := Γ.rulePassed ∨ (Γ.close a).Consumes rules

/-- At the entry of a recursive grammar. -/
def enter (Γ : Context n k) (body : Grammar n (k + 1)) : Context n (k + 1) where
  grammars := Fin.cases (Γ.close body.recursive) Γ.grammars
  passed := Fin.cases False Γ.passed
  rulePassed := Γ.rulePassed

end Context

/-- Every reference in the grammar is reached only after something has been read since the entry
of what it refers to, and every link of a chain reads something. -/
def Guarded (rules : Rules n) : {k : Nat} → Grammar n k → Context n k → Prop
  | _, mapWithRange _ a, Γ | _, filterMap _ _ a, Γ | _, commit a, Γ | _, tag _ a, Γ
  | _, lexeme a, Γ | _, withDefault _ a, Γ | _, many a, Γ | _, many1 a, Γ => a.Guarded rules Γ
  | _, times m a, Γ => m ≠ 0 → a.Guarded rules Γ
  | _, bindWithRange a next, Γ =>
    a.Guarded rules Γ ∧ ∀ t, (Γ.close a).Produces rules t →
      (next t.target t.range).Guarded rules (Γ.after rules a)
  | _, andThen _ a b, Γ | _, sepBy1 a b, Γ | _, sepBy a b, Γ =>
    a.Guarded rules Γ ∧ b.Guarded rules (Γ.after rules a)
  | _, orElse a b, Γ => a.Guarded rules Γ ∧ ((Γ.close a).Declines rules → b.Guarded rules Γ)
  | _, chainLeft _ a o, Γ | _, chainRight _ a o, Γ =>
    a.Guarded rules Γ ∧ o.Guarded rules (Γ.after rules a) ∧ (Γ.close (o.seq a)).Consumes rules
  | _, chainSuffix _ a s, Γ =>
    a.Guarded rules Γ ∧ s.Guarded rules (Γ.after rules a) ∧ (Γ.close s).Consumes rules
  | _, recursive body, Γ => body.Guarded rules (Γ.enter body)
  | _, ref i, Γ => Γ.passed i
  | _, rule _, Γ => Γ.rulePassed
  | _, succeed _, _ | _, failHere _, _ | _, char _, _ | _, peek _, _ | _, token _, _
  | _, pattern _, _ | _, endOfText, _ | _, dangling, _ => True

end Grammar

/-- The parser `p` is `q` followed less deep. It comes to an end wherever fewer than `l` characters
are left, and where `l` are left if something is sure to have been read. -/
structure Parser.StandsFor {α : Type u} (p q : Parser Location α) (passed : Prop) (l : Nat) :
    Prop where
  sound : p.Sound
  agrees : p.Agrees .ended q
  finishes : ∀ c : Cursor, c.rest.length ≤ l → (c.rest.length = l → passed) → (p.run c).Finishes

theorem Parser.StandsFor.mono {α : Type u} {p q : Parser Location α} {passed passed' : Prop}
    {l l' : Nat} (h : p.StandsFor q passed l) (hl : l' ≤ l) (hp : l' = l → passed' → passed) :
    p.StandsFor q passed' l' where
  sound := h.sound
  agrees := h.agrees
  finishes := by
    intro c hc hpassed
    apply h.finishes c (Nat.le_trans hc hl)
    intro same
    have low : l' = l := by omega
    exact hp low (hpassed (same.trans low.symm))

namespace Grammar

variable {n k : Nat} {rules : Rules n} {depth l : Nat}

/-- The parsers that stand for what a grammar may refer to, for as long as no more than `l`
characters are left. -/
structure Context.Supports (Γ : Context n k) (rules : Rules n) (depth l : Nat)
    (ps : Fin n → Parser Location Value) (h : Fin k → Parser Location Value) : Prop where
  enough : l < depth
  rule : ∀ i, (ps i).StandsFor ⟨runRule .commits rules depth depth i⟩ Γ.rulePassed l
  ref : ∀ i, (h i).StandsFor ((Γ.grammars i).parserAt rules depth) (Γ.passed i) l

namespace Context.Supports

variable {Γ : Context n k} {ps : Fin n → Parser Location Value} {h : Fin k → Parser Location Value}
  {a : Grammar n k} {c : Cursor} {t : Parse Value}

theorem sound (hs : Γ.Supports rules depth l ps h) (a : Grammar n k) :
    (a.toParser .commits depth ps h).Sound :=
  toParser_sound (fun i => (hs.rule i).sound) a fun i => (hs.ref i).sound

theorem agrees (hs : Γ.Supports rules depth l ps h) (a : Grammar n k) :
    (a.toParser .commits depth ps h).Agrees .ended ((Γ.close a).parserAt rules depth) := by
  rw [close, parserAt, recordedAt, toParser_subst]
  apply toParser_agrees (.refl _ depth)
  · exact fun i => (hs.rule i).agrees
  · exact fun i => (hs.ref i).agrees

theorem endsIn (hs : Γ.Supports rules depth l ps h) {o : Outcome (Parse Value)}
    (ho : ((a.toParser .commits depth ps h).run c).outcome = o) (ended : o ≠ .unfinished) :
    (Γ.close a).EndsIn rules c o := by
  subst ho
  exact ⟨depth, (hs.agrees a).outcome_eq ended, ended⟩

theorem consumes (hs : Γ.Supports rules depth l ps h) (ha : (Γ.close a).Consumes rules) :
    (a.toParser .commits depth ps h).Consumes := fun c =>
  (Reply.ends_self _).mono (fun t ht => ha c t (hs.endsIn ht nofun)) fun _ _ => trivial

theorem mono {l' : Nat} (hs : Γ.Supports rules depth l ps h) (hl : l' ≤ l) :
    Γ.Supports rules depth l' ps h where
  enough := Nat.lt_of_le_of_lt hl hs.enough
  rule i := (hs.rule i).mono hl fun _ hp => hp
  ref i := (hs.ref i).mono hl fun _ hp => hp

/-- Behind a grammar that consumes, less is left, so that everything can be entered again. -/
theorem after (hs : Γ.Supports rules depth l ps h) (hc : c.rest.length ≤ l)
    (ht : ((a.toParser .commits depth ps h).run c).outcome = .success t) :
    (Γ.after rules a).Supports rules depth t.rest.rest.length ps h := by
  have fewer : t.rest.rest.length ≤ l := Nat.le_trans ((hs.sound a).reaches ht).length_le hc
  have unread {passed : Prop} (same : t.rest.rest.length = l)
      (hp : passed ∨ (Γ.close a).Consumes rules) : passed := by
    cases hp with
    | inl hp => exact hp
    | inr ha =>
      have shorter := ((hs.consumes ha).passes ht).length_lt
      omega
  exact {
    enough := Nat.lt_of_le_of_lt fewer hs.enough
    rule := fun i => (hs.rule i).mono fewer unread
    ref := fun i => (hs.ref i).mono fewer unread }

/-- A recursive grammar can be entered again where less is left than where it was entered. -/
theorem enter {body : Grammar n (k + 1)} {m : Nat} (hs : Γ.Supports rules depth l ps h)
    (hm : m ≤ depth) (hc : c.rest.length ≤ l)
    (again : ∀ d : Cursor, d.rest.length < c.rest.length → (Parser.unroll (fun self =>
      body.toParser .commits depth ps (Fin.cases self h)) m d).Finishes) :
    (Γ.enter body).Supports rules depth c.rest.length ps
      (Fin.cases ⟨Parser.unroll (fun self =>
        body.toParser .commits depth ps (Fin.cases self h)) m⟩ h) := by
  have lower := hs.mono hc
  refine ⟨lower.enough, lower.rule, Fin.cases ?_ lower.ref⟩
  refine ⟨?_, ?_, ?_⟩
  · apply Parser.unroll_sound
    intro q hq
    exact toParser_sound (fun i => (hs.rule i).sound) body
      (Fin.cases hq fun i => (hs.ref i).sound)
  · change Parser.Agrees _ _ ((Γ.close body.recursive).parserAt rules depth)
    rw [close, parserAt, recordedAt, toParser_subst]
    apply Parser.Agrees.unroll
    · intro p p' hp
      apply toParser_agrees (.refl _ depth)
      · exact fun i => (hs.rule i).agrees
      · exact Fin.cases hp fun i => (hs.ref i).agrees
    · exact ⟨hm, nofun⟩
  · intro d hd unpassed
    exact again d (Nat.lt_of_le_of_ne hd unpassed)

end Context.Supports

theorem Guarded.finishes {a : Grammar n k} {Γ : Context n k} (ha : a.Guarded rules Γ)
    {ps : Fin n → Parser Location Value} {h : Fin k → Parser Location Value}
    (hs : Γ.Supports rules depth l ps h) :
    (a.toParser .commits depth ps h).FinishesWithin l := by
  induction a generalizing l with
  | succeed | failHere | peek | dangling => exact fun c _ => nofun
  | char s => exact fun c _ => (Parser.char_finishes s c).map
  | token cs => exact fun c _ => (Parser.token_finishes cs c).map
  | pattern p => exact fun c _ => (Parser.pattern_finishes p c).map
  | endOfText => exact fun c _ => (Parser.endOfText_finishes c).map
  | mapWithRange g a ih => exact fun c hc => (ih ha hs c hc).map
  | filterMap g d a ih =>
    intro c hc
    apply (ih ha hs c hc).bind
    intro t _
    cases g t.target <;> exact nofun
  | bindWithRange a next iha ihn =>
    intro c hc
    apply (iha ha.1 hs c hc).bind
    intro t ht
    have chosen := ha.2 t ⟨c, hs.endsIn ht nofun⟩
    exact (ihn _ _ chosen (hs.after hc ht) t.rest (Nat.le_refl _)).map
  | andThen g a b iha ihb =>
    intro c hc
    apply (iha ha.1 hs c hc).bind
    intro t ht
    exact (ihb ha.2 (hs.after hc ht) t.rest (Nat.le_refl _)).map
  | orElse a b iha ihb =>
    intro c hc
    apply (iha ha.1 hs c hc).recover
    intro f hf recoverable
    exact ihb (ha.2 ⟨c, f, hs.endsIn hf nofun, recoverable⟩) hs c hc
  | commit a ih => exact fun c hc => (ih ha hs c hc).commit
  | tag d a ih => exact fun c hc => (ih ha hs c hc).mapFailure
  | withDefault v a ih =>
    exact fun c hc => (ih ha hs c hc).recover fun _ _ _ => Reply.success_finishes _
  | lexeme a ih => exact fun c hc => (ih ha hs c hc).map.map
  | many a ih => exact fun c hc => ((ih ha hs).many (hs.sound a) c hc).map
  | many1 a ih => exact fun c hc => ((ih ha hs).many1 (hs.sound a) c hc).map
  | times m a ih =>
    intro c hc
    apply Reply.Finishes.map
    cases m with
    | zero => exact Reply.success_finishes _
    | succ m => exact (ih (ha m.succ_ne_zero) hs).times (hs.sound a) c hc
  | sepBy1 a sep iha ihs =>
    intro c hc
    apply Reply.Finishes.map
    apply (iha ha.1 hs).sepBy1 (hs.sound a) (hs.sound sep) hc
    exact fun t ht => ihs ha.2 (hs.after hc ht)
  | sepBy a sep iha ihs =>
    intro c hc
    apply Reply.Finishes.map
    apply Reply.Finishes.recover
    · apply (iha ha.1 hs).sepBy1 (hs.sound a) (hs.sound sep) hc
      exact fun t ht => ihs ha.2 (hs.after hc ht)
    · exact fun _ _ _ => Reply.success_finishes _
  | chainLeft g a o iha iho | chainRight g a o iha iho =>
    obtain ⟨ha, ho, linked⟩ := ha
    intro c hc
    apply (iha ha hs c hc).bind
    intro t ht
    have behind := hs.after hc ht
    have fewer := ((hs.sound a).reaches ht).length_le
    apply Reply.Finishes.map
    apply Parser.linksFrom_finishes (hs.consumes linked) ((iha ha hs).mono (Nat.le_trans fewer hc))
      (iho ho behind) (hs.sound o) (Nat.le_refl _) (Nat.lt_succ_self _)
  | chainSuffix g a s iha ihs =>
    obtain ⟨ha, hsuffix, consumes⟩ := ha
    intro c hc
    apply (iha ha hs c hc).bind
    intro t ht
    apply Reply.Finishes.map
    exact Parser.suffixesFrom_finishes (hs.consumes consumes) (ihs hsuffix (hs.after hc ht))
      (Nat.le_refl _) (Nat.lt_succ_self _)
  | recursive body ih =>
    -- Each entry is made with less text left than the one before it.
    have entered (m : Nat) (hm : m ≤ depth) (c : Cursor) (hc : c.rest.length ≤ l)
        (hcm : c.rest.length < m) : (Parser.unroll (fun self =>
          body.toParser .commits depth ps (Fin.cases self h)) m c).Finishes := by
      induction m generalizing c with
      | zero => exact nomatch hcm
      | succ m again =>
        apply ih ha (hs.enter (Nat.le_of_succ_le hm) hc _) c (Nat.le_refl _)
        intro d hd
        apply again <;> omega
    exact fun c hc => entered depth (Nat.le_refl depth) c hc (Nat.lt_of_le_of_lt hc hs.enough)
  | ref i => exact fun c hc => (hs.ref i).finishes c hc fun _ => ha
  | rule i => exact fun c hc => (hs.rule i).finishes c hc fun _ => ha

/-- Each rule is entered again only with less text left. -/
theorem runRule_finishes (guarded : ∀ i, (rules i).Guarded rules .rule) {m : Nat} (hm : m ≤ depth)
    (i : Fin n) (c : Cursor) (hc : c.rest.length < m) :
    (runRule .commits rules depth m i c).Finishes := by
  induction m generalizing i c with
  | zero => exact nomatch hc
  | succ m again =>
    have fewer : Scope.ended.Depths m depth := ⟨Nat.le_of_succ_le hm, nofun⟩
    apply (guarded i).finishes ?_ c (Nat.le_refl _)
    refine ⟨Nat.lt_of_lt_of_le hc hm, fun j => ⟨?_, ?_, ?_⟩, nofun⟩
    · exact runRule_sound .commits rules depth m j
    · exact runRule_agrees rules (.refl _ depth) fewer j
    · intro d hd unpassed
      apply again fewer.le
      have shorter := Nat.lt_of_le_of_ne hd unpassed
      omega

/-- A guarded grammar with guarded rules comes to an end from every cursor, in a success or in a
failure, and no entry is made deeper than there are characters left. -/
theorem guarded_terminates (rules : Rules n) (a : Grammar n 0)
    (guardedRules : ∀ i, (rules i).Guarded rules .rule) (guarded : a.Guarded rules .top)
    (c : Cursor) :
    ((∃ t, ((a.parser rules).run c).outcome = .success t) ∨
      ∃ f, ((a.parser rules).run c).outcome = .failure f) ∧
    ∀ depth, c.rest.length < depth →
      ((a.parserAt rules depth).run c).outcome = ((a.parser rules).run c).outcome := by
  have finishes (depth : Nat) (enough : c.rest.length < depth) :
      ((a.parserAt rules depth).run c).Finishes := by
    apply guarded.finishes ?_ c (Nat.le_refl _)
    refine ⟨enough, fun i => ⟨?_, ?_, ?_⟩, nofun⟩
    · exact runRule_sound .commits rules depth depth i
    · exact runRule_agrees rules (.refl _ depth) (.refl _ depth) i
    · intro d hd _
      exact runRule_finishes guardedRules (Nat.le_refl depth) i d (Nat.lt_of_le_of_lt hd enough)
  have enough : c.rest.length < sufficientDepth n c := Nat.le_mul_of_pos_left _ n.succ_pos
  have finished : ((a.parser rules).run c).Finishes := finishes _ enough
  constructor
  · cases ho : ((a.parser rules).run c).outcome with
    | success t => exact .inl ⟨t, rfl⟩
    | failure f => exact .inr ⟨f, rfl⟩
    | unfinished => exact absurd ho finished
  · intro depth hd
    exact EndsIn.unique ⟨_, rfl, finished⟩ ⟨depth, rfl, finishes depth hd⟩

/-- Lists in brackets of sums, which may be in parentheses. An item of a list may be empty, and then
it is the last one. -/
theorem guarded_terminates_of_sums :
    let operand : Grammar 1 0 := (char .digit).orElse
      (between (char (.single '(')) (rule 0) (char (.single ')')))
    let sum : Grammar 1 0 := chainLeft (fun _ v w _ => .pair v w) operand (char (.single '+'))
    let item : Grammar 1 1 := (rule 0).orElse
      (between (char (.single '[')) (ref 0) (char (.single ']')))
    let list : Grammar 1 0 := recursive (item.withDefault .unit).many
    let c : Cursor := .ofText ['[', '1', '+', '(', '2', ')', ']', '[']
    (∀ i, ((fun _ => sum : Rules 1) i).Guarded (fun _ => sum) .rule) ∧
      list.Guarded (fun _ => sum) .top ∧
      ((list.parser fun _ => sum).run c).outcome =
        .success (.spanning (.list [.list [.pair (.char '1') (.char '2'), .unit], .unit]) c
          (c.drop 7)) ∧
      ∀ depth, c.rest.length < depth →
        ((list.parserAt (fun _ => sum) depth).run c).outcome =
          ((list.parser fun _ => sum).run c).outcome := by
  intro operand sum item list c
  have inRule : ∀ i, ((fun _ => sum : Rules 1) i).Guarded (fun _ => sum) .rule := fun _ =>
    ⟨⟨trivial, fun _ => ⟨trivial, .inr (char_consumes _), trivial⟩⟩, trivial,
      (char_consumes _).andThen⟩
  have atTop : list.Guarded (fun _ => sum) .top :=
    ⟨trivial, fun _ => ⟨trivial, .inr (char_consumes _), trivial⟩⟩
  exact ⟨inRule, atTop, rfl, (guarded_terminates _ list inRule atTop c).2⟩

end Grammar

end TextParsing
