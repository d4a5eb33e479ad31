import TextParsing.Proofs.Chains
import TextParsing.Proofs.Making
import TextParsing.Proofs.Termination

/-!
What a repetition comes to. A parser run again and again, each time from where it got to, makes one
reading after another. A reading of nothing is the last, as the next would be the same; so there is
one longest row of readings, and how it ends is how the repetition ends.
-/

namespace TextParsing

universe u

/-- Readings made one after another: where each began and what it gave, the place after the last,
and whether the last read nothing. -/
structure Readings (α : Type u) where
  starts : List Cursor
  targets : List α
  rest : Cursor
  idle : Bool

namespace Readings

variable {α : Type u}

def none (c : Cursor) : Readings α := ⟨[], [], c, false⟩

def idleAt (c : Cursor) (a : α) : Readings α := ⟨[c], [a], c, true⟩

def cons (c : Cursor) (a : α) (x : Readings α) : Readings α :=
  ⟨c :: x.starts, a :: x.targets, x.rest, x.idle⟩

/-- Where the parser is run until no more can be read. After a reading of nothing it is not run
again. -/
def runs (x : Readings α) : List Cursor :=
  if x.idle then x.starts else x.starts ++ [x.rest]

@[simp] theorem runs_cons (c : Cursor) (a : α) (x : Readings α) :
    (x.cons c a).runs = c :: x.runs := by
  obtain ⟨starts, targets, rest, idle⟩ := x
  cases idle <;> rfl

end Readings

namespace Parser

open Reply

variable {ε : Type} {α : Type u} {p : Parser ε α} {c : Cursor} {t : Parse α} {x y : Readings α}

/-- From `c` on the parser comes to an end wherever it is run, and never before where it began. -/
structure ForwardFrom (p : Parser ε α) (c : Cursor) : Prop where
  finishes : ∀ d, c.Reaches d → (p.run d).Finishes
  reaches : ∀ d, c.Reaches d → ∀ t, (p.run d).outcome = .success t → d.Reaches t.rest

/-- Run from `c` on, the parser makes the readings `x`. -/
inductive Repeats (p : Parser ε α) : Cursor → Readings α → Prop
  | none (c : Cursor) : Repeats p c (.none c)
  | idle {c : Cursor} {t : Parse α} (h : (p.run c).outcome = .success t) (stays : t.rest = c) :
    Repeats p c (.idleAt c t.target)
  | cons {c : Cursor} {t : Parse α} {x : Readings α} (h : (p.run c).outcome = .success t)
    (passes : c.Passes t.rest) (later : Repeats p t.rest x) : Repeats p c (x.cons c t.target)

/-- No reading can be added. -/
def Exhausts (p : Parser ε α) (x : Readings α) : Prop :=
  x.idle = true ∨ ∀ t, (p.run x.rest).outcome ≠ .success t

theorem Sound.forwardFrom (sound : p.Sound) (finishes : ∀ d, (p.run d).Finishes) (c : Cursor) :
    p.ForwardFrom c :=
  ⟨fun d _ => finishes d, fun _ _ _ => sound.reaches⟩

theorem ForwardFrom.later (h : p.ForwardFrom c) {d : Cursor} (hd : c.Reaches d) :
    p.ForwardFrom d :=
  ⟨fun e he => h.finishes e (hd.trans he), fun e he => h.reaches e (hd.trans he)⟩

theorem ForwardFrom.exists_exhausts (h : p.ForwardFrom c) : ∃ x, p.Repeats c x ∧ p.Exhausts x := by
  induction hl : c.rest.length using Nat.strongRecOn generalizing c with
  | _ l ih =>
    cases ho : (p.run c).outcome with
    | success t =>
      have reaches := h.reaches c (.refl c) t ho
      cases hb : t.rest == c with
      | true => exact ⟨_, .idle ho (reaches.eq_of_beq hb), .inl rfl⟩
      | false =>
        have passes := reaches.passes hb
        obtain ⟨x, hx, exhausts⟩ := ih _ (hl ▸ passes.length_lt) (h.later reaches) rfl
        exact ⟨x.cons c t.target, .cons ho passes hx, exhausts⟩
    | failure f => exact ⟨.none c, .none c, .inr fun t ht => nomatch ho.symm.trans ht⟩
    | unfinished => exact absurd ho (h.finishes c (.refl c))

theorem Exhausts.refuses (h : p.Exhausts (.none c)) (t : Parse α) :
    (p.run c).outcome ≠ .success t :=
  h.resolve_left nofun t

namespace Repeats

theorem unique (hx : p.Repeats c x) (hy : p.Repeats c y) (ex : p.Exhausts x) (ey : p.Exhausts y) :
    x = y := by
  induction hx generalizing y with
  | none c =>
    cases hy with
    | none => rfl
    | idle h => exact absurd h (ex.refuses _)
    | cons h => exact absurd h (ex.refuses _)
  | idle h stays =>
    cases hy with
    | none => exact absurd h (ey.refuses _)
    | idle h' => cases h.symm.trans h'; rfl
    | cons h' passes =>
      cases h.symm.trans h'
      exact absurd stays passes.ne
  | cons h passes later ih =>
    cases hy with
    | none => exact absurd h (ey.refuses _)
    | idle h' stays =>
      cases h.symm.trans h'
      exact absurd stays passes.ne
    | cons h' _ later' =>
      cases h.symm.trans h'
      rw [ih later' ex ey]

theorem runs_length (h : p.Repeats c x) : x.runs.length ≤ c.rest.length + 1 := by
  induction h with
  | none c => exact Nat.le_add_left ..
  | idle h stays => exact Nat.le_add_left ..
  | cons h passes later ih =>
    have := passes.length_lt
    rw [Readings.runs_cons, List.length_cons]
    omega

/-- Only the outcomes of the runs decide what readings are made. -/
theorem congr {δ : Type} {q : Parser δ α} (h : p.Repeats c x)
    (same : ∀ d, (q.run d).outcome = (p.run d).outcome) : q.Repeats c x := by
  induction h with
  | none c => exact .none c
  | idle h stays => exact .idle ((same _).trans h) stays
  | cons h passes later ih => exact .cons ((same _).trans h) passes ih

theorem reaches (h : p.Repeats c x) : c.Reaches x.rest := by
  induction h with
  | none c => exact .refl c
  | idle h stays => exact .refl _
  | cons h passes later ih => exact passes.reaches.trans ih

theorem exists_success (h : p.Repeats c x) (idle : x.idle = true) :
    ∃ t, (p.run x.rest).outcome = .success t := by
  induction h with
  | none c => cases idle
  | idle h stays => exact ⟨_, h⟩
  | cons h passes later ih => exact ih idle

end Repeats

/-- How a repetition ends that has made the readings `x` and can make no other. -/
def finish (p : Parser ε α) (x : Readings α) : Reply ε (List α × Cursor) :=
  if x.idle then .success (x.targets, x.rest)
  else (p.run x.rest).handle (fun _ => .unfinished) fun _ => .success (x.targets, x.rest)

theorem finish_cons (p : Parser ε α) (c : Cursor) (a : α) (x : Readings α) :
    p.finish (x.cons c a) = (p.finish x).map fun (as, rest) => (a :: as, rest) := by
  obtain ⟨starts, targets, rest, idle⟩ := x
  cases idle with
  | true => rfl
  | false =>
    simp only [finish, Readings.cons, Bool.false_eq_true, if_false, map_handle]
    rfl

/-- A repetition makes all the readings that can be made, and ends as they do. -/
theorem Repeats.repeatFrom_eq (h : p.Repeats c x) (exhausts : p.Exhausts x) {y : Char}
    {bound : List Char} (hb : c.rest.length ≤ bound.length) :
    repeatFrom p (y :: bound) c =
      (p.finish x).after (x.starts.flatMap fun d => (p.run d).log) := by
  induction h generalizing y bound with
  | none c => exact handle_congr fun t ht => absurd ht (exhausts.refuses t)
  | @idle c t h stays =>
    have same : (t.rest == c) = true := by
      rw [stays]
      exact beq_self_eq_true c.offset
    rw [repeatFrom, handle_of_success h, if_pos same]
    simp [finish, Readings.idleAt]
  | @cons c t x h passes later ih =>
    have shorter := passes.length_lt
    cases bound with
    | nil => exact absurd hb (Nat.not_le_of_gt (Nat.zero_lt_of_lt shorter))
    | cons z bound =>
      rw [List.length_cons] at hb
      have rest : repeatFrom p (z :: bound) t.rest = _ := ih exhausts (by omega)
      rw [repeatFrom, handle_of_success h, if_neg (ne_true_of_eq_false passes.beq), rest, Reply.map,
        bind_after, after_after, finish_cons]
      rfl

/-- The parser `p`, with nothing logged but where it is run. -/
def traced (p : Parser ε α) : Parser Cursor α := ⟨fun c => ⟨[c], (p.run c).outcome⟩⟩

theorem many_eq (h : p.Repeats c x) (exhausts : p.Exhausts x) : p.many.run c =
    ((p.finish x).map fun (as, rest) => .spanning as c rest).after
      (x.starts.flatMap fun d => (p.run d).log) := by
  change Reply.map _ (repeatFrom p c.bound c) = _
  rw [Cursor.bound, h.repeatFrom_eq exhausts (Nat.le_refl _), Reply.map, bind_after]
  rfl

/-- Readings after which the repetition succeeds. -/
def Stops (p : Parser ε α) (x : Readings α) : Prop := p.Declines x.rest ∨ x.idle = true

theorem Stops.exhausts (h : p.Stops x) : p.Exhausts x := by
  obtain ⟨f, hf, -⟩ | idle := h
  · exact .inr fun t ht => nomatch hf.symm.trans ht
  · exact .inl idle

theorem Exhausts.stops_or_fails (h : p.Exhausts x) (finishes : (p.run x.rest).Finishes) :
    p.Stops x ∨ ∃ f, (p.run x.rest).outcome = .failure f ∧ f.committed = true := by
  obtain idle | refuses := h
  · exact .inl (.inr idle)
  · cases ho : (p.run x.rest).outcome with
    | success t => exact absurd ho (refuses t)
    | failure f =>
      cases hf : f.committed with
      | true => exact .inr ⟨f, rfl, hf⟩
      | false => exact .inl (.inl ⟨f, ho, hf⟩)
    | unfinished => exact absurd ho finishes

theorem many_of_stops (h : p.Repeats c x) (stops : p.Stops x) :
    (p.many.run c).outcome = .success (.spanning x.targets c x.rest) := by
  have finish : (p.finish x).outcome = .success (x.targets, x.rest) := by
    unfold Parser.finish
    split
    · rfl
    · next busy =>
      obtain ⟨f, hf, recoverable⟩ := stops.resolve_right busy
      rw [handle_of_recoverable hf recoverable]
      rfl
  rw [many_eq h stops.exhausts, Reply.map, Reply.bind, handle_of_success finish]
  rfl

theorem many_of_committed (h : p.Repeats c x) {f : Failure}
    (hf : (p.run x.rest).outcome = .failure f) (committed : f.committed = true) :
    (p.many.run c).outcome = .failure f := by
  have refuses (t : Parse α) : (p.run x.rest).outcome ≠ .success t :=
    fun ht => nomatch hf.symm.trans ht
  have busy : ¬ x.idle = true := fun idle =>
    have ⟨t, ht⟩ := h.exists_success idle
    refuses t ht
  have finish : (p.finish x).outcome = .failure f := by
    rw [Parser.finish, if_neg busy, handle_of_committed hf committed]
  rw [many_eq h (.inr refuses), Reply.map, Reply.bind, handle_of_committed finish committed]
  rfl

theorem log_finish_traced (p : Parser ε α) (x : Readings α) :
    (p.traced.finish x).log = if x.idle then [] else [x.rest] := by
  unfold finish
  split
  · rfl
  · simp only [handle, traced]
    cases (p.run x.rest).outcome with
    | success t => rfl
    | failure f => cases hf : f.committed <;> simp [after, Reply.success, hf]
    | unfinished => rfl

theorem log_many_traced (h : p.Repeats c x) (exhausts : p.Exhausts x) :
    (p.traced.many.run c).log = x.runs := by
  have traced : p.traced.Repeats c x := h.congr fun _ => rfl
  rw [many_eq traced exhausts]
  change x.starts.flatMap (fun d => [d]) ++ (Reply.map _ (p.traced.finish x)).log = x.runs
  rw [List.flatMap_singleton', log_map, log_finish_traced, Readings.runs]
  cases x.idle <;> simp

section Ends

variable (h : p.Repeats c x)
  (ends : p.Stops x ∨ ∃ f, (p.run x.rest).outcome = .failure f ∧ f.committed = true)

include h ends

theorem many_success_iff (t : Parse (List α)) : (p.many.run c).outcome = .success t ↔
    t = .spanning x.targets c x.rest ∧ p.Stops x := by
  constructor
  · intro ht
    obtain stops | ⟨f, hf, committed⟩ := ends
    · cases (many_of_stops h stops).symm.trans ht
      exact ⟨rfl, stops⟩
    · cases (many_of_committed h hf committed).symm.trans ht
  · rintro ⟨rfl, stops⟩
    exact many_of_stops h stops

theorem many_failure_iff (f : Failure) : (p.many.run c).outcome = .failure f ↔
    (p.run x.rest).outcome = .failure f ∧ f.committed = true := by
  constructor
  · intro hf
    obtain stops | ⟨g, hg, committed⟩ := ends
    · cases (many_of_stops h stops).symm.trans hf
    · cases (many_of_committed h hg committed).symm.trans hf
      exact ⟨hg, committed⟩
  · rintro ⟨hf, committed⟩
    exact many_of_committed h hf committed

theorem many_finishes : (p.many.run c).Finishes := by
  obtain stops | ⟨f, hf, committed⟩ := ends
  · exact .of_success (many_of_stops h stops)
  · exact .of_failure (many_of_committed h hf committed)

theorem outcome_many_traced : (p.traced.many.run c).outcome = (p.many.run c).outcome := by
  have traced : p.traced.Repeats c x := h.congr fun _ => rfl
  obtain stops | ⟨f, hf, committed⟩ := ends
  · exact (many_of_stops traced stops).trans (many_of_stops h stops).symm
  · exact (many_of_committed traced hf committed).trans (many_of_committed h hf committed).symm

end Ends

theorem many_of_declines (h : p.Declines c) : (p.many.run c).outcome = .success (.empty [] c) :=
  many_of_stops (.none c) (.inl h)

/-- What the parser `p` and its repetition do from `c` on, if `x` are the readings that can be made
there. -/
structure ManyMakes (p : Parser ε α) (c : Cursor) (x : Readings α) : Prop where
  repeats : p.Repeats c x
  exhausts : p.Exhausts x
  unique : ∀ y, p.Repeats c y → p.Exhausts y → y = x
  success_iff : ∀ t, (p.many.run c).outcome = .success t ↔
    t = .spanning x.targets c x.rest ∧ (p.Declines x.rest ∨ x.idle = true)
  failure_iff : ∀ f, (p.many.run c).outcome = .failure f ↔
    (p.run x.rest).outcome = .failure f ∧ f.committed = true
  finishes : (p.many.run c).Finishes
  /-- The repetition runs `p` where the readings begin and where they end, and nowhere else. -/
  traced_outcome : (p.traced.many.run c).outcome = (p.many.run c).outcome
  traced_log : (p.traced.many.run c).log = x.runs
  runs_length : x.runs.length ≤ c.rest.length + 1
  /-- Once `p` does not apply, repeating it once more reads nothing. -/
  again : ∀ t, (p.many.run c).outcome = .success t → x.idle = false →
    (p.many.run t.rest).outcome = .success (.empty [] t.rest)

theorem Repeats.manyMakes (h : p.Repeats c x) (exhausts : p.Exhausts x)
    (finishes : (p.run x.rest).Finishes) : p.ManyMakes c x :=
  have ends := exhausts.stops_or_fails finishes
  { repeats := h
    exhausts := exhausts
    unique := fun y hy ey => hy.unique h ey exhausts
    success_iff := many_success_iff h ends
    failure_iff := many_failure_iff h ends
    finishes := many_finishes h ends
    traced_outcome := outcome_many_traced h ends
    traced_log := log_many_traced h exhausts
    runs_length := h.runs_length
    again := by
      intro t ht busy
      obtain ⟨rfl, declines | idle⟩ := (many_success_iff h ends t).1 ht
      · exact many_of_declines declines
      · exact nomatch busy.symm.trans idle }

/-- From any place on, the readings that can be made settle what a repetition does. -/
theorem many_makes_readings (h : p.ForwardFrom c) : ∃ x, p.ManyMakes c x := by
  obtain ⟨x, repeats, exhausts⟩ := h.exists_exhausts
  exact ⟨x, repeats.manyMakes exhausts (h.finishes x.rest repeats.reaches)⟩

/-- A digit that may be missing is read until it is missing, and that is read once. -/
theorem many_makes_readings_of_digits :
    let p : Parser Unit Char := (char .digit).withDefault '-'
    let c := Cursor.ofText ['4', '2', '!']
    p.ForwardFrom c ∧
      p.ManyMakes c (.cons c '4' (.cons (.drop 1 c) '2' (.idleAt (.drop 2 c) '-'))) := by
  intro p c
  have sound : p.Sound := (char_sound .digit).withDefault
  have finishes (d : Cursor) : (p.run d).Finishes :=
    (char_finishes .digit d).recover fun _ _ _ => success_finishes _
  have forward := sound.forwardFrom finishes c
  obtain ⟨x, makes⟩ := many_makes_readings forward
  have second : p.Repeats (.drop 1 c) (.cons (.drop 1 c) '2' (.idleAt (.drop 2 c) '-')) :=
    .cons (t := .spanning '2' (.drop 1 c) (.drop 2 c)) rfl ⟨'2', [], rfl, rfl, rfl, rfl⟩
      (.idle (t := .empty '-' (.drop 2 c)) rfl rfl)
  have both : p.Repeats c (.cons c '4' _) :=
    .cons (t := .spanning '4' c (.drop 1 c)) rfl ⟨'4', [], rfl, rfl, rfl, rfl⟩ second
  rw [← makes.unique _ both (.inl rfl)] at makes
  exact ⟨forward, makes⟩

end Parser

end TextParsing
