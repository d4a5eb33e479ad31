import TextParsing.Proofs.Gathering

/-!
Repetitions that are counted. As many readings and then as many again are as many together; and a
parser that consumes is read by a repetition exactly as often as it can be read in a row.
-/

namespace TextParsing.Parser

universe u

open Reply

variable {ε : Type} {α : Type u} {p : Parser ε α} {c : Cursor}

theorem timesFrom_add (p : Parser ε α) (m n : Nat) (c : Cursor) :
    timesFrom p (m + n) c = (timesFrom p m c).bind fun (as, d) =>
      (timesFrom p n d).map fun (bs, e) => (as ++ bs, e) := by
  induction m generalizing c with
  | zero => rw [Nat.zero_add]; exact (Reply.bind_success _).symm
  | succ m ih =>
    rw [Nat.succ_add]
    simp only [timesFrom, ih, bind_map, map_bind, Reply.map_map, bind_assoc, List.cons_append]

theorem times_add (p : Parser ε α) (m n : Nat) :
    times (m + n) p = andThen (fun as bs _ => as ++ bs) (times m p) (times n p) := by
  ext c
  simp only [times, andThen, timesFrom_add, bind_map, map_bind, Reply.map_map]
  rfl

theorem timesFrom_eq_success {n : Nat} {x : List α × Cursor} :
    (timesFrom p (n + 1) c).outcome = .success x ↔
      ∃ t as rest, (p.run c).outcome = .success t ∧
        (timesFrom p n t.rest).outcome = .success (as, rest) ∧ (t.target :: as, rest) = x := by
  simp only [timesFrom, outcome_bind_eq_success, outcome_map_eq_success, Prod.exists]
  exact ⟨fun ⟨t, ht, as, rest, h⟩ => ⟨t, as, rest, ht, h⟩,
    fun ⟨t, as, rest, ht, h⟩ => ⟨t, ht, as, rest, h⟩⟩

theorem length_of_timesFrom {n : Nat} {as : List α} {rest : Cursor}
    (h : (timesFrom p n c).outcome = .success (as, rest)) : as.length = n := by
  induction n generalizing c as with
  | zero => cases h; rfl
  | succ n ih =>
    obtain ⟨t, bs, d, -, hbs, eq⟩ := timesFrom_eq_success.1 h
    cases eq
    rw [List.length_cons, ih hbs]

/-- Fewer readings give the first of the targets. -/
theorem timesFrom_take {n j : Nat} {as : List α} {rest : Cursor}
    (h : (timesFrom p n c).outcome = .success (as, rest)) (hj : j ≤ n) :
    ∃ d, (timesFrom p j c).outcome = .success (as.take j, d) := by
  obtain ⟨i, rfl⟩ := Nat.exists_eq_add_of_le hj
  rw [timesFrom_add, outcome_bind_eq_success] at h
  obtain ⟨⟨bs, d⟩, hbs, h⟩ := h
  obtain ⟨⟨ds, e⟩, -, eq⟩ := outcome_map_eq_success.1 h
  cases eq
  refine ⟨d, ?_⟩
  rw [hbs, List.take_left' (length_of_timesFrom hbs)]

/-- More readings fail as the first does that is too many. -/
theorem timesFrom_of_failure {n j : Nat} {as : List α} {rest : Cursor}
    (h : (timesFrom p n c).outcome = .success (as, rest)) {f : Failure}
    (hf : (p.run rest).outcome = .failure f) (hj : n < j) :
    (timesFrom p j c).outcome = .failure f := by
  obtain ⟨i, rfl⟩ := Nat.exists_eq_add_of_lt hj
  rw [Nat.add_assoc, timesFrom_add, Reply.bind, handle_of_success h]
  exact outcome_map_eq_failure.2 (outcome_bind_of_failure hf _)

/-- What consumes is repeated as often as it is read in a row before it does not apply. -/
theorem repeatFrom_eq_success_iff (hp : p.Consumes) {bound : List Char}
    (hb : c.rest.length < bound.length) {as : List α} {rest : Cursor} :
    (repeatFrom p bound c).outcome = .success (as, rest) ↔
      (timesFrom p as.length c).outcome = .success (as, rest) ∧ p.Declines rest := by
  induction bound generalizing c as with
  | nil => exact nomatch hb
  | cons x bound ih =>
    rw [repeatFrom, outcome_handle_eq_success]
    constructor
    · rintro (⟨t, ht, h⟩ | ⟨f, hf, recoverable, h⟩)
      · have passes := hp.passes ht
        rw [if_neg (ne_true_of_eq_false passes.beq), outcome_map_eq_success] at h
        obtain ⟨⟨bs, d⟩, hbs, eq⟩ := h
        cases eq
        have shorter := passes.length_lt
        rw [List.length_cons] at hb
        obtain ⟨counted, declines⟩ := (ih (by omega)).1 hbs
        exact ⟨timesFrom_eq_success.2 ⟨t, bs, rest, ht, counted, rfl⟩, declines⟩
      · cases h
        exact ⟨rfl, f, hf, recoverable⟩
    · rintro ⟨h, declines⟩
      cases as with
      | nil =>
        cases h
        obtain ⟨f, hf, recoverable⟩ := declines
        exact .inr ⟨f, hf, recoverable, rfl⟩
      | cons a as =>
        obtain ⟨t, bs, d, ht, hbs, eq⟩ := timesFrom_eq_success.1 h
        cases eq
        have passes := hp.passes ht
        have shorter := passes.length_lt
        rw [List.length_cons] at hb
        refine .inl ⟨t, ht, ?_⟩
        rw [if_neg (ne_true_of_eq_false passes.beq), outcome_map_eq_success]
        exact ⟨(as, rest), (ih (by omega)).2 ⟨hbs, declines⟩, rfl⟩

theorem times_eq_success {n : Nat} {t : Parse (List α)} :
    ((times n p).run c).outcome = .success t ↔
      ∃ as rest, (timesFrom p n c).outcome = .success (as, rest) ∧ .spanning as c rest = t := by
  simp only [times, outcome_map_eq_success, Prod.exists]

theorem many_eq_success {t : Parse (List α)} : (p.many.run c).outcome = .success t ↔
    ∃ as rest, (repeated p c).outcome = .success (as, rest) ∧ .spanning as c rest = t := by
  simp only [many, outcome_map_eq_success, Prod.exists]

theorem many_eq_success_iff_times (hp : p.Consumes) (c : Cursor) (n : Nat) (t : Parse (List α)) :
    (p.many.run c).outcome = .success t ∧ t.target.length = n ↔
      ((times n p).run c).outcome = .success t ∧ p.Declines t.rest := by
  rw [many_eq_success, times_eq_success]
  constructor
  · rintro ⟨⟨as, rest, h, rfl⟩, rfl⟩
    obtain ⟨counted, declines⟩ := (repeatFrom_eq_success_iff hp (Nat.lt_succ_self _)).1 h
    exact ⟨⟨as, rest, counted, rfl⟩, declines⟩
  · rintro ⟨⟨as, rest, h, rfl⟩, declines⟩
    obtain rfl := length_of_timesFrom h
    have repeated : (repeatFrom p c.bound c).outcome = .success (as, rest) :=
      (repeatFrom_eq_success_iff hp (Nat.lt_succ_self _)).2 ⟨h, declines⟩
    exact ⟨⟨as, rest, repeated, rfl⟩, rfl⟩

/-- What counted repetitions do where the repetition gives `t`. -/
structure CountedWithin (p : Parser ε α) (c : Cursor) (t : Parse (List α)) : Prop where
  enough : ∀ j ≤ t.target.length,
    ∃ d, ((times j p).run c).outcome = .success (.spanning (t.target.take j) c d)
  tooMany : ∃ f, (p.run t.rest).outcome = .failure f ∧ f.committed = false ∧
    ∀ j, t.target.length < j → ((times j p).run c).outcome = .failure f

theorem countedWithin (hp : p.Consumes) {t : Parse (List α)}
    (ht : (p.many.run c).outcome = .success t) : p.CountedWithin c t := by
  obtain ⟨as, rest, h, rfl⟩ := many_eq_success.1 ht
  obtain ⟨counted, f, hf, recoverable⟩ :=
    (repeatFrom_eq_success_iff hp (Nat.lt_succ_self _)).1 h
  refine ⟨fun j hj => ?_, f, hf, recoverable, fun j hj => ?_⟩
  · obtain ⟨d, hd⟩ := timesFrom_take counted hj
    exact ⟨d, times_eq_success.2 ⟨_, d, hd, rfl⟩⟩
  · exact outcome_map_eq_failure.2 (timesFrom_of_failure counted hf hj)

/-- Counts add up; and if the parser consumes, a repetition is the counted one after which the
parser does not apply. -/
theorem counting_agrees_with_repetition (p : Parser ε α) :
    (∀ m n, times (m + n) p = (seq (times m p) (times n p)).map fun (as, bs) => as ++ bs) ∧
      (p.Consumes → ∀ (c : Cursor) (t : Parse (List α)),
        (∀ n, (p.many.run c).outcome = .success t ∧ t.target.length = n ↔
          ((times n p).run c).outcome = .success t ∧ p.Declines t.rest) ∧
        ((p.many.run c).outcome = .success t → p.CountedWithin c t)) :=
  ⟨fun m n => by rw [times_add, seq, map_andThen],
    fun hp c t => ⟨fun n => many_eq_success_iff_times hp c n t, countedWithin hp⟩⟩

/-- Two digits and no third. -/
theorem counting_agrees_with_repetition_of_digits :
    let p : Parser Unit Char := char .digit
    let c : Cursor := .ofText ['4', '2', '!']
    p.Consumes ∧ (p.many.run c).outcome = .success (.spanning ['4', '2'] c (c.drop 2)) ∧
      ((times 2 p).run c).outcome = .success (.spanning ['4', '2'] c (c.drop 2)) ∧
      p.Declines (c.drop 2) ∧ p.CountedWithin c (.spanning ['4', '2'] c (c.drop 2)) := by
  intro p c
  have consumes : p.Consumes := char_consumes .digit
  have ht : (p.many.run c).outcome = .success (.spanning ['4', '2'] c (c.drop 2)) := rfl
  obtain ⟨iff, within⟩ := (counting_agrees_with_repetition p).2 consumes c _
  obtain ⟨counted, declines⟩ := (iff 2).1 ⟨ht, rfl⟩
  exact ⟨consumes, ht, counted, declines, within ht⟩

end TextParsing.Parser
