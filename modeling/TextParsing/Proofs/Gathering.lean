import TextParsing.Proofs.Chains
import TextParsing.Proofs.Making

/-!
Lists and texts put together by repetition. A loop that uses each target as it comes gives what the
targets give when they are used all at the end, so lists, joined texts and skipped texts are all
repetitions. A list with separators is an item and a repetition of a separator with an item after
it.
-/

namespace TextParsing.Parser

universe u v w

open Reply

variable {ε : Type} {α : Type u} {β : Type v} {σ : Type w}

section Loop

variable (each : σ → α → σ)

/-- What `each` makes of the targets of `p` from `c` on, and the place where they end. -/
def gatherFrom (p : Parser ε α) : (bound : List Char) → σ → Cursor → Reply ε (σ × Cursor)
  | [], _, _ => .unfinished
  | _ :: bound, s, c =>
    (p.run c).handle
      (fun t =>
        if t.rest == c then .success (each s t.target, c)
        else gatherFrom p bound (each s t.target) t.rest)
      fun _ => .success (s, c)

/-- Begin with `s` and gather the targets of `p`. -/
def gather (s : σ) (p : Parser ε α) : Parser ε σ :=
  ⟨fun c => (gatherFrom each p c.bound s c).map fun (s, rest) => .spanning s c rest⟩

/-- Begin with what `start` makes of one target of `p` and gather the targets of `q`. -/
def gatherAfter (start : α → σ) (p q : Parser ε α) : Parser ε σ :=
  ⟨fun c => (p.run c).bind fun t =>
    (gatherFrom each q t.rest.bound (start t.target) t.rest).map fun (s, rest) =>
      .spanning s c rest⟩

theorem gatherFrom_eq (p : Parser ε α) (bound : List Char) (s : σ) (c : Cursor) :
    gatherFrom each p bound s c =
      (repeatFrom p bound c).map fun (as, rest) => (as.foldl each s, rest) := by
  induction bound generalizing s c with
  | nil => rfl
  | cons x bound ih =>
    simp only [gatherFrom, repeatFrom, map_handle, ih]
    congr 1
    funext t
    by_cases h : t.rest == c <;> simp [h]

theorem gather_eq (s : σ) (p : Parser ε α) :
    gather each s p = p.many.map fun as => as.foldl each s := by
  ext c
  simp only [gather, gatherFrom_eq, many, run_map, Reply.map_map]
  rfl

theorem gatherAfter_eq (start : α → σ) (p q : Parser ε α) : gatherAfter each start p q =
    (seq p q.many).map fun (a, as) => as.foldl each (start a) := by
  ext c
  simp only [gatherAfter, gatherFrom_eq, seq, andThen, many, run_map, bind_map, Reply.map_map]
  rfl

end Loop

theorem many1_eq_seq (p : Parser ε α) : p.many1 = (seq p p.many).map fun (a, as) => a :: as := by
  ext c
  simp only [many1, seq, andThen, many, run_map, bind_map, Reply.map_map]
  rfl

theorem sepBy1_eq_seq (p : Parser ε α) (sep : Parser ε β) :
    sepBy1 p sep = (seq p (keepRight sep p).many).map fun (a, as) => a :: as := by
  ext c
  simp only [sepBy1, seq, andThen, many, run_map, bind_map, Reply.map_map]
  rfl

theorem foldl_concat (s as : List α) : as.foldl (fun s a => s ++ [a]) s = s ++ as := by
  rw [List.foldl_append_eq_append, ← List.flatMap_def, List.flatMap_singleton']

theorem foldl_append (s : List α) (ss : List (List α)) :
    ss.foldl (fun s t => s ++ t) s = s ++ ss.flatten := by
  rw [List.foldl_append_eq_append, List.map_id']

/-- The loops that use each target as it comes make of a parser what the repetitions do: they keep
the targets, drop them, or join them if they are texts. -/
structure GathersAsMany (p : Parser ε α) (sep : Parser ε β) (q : Parser ε (List Char)) : Prop where
  many : gather (fun as a => as ++ [a]) [] p = p.many
  many1 : gatherAfter (fun as a => as ++ [a]) (fun a => [a]) p p = p.many1
  sepBy1 : gatherAfter (fun as a => as ++ [a]) (fun a => [a]) p (keepRight sep p) = sepBy1 p sep
  skipMany : gather (fun _ _ => ()) () p = p.skipMany
  skipMany1 : gatherAfter (fun _ _ => ()) (fun _ => ()) p p = p.skipMany1
  concatMany : gather (fun cs ds => cs ++ ds) [] q = q.concatMany
  concatMany1 : gatherAfter (fun cs ds => cs ++ ds) (fun cs => cs) q q = q.concatMany1

theorem gathersAsMany (p : Parser ε α) (sep : Parser ε β) (q : Parser ε (List Char)) :
    GathersAsMany p sep q where
  many := by
    simp only [gather_eq, foldl_concat, List.nil_append]
    ext c
    exact Reply.bind_success _
  many1 := by simp only [gatherAfter_eq, foldl_concat, List.singleton_append, many1_eq_seq]
  sepBy1 := by simp only [gatherAfter_eq, foldl_concat, List.singleton_append, sepBy1_eq_seq]
  skipMany := gather_eq ..
  skipMany1 := by
    simp only [gatherAfter_eq, Parser.skipMany1, Parser.skip, many1_eq_seq, map_map]
  concatMany := by
    simp only [gather_eq, foldl_append, List.nil_append]
    rfl
  concatMany1 := by
    simp only [gatherAfter_eq, foldl_append, Parser.concatMany1, many1_eq_seq, map_map,
      List.flatten_cons]

/-- From `c` to `d` stand an item and, for each other item, a separator before it. -/
inductive Separated (p : Parser ε α) (sep : Parser ε β) : Cursor → List α → Cursor → Prop
  | last {c : Cursor} {t : Parse α} (ht : (p.run c).outcome = .success t) :
    Separated p sep c [t.target] t.rest
  | cons {c d : Cursor} {t : Parse α} {o : Parse β} {as : List α}
    (ht : (p.run c).outcome = .success t) (ho : (sep.run t.rest).outcome = .success o)
    (later : Separated p sep o.rest as d) : Separated p sep c (t.target :: as) d

/-- The item after the next separator does not follow, or it was the last to be read and nothing
was read with it. -/
def SeparatorStays (p : Parser ε α) (sep : Parser ε β) (c : Cursor) : Prop :=
  (keepRight sep p).Declines c ∨
    ∃ t, ((keepRight sep p).run c).outcome = .success t ∧ (t.rest == c) = true

variable {p : Parser ε α} {sep : Parser ε β} {c : Cursor}

theorem keepRight_eq_success {u : Parse α} :
    ((keepRight sep p).run c).outcome = .success u ↔
      ∃ o t, (sep.run c).outcome = .success o ∧ (p.run o.rest).outcome = .success t ∧
        .spanning t.target c t.rest = u := by
  simp only [keepRight, andThen, outcome_bind_eq_success, outcome_map_eq_success]
  constructor
  · rintro ⟨o, ho, t, ht, hu⟩
    exact ⟨o, t, ho, ht, hu⟩
  · rintro ⟨o, t, ho, ht, hu⟩
    exact ⟨o, ho, t, ht, hu⟩

/-- What follows the first item. The loop ends at the place after the last item; if nothing was
read with that item, the place is the one before its separator. -/
theorem Separated.of_repeatFrom {t : Parse α} (ht : (p.run c).outcome = .success t)
    {bound : List Char} {as : List α} {rest : Cursor}
    (h : (repeatFrom (keepRight sep p) bound t.rest).outcome = .success (as, rest)) :
    (∃ d, Separated p sep c (t.target :: as) d ∧ (d == rest) = true ∧
      (p.Sound → sep.Sound → d = rest)) ∧ SeparatorStays p sep rest := by
  induction bound generalizing c t as with
  | nil => cases h
  | cons x bound ih =>
    rw [repeatFrom, outcome_handle_eq_success] at h
    obtain ⟨u, hu, h⟩ | ⟨f, hf, recoverable, h⟩ := h
    · obtain ⟨o, v, ho, hv, rfl⟩ := keepRight_eq_success.1 hu
      split at h
      · next same =>
        cases h
        refine ⟨⟨v.rest, Separated.cons ht ho (.last (t := v) hv), same, fun hp hs => ?_⟩,
          .inr ⟨_, hu, same⟩⟩
        exact ((hs.reaches ho).trans (hp.reaches hv)).eq_of_beq same
      · obtain ⟨⟨bs, d⟩, hd, eq⟩ := outcome_map_eq_success.1 h
        cases eq
        obtain ⟨⟨e, later, same, sound⟩, stays⟩ := ih hv hd
        exact ⟨⟨e, .cons ht ho later, same, sound⟩, stays⟩
    · cases h
      exact ⟨⟨t.rest, .last ht, beq_self_eq_true t.rest.offset, fun _ _ => rfl⟩,
        .inl ⟨f, hf, recoverable⟩⟩

/-- A repetition does not fail because something does not apply. -/
theorem committed_of_repeatFrom {p : Parser ε α} {bound : List Char} {f : Failure}
    (h : (repeatFrom p bound c).outcome = .failure f) : f.committed = true := by
  induction bound generalizing c with
  | nil => cases h
  | cons x bound ih =>
    rw [repeatFrom, outcome_handle_eq_failure] at h
    obtain ⟨t, ht, h⟩ | ⟨hf, committed⟩ | ⟨g, hg, recoverable, h⟩ := h
    · split at h
      · cases h
      · exact ih (outcome_map_eq_failure.1 h)
    · exact committed
    · cases h

theorem sepBy1_eq_success {u : Parse (List α)} :
    ((sepBy1 p sep).run c).outcome = .success u ↔
      ∃ t as rest, (p.run c).outcome = .success t ∧
        (repeated (keepRight sep p) t.rest).outcome = .success (as, rest) ∧
        .spanning (t.target :: as) c rest = u := by
  simp only [sepBy1, outcome_bind_eq_success, outcome_map_eq_success, Prod.exists]
  exact ⟨fun ⟨t, ht, as, rest, h⟩ => ⟨t, as, rest, ht, h⟩,
    fun ⟨t, as, rest, ht, h⟩ => ⟨t, ht, as, rest, h⟩⟩

/-- After the first item, a list fails only because something is wrong. -/
theorem committed_of_sepBy1 {t : Parse α} (ht : (p.run c).outcome = .success t) {f : Failure}
    (hf : ((sepBy1 p sep).run c).outcome = .failure f) : f.committed = true := by
  simp only [sepBy1, Reply.bind, handle_of_success ht] at hf
  exact committed_of_repeatFrom (outcome_map_eq_failure.1 hf)

theorem sepBy_of_declines (h : p.Declines c) :
    ((sepBy p sep).run c).outcome = .success (.empty [] c) := by
  obtain ⟨f, hf, recoverable⟩ := h
  have first : ((sepBy1 p sep).run c).outcome = .failure f := outcome_bind_of_failure hf _
  simp only [sepBy, withDefault, recover, handle_of_recoverable first recoverable]
  rfl

theorem sepBy_of_success {t : Parse α} (ht : (p.run c).outcome = .success t) :
    (sepBy p sep).run c = (sepBy1 p sep).run c :=
  recover_eq_self (fun _ hf => committed_of_sepBy1 ht hf) _

theorem sepBy_eq_success {u : Parse (List α)} :
    ((sepBy p sep).run c).outcome = .success u ↔
      ((sepBy1 p sep).run c).outcome = .success u ∨ p.Declines c ∧ u = .empty [] c := by
  constructor
  · intro h
    simp only [sepBy, withDefault, recover, outcome_handle_eq_success] at h
    obtain ⟨t, ht, h⟩ | ⟨f, hf, recoverable, h⟩ := h
    · cases h
      exact .inl ht
    · cases h
      refine .inr ⟨?_, rfl⟩
      cases ho : (p.run c).outcome with
      | success t => exact absurd (committed_of_sepBy1 ho hf) (by simp [recoverable])
      | failure g =>
        cases hf.symm.trans (outcome_bind_of_failure ho _)
        exact ⟨f, ho, recoverable⟩
      | unfinished => simp [sepBy1, Reply.bind, handle, ho] at hf
  · rintro (h | ⟨declines, rfl⟩)
    · obtain ⟨t, as, rest, ht, -⟩ := sepBy1_eq_success.1 h
      rwa [sepBy_of_success ht]
    · exact sepBy_of_declines declines

theorem sepBy_empty_iff (c : Cursor) :
    (∃ t, ((sepBy p sep).run c).outcome = .success t ∧ t.target = []) ↔ p.Declines c := by
  constructor
  · rintro ⟨t, ht, empty⟩
    obtain ht | ⟨declines, -⟩ := sepBy_eq_success.1 ht
    · obtain ⟨u, as, rest, -, -, rfl⟩ := sepBy1_eq_success.1 ht
      exact nomatch empty
    · exact declines
  · exact fun h => ⟨_, sepBy_of_declines h, rfl⟩

/-- What the lists and texts that are put together by repetition are. -/
structure RepetitionLaws (p : Parser ε α) (sep : Parser ε β) (q : Parser ε (List Char)) : Prop where
  many1 : p.many1 = (seq p p.many).map fun (a, as) => a :: as
  sepBy1 : sepBy1 p sep = (seq p (keepRight sep p).many).map fun (a, as) => a :: as
  sepBy : sepBy p sep = (Parser.sepBy1 p sep).withDefault []
  skipMany : p.skipMany = p.many.skip
  skipMany1 : p.skipMany1 = p.many1.skip
  concatMany : q.concatMany = q.many.map List.flatten
  concatMany1 : q.concatMany1 = q.many1.map List.flatten
  gathered : GathersAsMany p sep q
  empty_iff : ∀ c, (∃ t, ((Parser.sepBy p sep).run c).outcome = .success t ∧ t.target = []) ↔
    p.Declines c
  declined : ∀ c, p.Declines c → ((Parser.sepBy p sep).run c).outcome = .success (.empty [] c)
  /-- Once there is an item, no item is lost because something does not apply. -/
  kept : ∀ c t, (p.run c).outcome = .success t →
    (Parser.sepBy p sep).run c = (Parser.sepBy1 p sep).run c ∧
      ¬ (Parser.sepBy1 p sep).Declines c
  /-- The place after a list is the one after its last item, before any separator. -/
  separated : ∀ c t, ((Parser.sepBy1 p sep).run c).outcome = .success t →
    (∃ d, Separated p sep c t.target d ∧ (d == t.rest) = true ∧
      (p.Sound → sep.Sound → d = t.rest)) ∧ SeparatorStays p sep t.rest

theorem repetition_laws (p : Parser ε α) (sep : Parser ε β) (q : Parser ε (List Char)) :
    RepetitionLaws p sep q where
  many1 := many1_eq_seq p
  sepBy1 := sepBy1_eq_seq p sep
  sepBy := rfl
  skipMany := rfl
  skipMany1 := rfl
  concatMany := rfl
  concatMany1 := rfl
  gathered := gathersAsMany p sep q
  empty_iff := sepBy_empty_iff
  declined _ := sepBy_of_declines
  kept _ _ ht := ⟨sepBy_of_success ht, fun ⟨_, hf, recoverable⟩ =>
    nomatch recoverable.symm.trans (committed_of_sepBy1 ht hf)⟩
  separated c t h := by
    obtain ⟨u, as, rest, hu, later, rfl⟩ := sepBy1_eq_success.1 h
    exact Separated.of_repeatFrom hu later

end TextParsing.Parser
