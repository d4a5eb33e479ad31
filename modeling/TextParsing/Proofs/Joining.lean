import TextParsing.Proofs.Numerals
import TextParsing.Proofs.Repeating

/-!
Reading back what was written. A parser reads a kind of thing back if it succeeds exactly where one
of them is written and may end. What is read back one by one is also read back in a row, for as long
as another one follows; so a list with separators in it is read up to the first separator that no
item follows, and the texts of lists are the items joined by the separator and nothing else.
-/

namespace TextParsing

universe u v w

/-- One or more, in order. -/
structure Row (β : Type u) where
  first : β
  others : List β

namespace Row

variable {β : Type u} {γ : Type v}

def toList (r : Row β) : List β := r.first :: r.others

def map (f : β → γ) (r : Row β) : Row γ := ⟨f r.first, r.others.map f⟩

/-- The texts of a row, with `x` between each two. -/
def joined (x : Char) (written : β → List Char) (r : Row β) : List Char :=
  [x].intercalate (r.toList.map written)

theorem joined_eq (x : Char) (written : β → List Char) (r : Row β) :
    r.joined x written = written r.first ++ r.others.flatMap fun b => x :: written b := by
  obtain ⟨b, bs⟩ := r
  induction bs generalizing b with
  | nil => simp [joined, toList]
  | cons b' bs ih =>
    have later : [x].intercalate (written b' :: bs.map written) = _ := ih b'
    simp [joined, toList, later]

theorem joined_ne_nil {x : Char} {written : β → List Char} (h : ∀ b, written b ≠ []) (r : Row β) :
    r.joined x written ≠ [] := by
  rw [joined_eq]
  exact List.append_ne_nil_of_left_ne_nil (h r.first) _

end Row

namespace Cursor

variable {c : Cursor} {w rest : List Char} {x : Char}

theorem drop_length_append (v w : List Char) (c : Cursor) :
    drop (v ++ w).length c = drop w.length (drop v.length c) := by
  rw [List.length_append, drop_drop]

theorem drop_length_cons (x : Char) (w : List Char) (c : Cursor) :
    drop (x :: w).length c = drop w.length (drop 1 c) := drop_length_append [x] w c

theorem rest_drop_of_append (hc : c.rest = w ++ rest) : (drop w.length c).rest = rest :=
  List.append_cancel_left ((reads_of_isPrefix ⟨rest, hc.symm⟩).rest.symm.trans hc)

theorem rest_drop_of_cons (hc : c.rest = x :: rest) : (drop 1 c).rest = rest :=
  rest_drop_of_append (w := [x]) hc

end Cursor

namespace Answer

variable {α : Type u}

theorem isAccepted_iff {a : Answer α} : a.isAccepted = true ↔ ∃ v, a = .accepted v := by
  cases a <;> simp [isAccepted]

/-- What is left over is refused where it begins. -/
theorem ofOutcome_of_ne_nil {width : Nat} {t : Parse α} (h : t.rest.rest ≠ []) :
    ofOutcome width (.success t) =
      .refused (.ofFailure (.trailing t.rest) .trailingInput width) := by
  simp [ofOutcome, Cursor.isEmpty, h]

end Answer

namespace Parser

open Reply

variable {ε : Type} {α : Type u} {α' : Type v} {β : Type w} {p : Parser ε α} {q : Parser ε α'}
  {written written' : β → List Char} {value : β → α} {value' : β → α'}
  {stop : List Char → Prop} {c d : Cursor} {b : β} {x : Char} {rest : List Char}

/-- The parser succeeds exactly where the text of some `b` stands and what is behind it begins as
`stop` says, and produces what `b` is worth. Everywhere else it declines. -/
structure ReadsBack (p : Parser ε α) (written : β → List Char) (value : β → α)
    (stop : List Char → Prop) : Prop where
  ne_nil : ∀ b, written b ≠ []
  success_iff : ∀ c t, (p.run c).outcome = .success t ↔ ∃ b rest,
    c.rest = written b ++ rest ∧ stop rest ∧
      t = .spanning (value b) c (.drop (written b).length c)
  declines : ∀ c, (∀ t, (p.run c).outcome ≠ .success t) → p.Declines c

/-- Behind a row may stand what may stand behind its last text, unless the row can go on. -/
def RowStop (written : β → List Char) (stop : List Char → Prop) (rest : List Char) : Prop :=
  stop rest ∧ ∀ b later, rest = written b ++ later → ¬ stop later

/-- Behind a row may stand what may stand behind a text and does not begin with the separator. -/
theorem rowStop_of_ne_cons (hs : stop rest) (ne : ∀ tail, rest ≠ x :: tail) :
    RowStop (fun b => x :: written b) stop rest :=
  ⟨hs, fun b later eq => absurd eq (ne (written b ++ later))⟩

/-- A single character is not the separator and another text. -/
theorem rowStop_of_length_le_one (hs : stop rest) (ne : ∀ b, written b ≠ [])
    (le : rest.length ≤ 1) : RowStop (fun b => x :: written b) stop rest := by
  refine ⟨hs, fun b later eq => ?_⟩
  obtain ⟨y, ys, hb⟩ := List.exists_cons_of_ne_nil (ne b)
  simp [eq, hb] at le

namespace ReadsBack

theorem success (h : p.ReadsBack written value stop) (hc : c.rest = written b ++ rest)
    (hs : stop rest) :
    (p.run c).outcome = .success (.spanning (value b) c (.drop (written b).length c)) :=
  (h.success_iff c _).2 ⟨b, rest, hc, hs, rfl⟩

theorem success_or_declines (h : p.ReadsBack written value stop) (c : Cursor) :
    (∃ t, (p.run c).outcome = .success t) ∨ p.Declines c := by
  by_cases success : ∃ t, (p.run c).outcome = .success t
  · exact .inl success
  · exact .inr (h.declines c fun t ht => success ⟨t, ht⟩)

theorem declines_iff (h : p.ReadsBack written value stop) :
    p.Declines c ↔ ∀ b rest, c.rest = written b ++ rest → ¬ stop rest := by
  constructor
  · rintro ⟨f, hf, -⟩ b rest hc hs
    cases hf.symm.trans (h.success hc hs)
  · intro none
    refine h.declines c fun t ht => ?_
    obtain ⟨b, rest, hc, hs, -⟩ := (h.success_iff c t).1 ht
    exact none b rest hc hs

theorem passes (h : p.ReadsBack written value stop) (hc : c.rest = written b ++ rest) :
    c.Passes (.drop (written b).length c) := by
  obtain ⟨y, ys, eq⟩ := List.exists_cons_of_ne_nil (h.ne_nil b)
  exact ⟨y, ys, eq ▸ Cursor.reads_of_isPrefix ⟨rest, hc.symm⟩⟩

theorem passes_of_success (h : p.ReadsBack written value stop) {t : Parse α}
    (ht : (p.run c).outcome = .success t) : c.Passes t.rest := by
  obtain ⟨b, rest, hc, -, rfl⟩ := (h.success_iff c t).1 ht
  exact h.passes hc

theorem consumes (h : p.ReadsBack written value stop) : p.Consumes := fun c =>
  (ends_self (p.run c)).mono (fun _ ht => h.passes_of_success ht) fun _ _ => trivial

theorem finishes (h : p.ReadsBack written value stop) (c : Cursor) : (p.run c).Finishes := by
  obtain ⟨t, ht⟩ | ⟨f, hf, -⟩ := h.success_or_declines c
  · exact .of_success ht
  · exact .of_failure hf

theorem map {γ : Type v} (h : p.ReadsBack written value stop) (f : α → γ) :
    (p.map f).ReadsBack written (fun b => f (value b)) stop where
  ne_nil := h.ne_nil
  success_iff c t := by
    rw [run_map, outcome_map_eq_success]
    constructor
    · rintro ⟨u, hu, rfl⟩
      obtain ⟨b, rest, hc, hs, rfl⟩ := (h.success_iff c u).1 hu
      exact ⟨b, rest, hc, hs, rfl⟩
    · rintro ⟨b, rest, hc, hs, rfl⟩
      exact ⟨_, h.success hc hs, rfl⟩
  declines c none := by
    obtain ⟨t, ht⟩ | ⟨f, hf, recoverable⟩ := h.success_or_declines c
    · exact absurd (outcome_map_eq_success.2 ⟨t, ht, rfl⟩) (none _)
    · exact ⟨f, outcome_map_eq_failure.2 hf, recoverable⟩

theorem of_stop_iff {stop' : List Char → Prop} (h : p.ReadsBack written value stop)
    (same : ∀ rest, stop rest ↔ stop' rest) : p.ReadsBack written value stop' := by
  obtain rfl : stop = stop' := funext fun rest => propext (same rest)
  exact h

end ReadsBack

theorem char_single_eq_success {t : Parse Char} :
    ((char (.single x) : Parser ε Char).run c).outcome = .success t ↔
      ∃ rest, c.rest = x :: rest ∧ t = .spanning x c (.drop 1 c) := by
  constructor
  · intro ht
    obtain ⟨y, ys, hr, hy⟩ | none := test_or_not (.single x) c
    · obtain rfl : y = x := beq_iff_eq.1 hy
      rw [char_of_test hr hy] at ht
      cases ht
      exact ⟨ys, hr, rfl⟩
    · rw [char_of_not_test none] at ht
      cases ht
  · rintro ⟨rest, hr, rfl⟩
    rw [char_of_test hr (beq_self_eq_true x)]
    rfl

theorem char_single_of_ne_cons (h : ∀ rest, c.rest ≠ x :: rest) :
    (char (.single x) : Parser ε Char).run c =
      .failure (.expecting c (CharClass.single x).expected) := by
  refine char_of_not_test fun y ys hr => beq_eq_false_iff_ne.2 ?_
  rintro rfl
  exact h ys hr

theorem char_single_declines (h : ∀ rest, c.rest ≠ x :: rest) :
    (char (.single x) : Parser ε Char).Declines c :=
  ⟨_, congrArg outcome (char_single_of_ne_cons h), rfl⟩

namespace ReadsBack

/-- With one character in front it is still read back. -/
theorem behind (h : p.ReadsBack written value stop) (x : Char) :
    (seq (char (.single x)) p).ReadsBack (fun b => x :: written b) (fun b => (x, value b)) stop where
  ne_nil b := List.cons_ne_nil x (written b)
  success_iff c t := by
    simp only [seq, andThen, outcome_bind_eq_success, outcome_map_eq_success,
      char_single_eq_success]
    constructor
    · rintro ⟨_, ⟨tail, hr, rfl⟩, u, hu, rfl⟩
      obtain ⟨b, rest, hc, hs, rfl⟩ := (h.success_iff _ u).1 hu
      have tail_eq : tail = written b ++ rest := (Cursor.rest_drop_of_cons hr).symm.trans hc
      refine ⟨b, rest, hr.trans (congrArg _ tail_eq), hs, ?_⟩
      rw [Cursor.drop_length_cons]
      rfl
    · rintro ⟨b, rest, hc, hs, rfl⟩
      have behind : (Cursor.drop 1 c).rest = written b ++ rest := Cursor.rest_drop_of_cons hc
      refine ⟨_, ⟨_, hc, rfl⟩, _, h.success behind hs, ?_⟩
      rw [Cursor.drop_length_cons]
      rfl
  declines c none := by
    by_cases hx : ∃ tail, c.rest = x :: tail
    · obtain ⟨tail, hr⟩ := hx
      have read := char_single_eq_success (ε := ε).2 ⟨tail, hr, rfl⟩
      obtain ⟨t, ht⟩ | ⟨f, hf, recoverable⟩ := h.success_or_declines (.drop 1 c)
      · exact absurd (andThen_success read ht) (none _)
      · exact ⟨f, andThen_failure_right read hf, recoverable⟩
    · obtain ⟨f, hf, recoverable⟩ := char_single_declines (ε := ε) fun tail hr => hx ⟨tail, hr⟩
      exact ⟨f, andThen_failure_left hf, recoverable⟩

section Rows

variable (h : q.ReadsBack written value' stop) (next : ∀ b later, stop (written b ++ later))

include next in
omit h in
/-- Another text follows, or the end of the row does. -/
theorem stop_flatMap (bs : List β) (hs : stop rest) : stop (bs.flatMap written ++ rest) := by
  cases bs with
  | nil => exact hs
  | cons b bs =>
    rw [List.flatMap_cons, List.append_assoc]
    exact next b _

include h next

/-- As many readings as there are texts give back what was written. -/
theorem timesFrom_success {bs : List β} (hc : c.rest = bs.flatMap written ++ rest)
    (hs : stop rest) : (timesFrom q bs.length c).outcome =
      .success (bs.map value', .drop (bs.flatMap written).length c) := by
  induction bs generalizing c with
  | nil => rfl
  | cons b bs ih =>
    rw [List.flatMap_cons, List.append_assoc] at hc
    have later := ih (Cursor.rest_drop_of_append hc)
    rw [← Cursor.drop_length_append] at later
    have read := h.success hc (stop_flatMap next bs hs)
    exact timesFrom_eq_success.2 ⟨_, _, _, read, later, rfl⟩

/-- A repetition reads all texts that follow one another, if no other one follows the last. -/
theorem repeated_success {bs : List β} (hc : c.rest = bs.flatMap written ++ rest) (hs : stop rest)
    (none : ∀ b later, rest = written b ++ later → ¬ stop later) :
    (repeated q c).outcome = .success (bs.map value', .drop (bs.flatMap written).length c) := by
  have counted := h.timesFrom_success next hc hs
  rw [← List.length_map value'] at counted
  have declines : q.Declines (.drop (bs.flatMap written).length c) := by
    rw [h.declines_iff, Cursor.rest_drop_of_append hc]
    exact none
  exact (repeatFrom_eq_success_iff h.consumes (Nat.lt_succ_self _)).2 ⟨counted, declines⟩

omit next in
/-- Where readings have been made in a row, a row of texts was written. -/
theorem exists_of_timesFrom {n : Nat} {as : List α'} (hs : stop c.rest)
    (ht : (timesFrom q n c).outcome = .success (as, d)) :
    ∃ bs : List β, as = bs.map value' ∧ c.rest = bs.flatMap written ++ d.rest ∧
      d = .drop (bs.flatMap written).length c ∧ stop d.rest := by
  induction n generalizing c as with
  | zero =>
    cases ht
    exact ⟨[], rfl, rfl, rfl, hs⟩
  | succ n ih =>
    obtain ⟨t, as', d', hq, later, eq⟩ := timesFrom_eq_success.1 ht
    cases eq
    obtain ⟨b, rest, hc, hs', rfl⟩ := (h.success_iff c t).1 hq
    have behind : (Cursor.drop (written b).length c).rest = rest := Cursor.rest_drop_of_append hc
    obtain ⟨bs, rfl, hr, hd, stops⟩ := ih (behind ▸ hs') later
    refine ⟨b :: bs, rfl, ?_, ?_, stops⟩
    · rw [hc, ← behind, List.flatMap_cons, List.append_assoc]
      exact congrArg _ hr
    · rw [List.flatMap_cons, Cursor.drop_length_append]
      exact hd

omit next in
/-- Repeated, it never fails: it is read until it declines. -/
theorem exists_many (c : Cursor) : ∃ t, (q.many.run c).outcome = .success t := by
  have forward : q.ForwardFrom c :=
    ⟨fun d _ => h.finishes d, fun _ _ _ ht => (h.passes_of_success ht).reaches⟩
  obtain ⟨x, repeats, exhausts⟩ := forward.exists_exhausts
  obtain stops | ⟨f, hf, committed⟩ := exhausts.stops_or_fails (h.finishes x.rest)
  · exact ⟨_, many_of_stops repeats stops⟩
  · obtain ⟨t, ht⟩ | ⟨g, hg, recoverable⟩ := h.success_or_declines x.rest
    · cases hf.symm.trans ht
    · cases hf.symm.trans hg
      exact absurd (committed.symm.trans recoverable) Bool.noConfusion

/-- What is read back once, and then something again and again, is read back as a row, and that ends
where no other of them follows. -/
theorem seq_many (hp : p.ReadsBack written' value stop) :
    (seq p q.many).ReadsBack
      (fun r : Row β => written' r.first ++ r.others.flatMap written)
      (fun r => (value r.first, r.others.map value')) (RowStop written stop) where
  ne_nil r := List.append_ne_nil_of_left_ne_nil (hp.ne_nil r.first) _
  success_iff c t := by
    simp only [seq, andThen, outcome_bind_eq_success, outcome_map_eq_success, many_eq_success]
    constructor
    · rintro ⟨t₀, h₀, _, ⟨as, d, hd, rfl⟩, rfl⟩
      obtain ⟨b, rest, hc, hs, rfl⟩ := (hp.success_iff c t₀).1 h₀
      have behind : (Cursor.drop (written' b).length c).rest = rest := Cursor.rest_drop_of_append hc
      obtain ⟨counted, declines⟩ := (repeatFrom_eq_success_iff h.consumes (Nat.lt_succ_self _)).1 hd
      obtain ⟨bs, rfl, hr, rfl, stops⟩ := h.exists_of_timesFrom (behind ▸ hs) counted
      refine ⟨⟨b, bs⟩, _, ?_, ⟨stops, h.declines_iff.1 declines⟩, ?_⟩
      · rw [hc, ← behind, List.append_assoc]
        exact congrArg _ hr
      · rw [Cursor.drop_length_append]
        rfl
    · rintro ⟨⟨b, bs⟩, rest, hc, ⟨hs, none⟩, rfl⟩
      rw [List.append_assoc] at hc
      have behind : (Cursor.drop (written' b).length c).rest = bs.flatMap written ++ rest :=
        Cursor.rest_drop_of_append hc
      have first := hp.success hc (stop_flatMap next bs hs)
      have repeated := h.repeated_success next behind hs none
      refine ⟨_, first, _, ⟨_, _, repeated, rfl⟩, ?_⟩
      rw [Cursor.drop_length_append]
      rfl
  declines c none := by
    obtain ⟨t, ht⟩ | ⟨f, hf, recoverable⟩ := hp.success_or_declines c
    · obtain ⟨u, hu⟩ := h.exists_many t.rest
      exact absurd (andThen_success ht hu) (none _)
    · exact ⟨f, andThen_failure_left hf, recoverable⟩

end Rows

/-- With `x` in front of each other one, what was written is a row joined by `x`. -/
theorem joined (h : p.ReadsBack written value stop) (front : ∀ later, stop (x :: later))
    (hq : q.ReadsBack (fun b => x :: written b) value' stop) :
    (seq p q.many).ReadsBack (Row.joined x written)
      (fun r => (value r.first, r.others.map value')) (RowStop (fun b => x :: written b) stop) := by
  rw [funext (Row.joined_eq x written)]
  exact hq.seq_many (fun b later => front (written b ++ later)) h

theorem parse_eq_accepted (h : p.ReadsBack written value stop) (hs : stop []) {width : Nat}
    {text : List Char} {a : α} :
    p.parse width text = .accepted a ↔ ∃ b, text = written b ∧ a = value b := by
  rw [parse, Answer.ofOutcome_eq_accepted]
  constructor
  · rintro ⟨t, ht, rfl, hr⟩
    obtain ⟨b, rest, hc, -, rfl⟩ := (h.success_iff _ t).1 ht
    obtain rfl : rest = [] := (Cursor.rest_drop_of_append hc).symm.trans hr
    rw [List.append_nil] at hc
    exact ⟨b, hc, rfl⟩
  · rintro ⟨b, rfl, rfl⟩
    have whole : (Cursor.ofText (written b)).rest = written b ++ [] := (List.append_nil _).symm
    exact ⟨_, h.success whole hs, rfl, Cursor.rest_drop_of_append whole⟩

/-- What is left over behind a text is refused where it begins. -/
theorem parse_append (h : p.ReadsBack written value stop) (hs : stop rest) (ne : rest ≠ [])
    (b : β) (width : Nat) :
    p.parse width (written b ++ rest) = .refused (.ofFailure
      (.trailing (.drop (written b).length (.ofText (written b ++ rest)))) .trailingInput width) := by
  have whole : (Cursor.ofText (written b ++ rest)).rest = written b ++ rest := rfl
  rw [parse, h.success whole hs]
  exact Answer.ofOutcome_of_ne_nil ((Cursor.rest_drop_of_append whole).symm ▸ ne)

end ReadsBack

section Words

variable {L : Language Char} {P : Char → Prop} {k : CharClass} {w : List Char}

/-- A lexer reads its words back, if what may stand behind a word is what it does not go on with. -/
theorem Lexes.readsBack {p : Parser ε (List Char)} (hp : p.Lexes L) (nil : [] ∉ L)
    (ends : ∀ w rest, w ∈ L → (Longest L (w ++ rest) w ↔ stop rest)) :
    p.ReadsBack (fun w : {w // w ∈ L} => w.1) (fun w => w.1) stop where
  ne_nil w eq := nil (eq ▸ w.2)
  success_iff c t := by
    constructor
    · intro ht
      obtain ⟨longest, eq⟩ := hp.longest_of_success ht
      obtain ⟨rest, hr⟩ := longest.isPrefix
      exact ⟨⟨t.target, longest.mem⟩, rest, hr.symm, (ends _ rest longest.mem).1 (hr ▸ longest), eq⟩
    · rintro ⟨⟨w, hw⟩, rest, hc, hs, rfl⟩
      exact hp.of_longest (hc ▸ (ends w rest hw).2 hs)
  declines c none := by
    have end_of := hp c
    generalize ho : (p.run c).outcome = o at end_of
    cases end_of with
    | word => exact absurd ho (none _)
    | stuck => exact ⟨_, ho, rfl⟩

/-- No character with the property comes next. -/
def NotNext (P : Char → Prop) (rest : List Char) : Prop := ∀ y ys, rest = y :: ys → ¬ P y

theorem notNext_cons {y : Char} (hy : ¬ P y) (ys : List Char) : NotNext P (y :: ys) := by
  rintro z zs eq
  cases eq
  exact hy

theorem of_append_eq_cons {y : Char} {ys : List Char} (hw : w ∈ oneOrMore P)
    (eq : w ++ rest = y :: ys) : P y := by
  obtain ⟨z, zs, rfl⟩ := List.exists_cons_of_ne_nil hw.1
  obtain rfl : z = y := (List.cons.inj eq).1
  exact hw.2 z List.mem_cons_self

theorem longest_oneOrMore_iff (hw : w ∈ oneOrMore P) :
    Longest (oneOrMore P) (w ++ rest) w ↔ NotNext P rest := by
  constructor
  · rintro longest y ys rfl hy
    have more : w ++ [y] ∈ oneOrMore P := by
      refine ⟨by simp, fun z hz => ?_⟩
      obtain hz | hz := List.mem_append.1 hz
      · exact hw.2 z hz
      · rwa [List.mem_singleton.1 hz]
    have shorter := (longest.longest _ ⟨ys, by simp⟩ more).length_le
    rw [List.length_append, List.length_singleton] at shorter
    omega
  · intro none
    exact longest_append hw fun y ys z hr mem => none y ys hr (mem.2 y (by simp))

/-- Where a character with the property comes next, so does a text of them. -/
theorem exists_oneOrMore_append {y : Char} (hy : P y) (ys : List Char) :
    ∃ w later, w ∈ oneOrMore P ∧ y :: ys = w ++ later ∧ NotNext P later := by
  induction ys generalizing y with
  | nil => exact ⟨[y], [], ⟨by simp, by simpa using hy⟩, rfl, nofun⟩
  | cons z zs ih =>
    by_cases hz : P z
    · obtain ⟨w, later, hw, eq, hl⟩ := ih hz
      refine ⟨y :: w, later, ⟨by simp, ?_⟩, congrArg _ eq, hl⟩
      rintro v (- | ⟨-, hv⟩)
      · exact hy
      · exact hw.2 v hv
    · refine ⟨[y], z :: zs, ⟨by simp, by simpa using hy⟩, rfl, fun v vs eq => ?_⟩
      rwa [← (List.cons.inj eq).1]

theorem run1_readsBack (hk : ∀ y, k.test y = true ↔ P y) :
    (run1 k : Parser ε _).ReadsBack (fun w : {w // w ∈ oneOrMore P} => w.1) (fun w => w.1)
      (NotNext P) :=
  (lexes_run1 hk).readsBack (fun h => h.1 rfl) fun _ _ => longest_oneOrMore_iff

end Words

section Lists

variable {set : List Char}

/-- Texts without the characters of `set`, separated by `x`. -/
def separatedTexts (set : List Char) (x : Char) : Parser ε (List (List Char)) :=
  sepBy1 (textUntil set) (char (.single x))

/-- One item or more, none of them empty and none with a character of `set`. -/
def Items (set : List Char) (ws : List (List Char)) : Prop :=
  ws ≠ [] ∧ ∀ w ∈ ws, w ≠ [] ∧ ∀ y ∈ w, y ∉ set

/-- What a list leaves over: nothing, or another character of `set`, or a separator that no item
follows. -/
inductive ListEnd (set : List Char) (x : Char) : List Char → Prop
  | nil : ListEnd set x []
  | other {y : Char} {ys : List Char} (hy : y ∈ set) (ne : y ≠ x) : ListEnd set x (y :: ys)
  | trailing : ListEnd set x [x]
  | doubled {y : Char} {ys : List Char} (hy : y ∈ set) : ListEnd set x (x :: y :: ys)

theorem items_iff {ws : List (List Char)} : Items set ws ↔
    ∃ r : Row {w // w ∈ oneOrMore (· ∉ set)}, ws = r.toList.map fun w => w.1 := by
  constructor
  · rintro ⟨ne, all⟩
    lift ws to List {w // w ∈ oneOrMore (· ∉ set)} using all
    obtain ⟨w, ws, rfl⟩ := List.exists_cons_of_ne_nil fun nil => ne (congrArg _ nil)
    exact ⟨⟨w, ws⟩, rfl⟩
  · rintro ⟨r, rfl⟩
    refine ⟨List.cons_ne_nil _ _, fun w hw => ?_⟩
    obtain ⟨v, -, rfl⟩ := List.mem_map.1 hw
    exact v.2

/-- A list ends in front of a separator exactly if no item follows it. -/
theorem rowStop_iff_listEnd (hx : x ∈ set) :
    RowStop (fun w : {w // w ∈ oneOrMore (· ∉ set)} => x :: w.1) (NotNext (· ∉ set)) rest ↔
      ListEnd set x rest := by
  constructor
  · rintro ⟨stops, none⟩
    cases rest with
    | nil => exact .nil
    | cons y ys =>
      have hy : y ∈ set := not_not.1 (stops y ys rfl)
      by_cases ne : y = x
      · subst ne
        cases ys with
        | nil => exact .trailing
        | cons z zs =>
          refine .doubled (by_contra fun hz => ?_)
          obtain ⟨w, later, hw, eq, hl⟩ := exists_oneOrMore_append (P := (· ∉ set)) hz zs
          exact none ⟨w, hw⟩ later (congrArg _ eq) hl
      · exact .other hy ne
  · have nonempty (w : {w // w ∈ oneOrMore (· ∉ set)}) : w.1 ≠ [] := w.2.1
    rintro (- | ⟨hy, ne⟩ | - | hy)
    · exact rowStop_of_length_le_one nofun nonempty (by simp)
    · exact rowStop_of_ne_cons (notNext_cons (not_not.2 hy) _) fun _ eq => ne (List.cons.inj eq).1
    · exact rowStop_of_length_le_one (notNext_cons (not_not.2 hx) _) nonempty le_rfl
    · refine ⟨notNext_cons (not_not.2 hx) _, fun w later eq => ?_⟩
      exact absurd hy (of_append_eq_cons w.2 (List.cons.inj eq).2.symm)

theorem separatedTexts_readsBack (hx : x ∈ set) :
    (separatedTexts set x : Parser ε _).ReadsBack
      (Row.joined x fun w : {w // w ∈ oneOrMore (· ∉ set)} => w.1)
      (fun r => r.toList.map fun w => w.1) (ListEnd set x) := by
  have items : (textUntil set : Parser ε _).ReadsBack
      (fun w : {w // w ∈ oneOrMore (· ∉ set)} => w.1) (fun w => w.1) (NotNext (· ∉ set)) :=
    run1_readsBack fun y => by simp [CharClass.noneOf]
  have later := (items.behind x).map Prod.snd
  rw [seq, map_andThen] at later
  have rows := (items.joined (notNext_cons (not_not.2 hx)) later).map fun r => r.1 :: r.2
  rw [separatedTexts, sepBy1_eq_seq]
  exact rows.of_stop_iff fun rest => rowStop_iff_listEnd hx

/-- A list of texts is read back from its items joined by the separator, and what is read as a list
is the items joined. A list ends at a separator only if no item follows it. -/
theorem lists_read_back (hx : x ∈ set) :
    (∀ width text ws, (separatedTexts set x : Parser ε _).parse width text = .accepted ws ↔
      Items set ws ∧ text = [x].intercalate ws) ∧
    ∀ c t, ((separatedTexts set x : Parser ε _).run c).outcome = .success t ↔
      ∃ ws, Items set ws ∧ ListEnd set x t.rest.rest ∧
        c.rest = [x].intercalate ws ++ t.rest.rest ∧
        t = .spanning ws c (.drop ([x].intercalate ws).length c) := by
  have reads := separatedTexts_readsBack (ε := ε) hx
  constructor
  · intro width text ws
    rw [reads.parse_eq_accepted .nil, items_iff]
    constructor
    · rintro ⟨r, rfl, rfl⟩
      exact ⟨⟨r, rfl⟩, rfl⟩
    · rintro ⟨⟨r, rfl⟩, rfl⟩
      exact ⟨r, rfl, rfl⟩
  · intro c t
    rw [reads.success_iff]
    constructor
    · rintro ⟨r, rest, hc, ends, rfl⟩
      have behind : (Cursor.drop _ c).rest = rest := Cursor.rest_drop_of_append hc
      subst behind
      exact ⟨_, items_iff.2 ⟨r, rfl⟩, ends, hc, rfl⟩
    · rintro ⟨ws, items, ends, hc, eq⟩
      obtain ⟨r, rfl⟩ := items_iff.1 items
      exact ⟨r, _, hc, ends, eq⟩

/-- A doubled separator ends a list, and so does another character of the set. -/
theorem lists_read_back_of_commas :
    let set := [',', ';']
    let list : Parser Unit (List (List Char)) := separatedTexts set ','
    let c : Cursor := .ofText ['a', 'b', ',', 'c', ',', ',', 'd']
    ',' ∈ set ∧ list.parse 80 ['a', 'b', ',', 'c'] = .accepted [['a', 'b'], ['c']] ∧
      (list.run c).outcome = .success (.spanning [['a', 'b'], ['c']] c (c.drop 4)) := by
  intro set list c
  have hx : ',' ∈ set := by decide
  obtain ⟨parse, run⟩ := lists_read_back (ε := Unit) hx
  have items : Items set [['a', 'b'], ['c']] := ⟨by simp, by simp [set]⟩
  refine ⟨hx, (parse _ _ _).2 ⟨items, rfl⟩, (run c _).2 ⟨_, items, ?_, rfl, rfl⟩⟩
  exact .doubled (by decide)

end Lists

end Parser

end TextParsing
