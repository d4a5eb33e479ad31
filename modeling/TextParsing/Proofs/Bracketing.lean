import TextParsing.Grammar.FormLaws
import TextParsing.Proofs.Choosing
import TextParsing.Proofs.Joining

/-!
Nesting. A parser that reads itself between parentheses, or else nothing, goes back wherever a level
is not closed: from a text of more opening parentheses than closing ones it reads nothing at all. So
it never fails, and what it reads are opening parentheses and as many closing ones, to any depth.
-/

namespace TextParsing

universe u v w

/-- Opening parentheses, and as many closing ones. -/
def parentheses (n : Nat) : List Char := List.replicate n '(' ++ List.replicate n ')'

section

variable {k m n : Nat} {xs : List Char}

theorem parentheses_append (n : Nat) :
    parentheses n ++ [')'] = List.replicate n '(' ++ List.replicate (n + 1) ')' := by
  rw [parentheses, List.append_assoc, ← List.replicate_succ']

theorem parentheses_succ (n : Nat) : parentheses (n + 1) = '(' :: (parentheses n ++ [')']) := by
  rw [parentheses_append]
  rfl

theorem length_parentheses (n : Nat) : (parentheses n).length = 2 * n := by
  simp [parentheses, two_mul]

/-- Where parentheses are closed, no others are nested deeper. -/
theorem eq_of_closed (closed : parentheses m ++ [')'] <+: xs) (hk : parentheses k <+: xs)
    (le : m ≤ k) : m = k := by
  -- else a closing one and an opening one would stand at the same place
  by_contra ne
  have shorter : (parentheses m ++ [')']).length ≤ (parentheses k).length := by
    rw [List.length_append, length_parentheses, length_parentheses, List.length_singleton]
    omega
  obtain ⟨ys, eq⟩ := List.prefix_of_prefix_length_le closed hk shorter
  have closing : (parentheses k)[m]? = some ')' := by
    rw [← eq, parentheses_append]
    simp
  have opening : (parentheses k)[m]? = some '(' := by
    have lt : m < k := by omega
    have inside : m < (List.replicate k '(').length := by rwa [List.length_replicate]
    rw [parentheses, List.getElem?_append_left inside, List.getElem?_replicate_of_lt lt]
  cases opening.symm.trans closing

/-- Parentheses nested `k` deep come first, and none that are nested deeper do. -/
structure Deepest (xs : List Char) (k : Nat) : Prop where
  isPrefix : parentheses k <+: xs
  le : ∀ m, parentheses m <+: xs → m ≤ k

namespace Deepest

theorem of_closed (h : Deepest xs k) (closed : parentheses k ++ [')'] <+: xs) :
    Deepest ('(' :: xs) (k + 1) where
  isPrefix := by
    rw [parentheses_succ]
    exact List.cons_prefix_cons.2 ⟨rfl, closed⟩
  le m hm := by
    cases m with
    | zero => exact Nat.zero_le _
    | succ m =>
      rw [parentheses_succ] at hm
      have inner := (List.cons_prefix_cons.1 hm).2
      exact Nat.succ_le_succ (h.le m ((List.prefix_append _ _).trans inner))

theorem of_open (h : Deepest xs k) (opened : ¬ parentheses k ++ [')'] <+: xs) :
    Deepest ('(' :: xs) 0 where
  isPrefix := List.nil_prefix
  le m hm := by
    cases m with
    | zero => exact le_rfl
    | succ m =>
      rw [parentheses_succ] at hm
      have closed := (List.cons_prefix_cons.1 hm).2
      have le := h.le m ((List.prefix_append _ _).trans closed)
      exact absurd (eq_of_closed closed h.isPrefix le ▸ closed) opened

theorem of_ne_cons (h : ∀ ys, xs ≠ '(' :: ys) : Deepest xs 0 where
  isPrefix := List.nil_prefix
  le m hm := by
    cases m with
    | zero => exact le_rfl
    | succ m =>
      obtain ⟨ys, eq⟩ := hm
      exact absurd (parentheses_succ m ▸ eq.symm) (h _)

theorem eq_of_parentheses (h : Deepest (parentheses n) k) : k = n := by
  have le := h.isPrefix.length_le
  rw [length_parentheses, length_parentheses] at le
  have ge := h.le n (List.prefix_refl _)
  omega

end Deepest

end

namespace Parser

open Reply

variable {ε : Type} {α : Type u} {c : Cursor} {p : Parser ε α}

/-- What `p` reads between parentheses, which makes one more of it, or else nothing. -/
def nestedIn (zero : α) (succ : α → α) (p : Parser ε α) : Parser ε α :=
  ((between (char (.single '(')) p (char (.single ')'))).map succ).orElse (succeed zero)

/-- Parentheses, counted by how deep they are nested. -/
def nested : Parser ε Nat := recursive (nestedIn 0 Nat.succ)

section Levels

variable {β : Type v} {γ : Type w} {left : Parser ε β} {right : Parser ε γ} {f : Failure}
  {l : Parse β} {t : Parse α} {r : Parse γ}

theorem between_eq (left : Parser ε β) (p : Parser ε α) (right : Parser ε γ) :
    between left p right = keepRight left (keepLeft p right) := by
  ext c
  simp [keepLeft, keepRight, andThen, between, Parse.spanning]

theorem between_success (hl : (left.run c).outcome = .success l)
    (ht : (p.run l.rest).outcome = .success t) (hr : (right.run t.rest).outcome = .success r) :
    ((between left p right).run c).outcome = .success (.spanning t.target c r.rest) := by
  rw [between_eq]
  exact andThen_success hl (andThen_success ht hr)

theorem between_failure_left (hf : (left.run c).outcome = .failure f) :
    ((between left p right).run c).outcome = .failure f := by
  rw [between_eq]
  exact andThen_failure_left hf

theorem between_failure_right (hl : (left.run c).outcome = .success l)
    (ht : (p.run l.rest).outcome = .success t) (hf : (right.run t.rest).outcome = .failure f) :
    ((between left p right).run c).outcome = .failure f := by
  rw [between_eq]
  exact andThen_failure_right hl (andThen_failure_right ht hf)

variable {k : Nat}

theorem rest_drop_parentheses {later : List Char} (hl : parentheses k ++ later = c.rest) :
    (Cursor.drop (2 * k) c).rest = later := by
  rw [← length_parentheses]
  exact Cursor.rest_drop_of_append hl.symm

variable (zero : α) (succ : α → α) {a : α} {depth : Nat} {xs : List Char}

theorem nestedIn_of_success
    (ht : ((between (char (.single '(')) p (char (.single ')'))).run c).outcome = .success t) :
    ((nestedIn zero succ p).run c).outcome = .success (t.map succ) :=
  outcome_handle_eq_success.2 (.inl ⟨_, outcome_map_eq_success.2 ⟨t, ht, rfl⟩, rfl⟩)

theorem nestedIn_of_failure
    (hf : ((between (char (.single '(')) p (char (.single ')'))).run c).outcome = .failure f)
    (recoverable : f.committed = false) :
    ((nestedIn zero succ p).run c).outcome = .success (.spanning zero c c) :=
  outcome_handle_eq_success.2 (.inr ⟨f, outcome_map_eq_failure.2 hf, recoverable, rfl⟩)

/-- A level of parentheses is read if it is closed behind what is read inside of it. Otherwise
nothing is. -/
theorem nestedIn_of_inner (hr : c.rest = '(' :: xs) (deepest : Deepest xs k)
    (inner : (p.run (.drop 1 c)).outcome =
      .success (.spanning a (.drop 1 c) (.drop (2 * k) (.drop 1 c)))) :
    (Deepest c.rest (k + 1) ∧ ((nestedIn zero succ p).run c).outcome =
      .success (.spanning (succ a) c (.drop (2 * (k + 1)) c))) ∨
    (Deepest c.rest 0 ∧ ((nestedIn zero succ p).run c).outcome =
      .success (.spanning zero c c)) := by
  have opening := char_single_eq_success (ε := ε).2 ⟨xs, hr, rfl⟩
  have behind : (Cursor.drop 1 c).rest = xs := Cursor.rest_drop_of_cons hr
  obtain ⟨later, hl⟩ := deepest.isPrefix
  have rest : (Cursor.drop (2 * k) (.drop 1 c)).rest = later :=
    rest_drop_parentheses (hl.trans behind.symm)
  rw [hr]
  by_cases closed : ∃ ys, later = ')' :: ys
  · obtain ⟨ys, rfl⟩ := closed
    refine .inl ⟨deepest.of_closed ⟨ys, by rw [List.append_assoc]; exact hl⟩, ?_⟩
    have closing := char_single_eq_success (ε := ε).2 ⟨ys, rest, rfl⟩
    have level := nestedIn_of_success zero succ (between_success opening inner closing)
    have steps : 1 + 2 * k + 1 = 2 * (k + 1) := by omega
    rw [← steps, ← Cursor.drop_drop, ← Cursor.drop_drop]
    exact level
  · refine .inr ⟨deepest.of_open ?_, ?_⟩
    · rintro ⟨ys, eq⟩
      rw [List.append_assoc] at eq
      exact closed ⟨ys, List.append_cancel_left (hl.trans eq.symm)⟩
    · obtain ⟨f, hf, recoverable⟩ := char_single_declines (ε := ε) fun ys hy =>
        closed ⟨ys, rest.symm.trans hy⟩
      exact nestedIn_of_failure _ _ (between_failure_right opening inner hf) recoverable

/-- However deep it may go, if that is deeper than what is left is long, a parser of nested levels
succeeds behind the levels that come first, and has counted them. -/
theorem unroll_nestedIn (count : Nat → α) (counts : ∀ k, succ (count k) = count (k + 1))
    (hd : c.rest.length < depth) :
    ∃ k, Deepest c.rest k ∧ (unroll (nestedIn (count 0) succ (ε := ε)) depth c).outcome =
      .success (.spanning (count k) c (.drop (2 * k) c)) := by
  -- each level reads a parenthesis before the next is entered, so the depth does not run out
  induction depth generalizing c with
  | zero => exact absurd hd (Nat.not_lt_zero _)
  | succ depth ih =>
    by_cases opens : ∃ xs, c.rest = '(' :: xs
    · obtain ⟨xs, hr⟩ := opens
      have behind : (Cursor.drop 1 c).rest = xs := Cursor.rest_drop_of_cons hr
      rw [hr, List.length_cons] at hd
      obtain ⟨k, deepest, inner⟩ := ih (behind ▸ Nat.lt_of_succ_lt_succ hd)
      rw [behind] at deepest
      obtain ⟨deeper, level⟩ | ⟨none, level⟩ :=
        nestedIn_of_inner (count 0) succ (p := ⟨_⟩) hr deepest inner
      · rw [counts] at level
        exact ⟨k + 1, deeper, level⟩
      · exact ⟨0, none, level⟩
    · have closed : ∀ xs, c.rest ≠ '(' :: xs := fun xs hr => opens ⟨xs, hr⟩
      obtain ⟨f, hf, recoverable⟩ := char_single_declines (ε := ε) closed
      exact ⟨0, .of_ne_cons closed, nestedIn_of_failure _ _ (between_failure_left hf) recoverable⟩

/-- What stands beside what is kept may be changed. -/
theorem between_map {β' : Type v} {γ' : Type w} (g : β → β') (h : γ → γ') :
    between (left.map g) p (right.map h) = between left p right := by
  ext c
  simp [between, map, Parse.map]

end Levels

/-- Of every text a parser reads the parentheses that come first, as deep as they are nested, and
produces what `count` makes of the depth. All else is left over. -/
structure CountsNesting (p : Parser ε α) (count : Nat → α) : Prop where
  run : ∀ c, ∃ k, Deepest c.rest k ∧
    (p.run c).outcome = .success (.spanning (count k) c (.drop (2 * k) c))
  accepts : ∀ width text a,
    p.parse width text = .accepted a ↔ ∃ n, text = parentheses n ∧ a = count n
  refuses : ∀ width text, (∃ n, text = parentheses n) ∨ ∃ k, Deepest text k ∧
    p.parse width text = .refused (.ofFailure (.trailing (.drop (2 * k) (.ofText text)))
      .trailingInput width)

theorem countsNesting {count : Nat → α} (run : ∀ c, ∃ k, Deepest c.rest k ∧
      (p.run c).outcome = .success (.spanning (count k) c (.drop (2 * k) c))) :
    p.CountsNesting count where
  run := run
  accepts width text a := by
    obtain ⟨k, deepest, ht⟩ := run (.ofText text)
    rw [parse, ht, Answer.ofOutcome_eq_accepted]
    constructor
    · rintro ⟨t, ⟨⟩, rfl, nil⟩
      obtain ⟨later, hl⟩ := deepest.isPrefix
      obtain rfl : later = [] := (rest_drop_parentheses hl).symm.trans nil
      exact ⟨k, hl.symm.trans (List.append_nil _), rfl⟩
    · rintro ⟨n, rfl, rfl⟩
      obtain rfl : k = n := deepest.eq_of_parentheses
      exact ⟨_, rfl, rfl, rest_drop_parentheses (List.append_nil _)⟩
  refuses width text := by
    obtain ⟨k, deepest, ht⟩ := run (.ofText text)
    obtain ⟨later, hl⟩ := deepest.isPrefix
    obtain rfl | ne := eq_or_ne later []
    · exact .inl ⟨k, hl.symm.trans (List.append_nil _)⟩
    · refine .inr ⟨k, deepest, ?_⟩
      have rest : (Cursor.drop (2 * k) (.ofText text)).rest = later := rest_drop_parentheses hl
      rw [parse, ht]
      exact Answer.ofOutcome_of_ne_nil (rest ▸ ne)

end Parser

namespace Grammar

variable {n : Nat}

def nested : Grammar n 0 :=
  recursive (orElse (map .succ (between (char (.single '(')) (ref 0) (char (.single ')'))))
    (succeed (.int 0)))

/-- Entered to the same depth, the grammar does what the parser does. -/
theorem nested_parser_run (rules : Rules n) (c : Cursor) :
    (nested.parser rules).run c =
      Parser.unroll (.nestedIn (.int 0) .succ) (sufficientDepth n c) c := by
  change Parser.unroll _ _ c = _
  congr 1
  funext self
  simp only [Recorder.watch_commits, toParser, toParser_map, toParser_between]
  rw [Parser.between_map]
  rfl

end Grammar

namespace Parser

/-- A parser that reads itself between parentheses, or nothing, counts how deep they are nested, and
so does the grammar. -/
theorem recursion_counts_nesting :
    (nested : Parser ε Nat).CountsNesting id ∧
      ∀ {n : Nat} (rules : Rules n),
        (Grammar.nested.parser rules).CountsNesting fun k => .int k := by
  constructor
  · exact countsNesting fun c =>
      unroll_nestedIn Nat.succ id (fun _ => rfl) c.rest.length.lt_succ_self
  · intro n rules
    refine countsNesting fun c => ?_
    have enough : c.rest.length < Grammar.sufficientDepth n c :=
      Nat.le_mul_of_pos_left _ n.succ_pos
    have counts (k : Nat) : Value.succ (.int k) = .int (k + 1 : Nat) := rfl
    rw [Grammar.nested_parser_run]
    exact unroll_nestedIn Value.succ (fun k => .int k) counts enough

example : (nested : Parser Unit Nat).parse 80 ['(', '(', ')', ')'] = .accepted 2 := rfl

example : ((nested : Parser Unit Nat).run (.ofText ['(', '(', ')'])).outcome =
    .success (.empty 0 (.ofText ['(', '(', ')'])) := rfl

end Parser

end TextParsing
