import Mathlib.Computability.Language
import Mathlib.Data.List.TakeWhile
import TextParsing.Proofs.Counting
import TextParsing.Proofs.Moving

/-!
Lexers read words. Each lexer of characters has a language of its own; what it reads is the longest
word that the text begins with, and where there is none, it fails at the first character with which
the text can no longer become a word. Nothing that has been read is given back, so this goes through
sequences only where it is settled by the next character whether a word goes on.
-/

namespace TextParsing

universe u v w

/-- The texts of one character or more, all with the property. -/
def oneOrMore (P : Char → Prop) : Language Char := {w | w ≠ [] ∧ ∀ x ∈ w, P x}

/-- The texts of one character with the property. -/
def exactlyOne (P : Char → Prop) : Language Char := {w | ∃ x, P x ∧ w = [x]}

/-- The texts that can be extended to a word of `L`. -/
def beginnings (L : Language Char) : Language Char := {w | ∃ v, w ++ v ∈ L}

/-- Of all beginnings of `cs`, the longest that is a word of `L` is `w`. -/
structure Longest (L : Language Char) (cs w : List Char) : Prop where
  isPrefix : w <+: cs
  mem : w ∈ L
  longest : ∀ v, v <+: cs → v ∈ L → v <+: w

/-- A word of `L` and a word of `M` after it can be read without going back. Between two words of
`L` that begin with each other there are only words of `L`, and no character after which such a word
goes on is one that a word of `M` begins with. -/
structure Parts (L M : Language Char) : Prop where
  inhabited : ∃ m, m ∈ M
  gapless : ∀ w v z, w ∈ L → w ++ v ++ z ∈ L → w ++ v ∈ L
  apart : ∀ w x z m, w ∈ L → w ++ x :: z ∈ L → m ∈ M → ∃ y ys, m = y :: ys ∧ y ≠ x

section Language

variable {L M : Language Char} {cs ds v w m z : List Char} {P : Char → Prop}

theorem beginnings_mul (h : ∃ m, m ∈ M) (hw : w ∈ beginnings L) : w ∈ beginnings (L * M) := by
  obtain ⟨v, hv⟩ := hw
  obtain ⟨m, hm⟩ := h
  refine ⟨v ++ m, Language.mem_mul.2 ⟨w ++ v, hv, m, hm, ?_⟩⟩
  rw [List.append_assoc]

theorem append_beginnings (hw : w ∈ L) (hv : v ∈ beginnings M) : w ++ v ∈ beginnings (L * M) := by
  obtain ⟨z, hz⟩ := hv
  refine ⟨z, Language.mem_mul.2 ⟨w, hw, v ++ z, hz, ?_⟩⟩
  rw [List.append_assoc]

/-- No word of `L` is a beginning of `cs`. -/
def NoWord (L : Language Char) (cs : List Char) : Prop := ∀ v, v <+: cs → v ∉ L

/-- As far as `cs` can be a beginning of a word of `L`, it is `w`; not at all if `L` has no words. -/
def Furthest (L : Language Char) (cs w : List Char) : Prop := Longest (1 + beginnings L) cs w

theorem Longest.unique (hv : Longest L cs v) (hw : Longest L cs w) : v = w :=
  (hw.longest v hv.isPrefix hv.mem).eq_of_length_le
    (hv.longest w hw.isPrefix hw.mem).length_le

theorem longest_self (h : cs ∈ L) : Longest L cs cs := ⟨List.prefix_rfl, h, fun _ hv _ => hv⟩

/-- A word with which `cs` begins is the longest one if no word goes on as `cs` does. -/
theorem longest_append (hw : w ∈ L) (h : ∀ x xs z, cs = x :: xs → w ++ x :: z ∉ L) :
    Longest L (w ++ cs) w where
  isPrefix := List.prefix_append w cs
  mem := hw
  longest := by
    intro v hv mem
    obtain shorter | ⟨i, rfl⟩ := List.prefix_or_prefix_of_prefix hv (List.prefix_append w cs)
    · exact shorter
    · obtain ⟨xs, rfl⟩ := (List.prefix_append_right_inj w).1 hv
      cases i with
      | nil => rw [List.append_nil]
      | cons x i => exact absurd mem (h x (i ++ xs) i rfl)

theorem longest_nil (nil : [] ∈ L) (h : ∀ x xs z, cs = x :: xs → x :: z ∉ L) :
    Longest L cs [] := longest_append nil h

/-- If no word of `L` begins as `cs` does, that is seen at once. -/
theorem furthest_nil (h : ∀ x xs z, cs = x :: xs → x :: z ∉ L) : Furthest L cs [] := by
  refine longest_nil (.inl rfl) ?_
  rintro x xs z hr (eq | ⟨z', hz⟩)
  · cases eq
  · exact h x xs (z ++ z') hr hz

theorem noWord_of (nil : [] ∉ L) (h : ∀ x xs z, cs = x :: xs → x :: z ∉ L) : NoWord L cs := by
  rintro v ⟨xs, rfl⟩
  cases v with
  | nil => exact nil
  | cons x v => exact h x (v ++ xs) v rfl

namespace Parts

/-- Where a word of `L` goes on with `s`, no word of `M` has begun. -/
theorem eq_nil (h : Parts L M) {l s i : List Char} (hl : l ∈ L) (hls : l ++ s ∈ L)
    (hi : i ++ z ∈ M) (hs : s <+: cs) (his : i <+: cs) : s = [] ∨ i = [] ∧ z ≠ [] := by
  cases s with
  | nil => exact .inl rfl
  | cons x s =>
    obtain ⟨y, ys, eq, ne⟩ := h.apart l x s _ hl hls hi
    cases i with
    | nil => exact .inr ⟨rfl, List.ne_nil_of_mem (eq ▸ List.mem_cons_self)⟩
    | cons y' i =>
      obtain ⟨rest, rfl⟩ := hs
      have same : y' = x := (List.cons_prefix_cons.1 his).1
      exact absurd ((List.cons.inj eq).1.symm.trans same) ne

/-- A word of the sequence begins with the longest word of its first part. -/
theorem exists_of_mem (h : Parts L M) (hw : Longest L cs w) (hv : v <+: cs) (mem : v ∈ L * M) :
    ∃ m, m ∈ M ∧ v = w ++ m := by
  obtain ⟨l, hl, m, hm, rfl⟩ := Language.mem_mul.1 mem
  obtain ⟨s, rfl⟩ := hw.longest l ((List.prefix_append l m).trans hv) hl
  obtain ⟨rest, rfl⟩ := hw.isPrefix
  rw [List.append_assoc, List.prefix_append_right_inj] at hv
  rw [← List.append_nil m] at hm
  -- the longest word of `L` goes on with `s` behind `l`, where the word of `M` begins
  obtain rfl | ⟨-, ne⟩ := h.eq_nil hl hw.mem hm (List.prefix_append s rest) hv
  · rw [List.append_nil] at hm ⊢
    exact ⟨m, hm, rfl⟩
  · exact absurd rfl ne

theorem exists_of_mem_beginnings (h : Parts L M) (hw : Longest L cs w) (hv : v <+: cs)
    (hz : v ∈ beginnings (L * M)) : v <+: w ∨ ∃ m, m ∈ beginnings M ∧ v = w ++ m := by
  obtain ⟨z, hz⟩ := hz
  obtain ⟨l, hl, m, hm, eq⟩ := Language.mem_mul.1 hz
  obtain ⟨i, rfl, rfl⟩ | ⟨s, rfl, -⟩ := List.append_eq_append_iff.1 eq
  · -- the word of `L` ends within `v`
    obtain ⟨s, rfl⟩ := hw.longest l ((List.prefix_append l i).trans hv) hl
    obtain ⟨rest, rfl⟩ := hw.isPrefix
    rw [List.append_assoc, List.prefix_append_right_inj] at hv
    obtain rfl | ⟨rfl, -⟩ := h.eq_nil hl hw.mem hm (List.prefix_append s rest) hv
    · rw [List.append_nil]
      exact .inr ⟨i, ⟨z, hm⟩, rfl⟩
    · rw [List.append_nil]
      exact .inl (List.prefix_append l s)
  · -- `v` ends within the word of `L`
    obtain shorter | ⟨i, rfl⟩ := List.prefix_or_prefix_of_prefix hv hw.isPrefix
    · exact .inl shorter
    · exact .inl (hw.longest _ hv (h.gapless w i s hw.mem hl))

theorem longest (h : Parts L M) (hw : Longest L (w ++ ds) w) (hm : Longest M ds m) :
    Longest (L * M) (w ++ ds) (w ++ m) where
  isPrefix := (List.prefix_append_right_inj w).2 hm.isPrefix
  mem := Language.mem_mul.2 ⟨w, hw.mem, m, hm.mem, rfl⟩
  longest := by
    intro v hv hv'
    obtain ⟨m', hm', rfl⟩ := h.exists_of_mem hw hv hv'
    rw [List.prefix_append_right_inj] at hv ⊢
    exact hm.longest m' hv hm'

theorem noWord_left (none : NoWord L cs) : NoWord (L * M) cs := by
  rintro v hv hm
  obtain ⟨l, hl, m, -, rfl⟩ := Language.mem_mul.1 hm
  exact none l ((List.prefix_append l m).trans hv) hl

theorem noWord_right (h : Parts L M) (hw : Longest L (w ++ ds) w) (none : NoWord M ds) :
    NoWord (L * M) (w ++ ds) := by
  intro v hv mem
  obtain ⟨m, hm, rfl⟩ := h.exists_of_mem hw hv mem
  exact none m ((List.prefix_append_right_inj w).1 hv) hm

theorem furthest_left (h : Parts L M) (none : NoWord L cs) (hw : Furthest L cs w) :
    Furthest (L * M) cs w where
  isPrefix := hw.isPrefix
  mem := hw.mem.imp id (beginnings_mul h.inhabited)
  longest := by
    rintro v hv (rfl | ⟨z, hz⟩)
    · exact List.nil_prefix
    · obtain ⟨l, hl, m, -, eq⟩ := Language.mem_mul.1 hz
      obtain ⟨i, rfl, -⟩ | ⟨s, rfl, -⟩ := List.append_eq_append_iff.1 eq
      · exact absurd hl (none l ((List.prefix_append l i).trans hv))
      · exact hw.longest v hv (.inr ⟨s, hl⟩)

theorem furthest_right (h : Parts L M) (hw : Longest L (w ++ ds) w) (hm : Furthest M ds m) :
    Furthest (L * M) (w ++ ds) (w ++ m) where
  isPrefix := (List.prefix_append_right_inj w).2 hm.isPrefix
  mem := by
    refine .inr (append_beginnings hw.mem ?_)
    obtain rfl | hm := hm.mem
    · exact h.inhabited
    · exact hm
  longest := by
    rintro v hv (rfl | hz)
    · exact List.nil_prefix
    · obtain shorter | ⟨m', hm', rfl⟩ := h.exists_of_mem_beginnings hw hv hz
      · exact shorter.trans (List.prefix_append w m)
      · rw [List.prefix_append_right_inj] at hv ⊢
        exact hm.longest m' hv (.inr hm')

end Parts

theorem longest_singleton {x : Char} (short : ∀ w, w ∈ L → w.length ≤ 1) (hx : [x] ∈ L) :
    Longest L (x :: cs) [x] :=
  longest_append hx fun _ _ _ _ mem => absurd (short _ mem) (by simp)

theorem length_of_exactlyOne : w ∈ exactlyOne P → w.length ≤ 1 := by
  rintro ⟨x, -, rfl⟩
  exact Nat.le_refl 1

theorem length_of_optional : w ∈ 1 + exactlyOne P → w.length ≤ 1 := by
  rintro (rfl | h)
  · exact Nat.zero_le 1
  · exact length_of_exactlyOne h

theorem nil_notMem_exactlyOne : [] ∉ exactlyOne P := fun ⟨_, _, eq⟩ => nomatch eq

theorem of_cons_mem_exactlyOne {x : Char} : x :: z ∈ exactlyOne P → P x := by
  rintro ⟨y, hy, eq⟩
  rwa [(List.cons.inj eq).1]

theorem longest_oneOrMore {test : Char → Bool} (h : cs.takeWhile test ≠ []) :
    Longest (oneOrMore fun x => test x = true) cs (cs.takeWhile test) where
  isPrefix := List.takeWhile_prefix test
  mem := ⟨h, fun _ => List.mem_takeWhile_imp⟩
  longest := by
    rintro v ⟨ds, rfl⟩ ⟨-, all⟩
    rw [List.takeWhile_append_of_pos all]
    exact List.prefix_append ..

/-- Texts of such characters can be read in front of words that begin with another. -/
theorem parts_oneOrMore (inhabited : ∃ m, m ∈ M)
    (apart : ∀ m, m ∈ M → ∃ y ys, m = y :: ys ∧ ¬ P y) : Parts (oneOrMore P) M where
  inhabited := inhabited
  gapless := by
    rintro w v z ⟨ne, -⟩ ⟨-, all⟩
    exact ⟨List.append_ne_nil_of_left_ne_nil ne v, fun x hx => all x (List.mem_append_left z hx)⟩
  apart := by
    rintro w x z m - ⟨-, all⟩ hm
    obtain ⟨y, ys, rfl, hy⟩ := apart m hm
    refine ⟨y, ys, rfl, ?_⟩
    rintro rfl
    exact hy (all y (by simp))

/-- So can words of at most one character, if words of `M` begin with another where none is read. -/
theorem parts_of_length (short : ∀ w, w ∈ L → w.length ≤ 1) (inhabited : ∃ m, m ∈ M)
    (apart : ∀ x m, [] ∈ L → [x] ∈ L → m ∈ M → ∃ y ys, m = y :: ys ∧ y ≠ x) : Parts L M where
  inhabited := inhabited
  gapless := by
    intro w v z hw hz
    have length := short _ hz
    cases v with
    | nil => rwa [List.append_nil]
    | cons y v =>
      have none : z = [] := by
        apply List.eq_nil_of_length_eq_zero
        simp only [List.length_append, List.length_cons] at length
        omega
      rwa [none, List.append_nil] at hz
  apart := by
    intro w x z m hw hz hm
    have length := short _ hz
    simp only [List.length_append, List.length_cons] at length
    obtain rfl : w = [] := List.eq_nil_of_length_eq_zero (by omega)
    obtain rfl : z = [] := List.eq_nil_of_length_eq_zero (by omega)
    exact apart x m hw hz hm

end Language

namespace Cursor

variable {c : Cursor} {w : List Char}

theorem reads_of_isPrefix (h : w <+: c.rest) : c.Reads w (.drop w.length c) := by
  have reads := reads_drop w.length c
  rwa [← List.prefix_iff_eq_take.1 h] at reads

theorem rest_drop_eq_nil (h : w <+: c.rest) : (drop w.length c).rest = [] ↔ w = c.rest := by
  rw [(reads_of_isPrefix h).rest, List.self_eq_append_right]

end Cursor

namespace Parser

open Reply

variable {ε : Type} {α : Type u} {β : Type v} {γ : Type w} {p : Parser ε α} {q : Parser ε β}
  {k : CharClass} {c : Cursor} {L M : Language Char}

/-- How a lexer of `L` ends at `c`: with the longest word, or behind the last character up to which
there could be a word. -/
inductive Lexed (L : Language Char) (c : Cursor) : Outcome (Parse (List Char)) → Prop
  | word {w : List Char} (h : Longest L c.rest w) :
    Lexed L c (.success (.spanning w c (.drop w.length c)))
  | stuck {w : List Char} {d : String} (none : NoWord L c.rest) (h : Furthest L c.rest w) :
    Lexed L c (.failure (.expecting (.drop w.length c) d))

def Lexes (p : Parser ε (List Char)) (L : Language Char) : Prop :=
  ∀ c, Lexed L c (p.run c).outcome

theorem Lexes.of_longest {p : Parser ε (List Char)} (hp : p.Lexes L) {w : List Char}
    (hw : Longest L c.rest w) : (p.run c).outcome = .success (.spanning w c (.drop w.length c)) := by
  have end_of := hp c
  generalize (p.run c).outcome = o at end_of
  cases end_of with
  | word h => rw [h.unique hw]
  | stuck none _ => exact absurd hw.mem (none _ hw.isPrefix)

theorem Lexes.longest_of_success {p : Parser ε (List Char)} (hp : p.Lexes L) {t : Parse (List Char)}
    (ht : (p.run c).outcome = .success t) :
    Longest L c.rest t.target ∧ t = .spanning t.target c (.drop t.target.length c) := by
  have end_of := ht ▸ hp c
  cases end_of with
  | word h => exact ⟨h, rfl⟩

theorem lexeme_of_success {w : List Char} (hw : w <+: c.rest) {a : α}
    (h : (p.run c).outcome = .success (.spanning a c (.drop w.length c))) :
    (p.lexeme.run c).outcome = .success (.spanning w c (.drop w.length c)) := by
  refine outcome_map_eq_success.2 ⟨_, h, ?_⟩
  have slice := (Cursor.reads_of_isPrefix hw).sliceTo
  simp only [Parse.spanning, slice]

theorem rest_of_lexeme {t : Parse (List Char)} (h : (p.lexeme.run c).outcome = .success t) :
    ∃ a, (p.run c).outcome = .success ⟨a, t.range, t.rest⟩ := by
  obtain ⟨u, hu, rfl⟩ := outcome_map_eq_success.1 h
  exact ⟨u.target, hu⟩

theorem lexeme_eq_failure {f : Failure} :
    (p.lexeme.run c).outcome = .failure f ↔ (p.run c).outcome = .failure f := outcome_map_eq_failure

theorem andThen_failure_left {g : α → β → Range → γ} {f : Failure}
    (hf : (p.run c).outcome = .failure f) : ((andThen g p q).run c).outcome = .failure f :=
  outcome_bind_of_failure hf _

theorem andThen_failure_right {g : α → β → Range → γ} {t : Parse α}
    (ht : (p.run c).outcome = .success t) {f : Failure} (hf : (q.run t.rest).outcome = .failure f) :
    ((andThen g p q).run c).outcome = .failure f := by
  simp only [andThen, Reply.bind, handle_of_success ht]
  exact outcome_map_eq_failure.2 hf

/-- A lexer and then another read a word of each, one after the other. -/
theorem Lexes.andThen {g : α → β → Range → γ} (hp : p.lexeme.Lexes L) (hq : q.lexeme.Lexes M)
    (h : Parts L M) : (andThen g p q).lexeme.Lexes (L * M) := by
  intro c
  have first := hp c
  generalize ho : (p.lexeme.run c).outcome = o at first
  cases first with
  | @word w hw =>
    obtain ⟨a, ha⟩ := rest_of_lexeme ho
    have reads := Cursor.reads_of_isPrefix hw.isPrefix
    have whole : Longest L (w ++ (Cursor.drop w.length c).rest) w := reads.rest ▸ hw
    have second := hq (.drop w.length c)
    generalize ho' : (q.lexeme.run (.drop w.length c)).outcome = o' at second
    cases second with
    | @word m hm =>
      -- both read, and their words together are the longest
      obtain ⟨b, hb⟩ := rest_of_lexeme ho'
      have both := andThen_success (g := g) ha hb
      have longest := h.longest whole hm
      rw [← reads.rest] at longest
      simp only [Parse.spanning, Cursor.drop_drop, ← List.length_append] at both
      rw [lexeme_of_success longest.isPrefix both]
      exact .word longest
    | @stuck m d none hm =>
      -- the first word is kept, as there is no shorter one after which the second would begin
      have noWord := h.noWord_right whole none
      have furthest := h.furthest_right whole hm
      rw [← reads.rest] at noWord furthest
      rw [lexeme_eq_failure.2 (andThen_failure_right ha (lexeme_eq_failure.1 ho')),
        Cursor.drop_drop, ← List.length_append]
      exact .stuck noWord furthest
  | stuck none hw =>
    rw [lexeme_eq_failure.2 (andThen_failure_left (lexeme_eq_failure.1 ho))]
    exact .stuck (Parts.noWord_left none) (h.furthest_left none hw)

section Character

variable {x : Char} {xs : List Char} {P : Char → Prop}

theorem char_of_test (h : c.rest = x :: xs) (hx : k.test x = true) :
    (char k : Parser ε Char).run c = .success (.spanning x c (.drop 1 c)) := by
  obtain ⟨source, rest, offset, location⟩ := c
  cases h
  simp [char, Cursor.advance, Cursor.drop, hx]

theorem char_of_not_test (h : ∀ x xs, c.rest = x :: xs → k.test x = false) :
    (char k : Parser ε Char).run c = .failure (.expecting c k.expected) := by
  obtain ⟨source, rest, offset, location⟩ := c
  cases rest with
  | nil => rfl
  | cons x xs => simp [char, Cursor.advance, h x xs rfl]

/-- Characters of a class are read until one is not of it. -/
theorem repeatFrom_char (k : CharClass) {bound : List Char} (hb : c.rest.length < bound.length) :
    repeatFrom (char k : Parser ε Char) bound c =
      .success (c.rest.takeWhile k.test, .drop (c.rest.takeWhile k.test).length c) := by
  -- the bound is longer than what is left of the text, so it does not run out
  induction bound generalizing c with
  | nil => exact nomatch hb
  | cons y bound ih =>
    rw [repeatFrom]
    cases hr : c.rest with
    | nil =>
      rw [char_of_not_test (by simp [hr]), handle_failure_recoverable rfl]
      rfl
    | cons x xs =>
      cases hx : k.test x with
      | true =>
        have reads : c.Reads [x] (.drop 1 c) := Cursor.reads_of_isPrefix ⟨xs, hr.symm⟩
        have passes : c.Passes (.drop 1 c) := ⟨x, [], reads⟩
        have rest : (Cursor.drop 1 c).rest = xs := List.cons.inj (reads.rest.symm.trans hr) |>.2
        have later := ih (c := .drop 1 c) (by
          have shorter := passes.length_lt
          rw [List.length_cons] at hb
          omega)
        have moved : ((Parse.spanning x c (.drop 1 c)).rest == c) = false := passes.beq
        rw [char_of_test hr hx, handle_success, if_neg (ne_true_of_eq_false moved)]
        change Reply.map _ (repeatFrom _ bound (.drop 1 c)) = _
        rw [later, rest, map_success, Cursor.drop_drop, List.takeWhile_cons_of_pos hx,
          List.length_cons, Nat.add_comm]
        rfl
      | false =>
        rw [char_of_not_test (by simp [hr, hx]), handle_failure_recoverable rfl,
          List.takeWhile_cons_of_neg (ne_true_of_eq_false hx)]
        rfl

theorem many1_char (h : c.rest = x :: xs) (hx : k.test x = true) :
    (char k : Parser ε Char).many1.run c = .success (.spanning (c.rest.takeWhile k.test) c
      (.drop (c.rest.takeWhile k.test).length c)) := by
  have reads : c.Reads [x] (.drop 1 c) := Cursor.reads_of_isPrefix ⟨xs, h.symm⟩
  have rest : (Cursor.drop 1 c).rest = xs := List.cons.inj (reads.rest.symm.trans h) |>.2
  simp only [many1, char_of_test h hx, success_bind]
  simp only [Parse.spanning, repeated]
  rw [repeatFrom_char k (Nat.lt_succ_self _), map_success, Cursor.drop_drop, rest, h,
    List.takeWhile_cons_of_pos hx, List.length_cons, Nat.add_comm]

/-- Where no character of the class comes next, no word comes that begins with one. -/
theorem stuck_of_not_test (nil : [] ∉ L) (first : ∀ x z, x :: z ∈ L → k.test x = true)
    (h : ∀ x xs, c.rest = x :: xs → k.test x = false) (d : String) :
    Lexed L c (.failure (.expecting c d)) := by
  have none : ∀ x xs z, c.rest = x :: xs → x :: z ∉ L := fun x xs z hr hz =>
    nomatch (h x xs hr).symm.trans (first x z hz)
  exact .stuck (noWord_of nil none) (furthest_nil none)

/-- Whether a character of the class comes next. -/
theorem test_or_not (k : CharClass) (c : Cursor) :
    (∃ x xs, c.rest = x :: xs ∧ k.test x = true) ∨ ∀ x xs, c.rest = x :: xs → k.test x = false := by
  cases hr : c.rest with
  | nil => exact .inr nofun
  | cons x xs =>
    cases hx : k.test x with
    | true => exact .inl ⟨x, xs, rfl, hx⟩
    | false =>
      refine .inr fun y ys eq => ?_
      rwa [← (List.cons.inj eq).1]

theorem run1_eq_many1 (k : CharClass) : (run1 k : Parser ε _) = (char k).many1.lexeme :=
  lexeme_map ..

theorem lexes_run1 (hk : ∀ x, k.test x = true ↔ P x) :
    (run1 k : Parser ε (List Char)).Lexes (oneOrMore P) := by
  obtain rfl : (fun x => k.test x = true) = P := funext fun x => propext (hk x)
  intro c
  rw [run1_eq_many1]
  obtain ⟨x, xs, hr, hx⟩ | h := test_or_not k c
  · have longest : Longest (oneOrMore fun x => k.test x = true) c.rest (c.rest.takeWhile k.test) :=
      longest_oneOrMore (by simp [hr, hx])
    have read := congrArg outcome (many1_char (ε := ε) hr hx)
    rw [lexeme_of_success longest.isPrefix read]
    exact .word longest
  · have failed := congrArg outcome (char_of_not_test (ε := ε) h)
    rw [lexeme_eq_failure.2 (outcome_bind_of_failure failed _)]
    exact stuck_of_not_test (fun h => h.1 rfl) (fun x z hz => hz.2 x List.mem_cons_self) h _

theorem lexes_char (hk : ∀ x, k.test x = true ↔ P x) :
    (char k : Parser ε Char).lexeme.Lexes (exactlyOne P) := by
  obtain rfl : (fun x => k.test x = true) = P := funext fun x => propext (hk x)
  intro c
  obtain ⟨x, xs, hr, hx⟩ | h := test_or_not k c
  · have longest : Longest (exactlyOne fun x => k.test x = true) c.rest [x] :=
      hr ▸ longest_singleton (fun _ => length_of_exactlyOne) ⟨x, hx, rfl⟩
    have read := congrArg outcome (char_of_test (ε := ε) hr hx)
    rw [lexeme_of_success (w := [x]) longest.isPrefix read]
    exact .word longest
  · have failed := congrArg outcome (char_of_not_test (ε := ε) h)
    rw [lexeme_eq_failure.2 failed]
    exact stuck_of_not_test nil_notMem_exactlyOne (fun _ _ => of_cons_mem_exactlyOne) h _

theorem lexes_optional_char (hk : ∀ x, k.test x = true ↔ P x) :
    (char k : Parser ε Char).optional.lexeme.Lexes (1 + exactlyOne P) := by
  obtain rfl : (fun x => k.test x = true) = P := funext fun x => propext (hk x)
  intro c
  obtain ⟨x, xs, hr, hx⟩ | h := test_or_not k c
  · have longest : Longest (1 + exactlyOne fun x => k.test x = true) c.rest [x] :=
      hr ▸ longest_singleton (fun _ => length_of_optional) (.inr ⟨x, hx, rfl⟩)
    have read : ((char k : Parser ε Char).optional.run c).outcome =
        .success (.spanning (some x) c (.drop 1 c)) := by
      simp only [optional, char_of_test hr hx]
      rfl
    rw [lexeme_of_success (w := [x]) longest.isPrefix read]
    exact .word longest
  · have longest : Longest (1 + exactlyOne fun x => k.test x = true) c.rest [] := by
      refine longest_nil (.inl rfl) ?_
      rintro x xs z hr (eq | hz)
      · cases eq
      · exact Bool.false_ne_true ((h x xs hr).symm.trans (of_cons_mem_exactlyOne hz))
    have read : ((char k : Parser ε Char).optional.run c).outcome =
        .success (.spanning none c (.drop 0 c)) := by
      simp only [optional, char_of_not_test h]
      rfl
    rw [lexeme_of_success (w := []) longest.isPrefix read]
    exact .word longest

end Character

theorem lexeme_lexeme (p : Parser ε α) : p.lexeme.lexeme = p.lexeme := by
  ext c
  simp only [lexeme, Reply.map_map]

end Parser

/-- Digits, at least one. -/
def digits : Language Char := oneOrMore fun x => '0' ≤ x ∧ x ≤ '9'

/-- A sign, or nothing. -/
def optionalSign : Language Char := 1 + exactlyOne fun x => x = '+' ∨ x = '-'

def point : Language Char := exactlyOne fun x => x = '.'

/-- Digits, a point and digits. -/
def decimals : Language Char := digits * (point * digits)

section Numbers

variable {L : Language Char} {m : List Char}

theorem exists_mem_digits : ∃ m, m ∈ digits := ⟨['0'], by simp, by simp⟩

theorem exists_mem_point_digits : ∃ m, m ∈ point * digits :=
  ⟨['.', '0'], Language.mem_mul.2 ⟨['.'], ⟨'.', rfl, rfl⟩, ['0'], ⟨by simp, by simp⟩, rfl⟩⟩

theorem exists_mem_decimals : ∃ m, m ∈ decimals := by
  obtain ⟨m, hm⟩ := exists_mem_digits
  obtain ⟨m', hm'⟩ := exists_mem_point_digits
  exact ⟨m ++ m', Language.mem_mul.2 ⟨m, hm, m', hm', rfl⟩⟩

/-- All words begin with a digit. -/
def BeginWithDigit (L : Language Char) : Prop :=
  ∀ m, m ∈ L → ∃ y ys, m = y :: ys ∧ '0' ≤ y ∧ y ≤ '9'

theorem digits_beginWithDigit : BeginWithDigit digits := by
  rintro m ⟨ne, all⟩
  obtain ⟨y, ys, rfl⟩ := List.exists_cons_of_ne_nil ne
  exact ⟨y, ys, rfl, all y List.mem_cons_self⟩

theorem decimals_beginWithDigit : BeginWithDigit decimals := by
  intro m hm
  obtain ⟨a, ha, b, -, rfl⟩ := Language.mem_mul.1 hm
  obtain ⟨y, ys, rfl, hy⟩ := digits_beginWithDigit a ha
  exact ⟨y, ys ++ b, rfl, hy⟩

theorem parts_optionalSign (inhabited : ∃ m, m ∈ L) (h : BeginWithDigit L) :
    Parts optionalSign L := by
  refine parts_of_length (fun _ => length_of_optional) inhabited fun x m _ hx hm => ?_
  obtain ⟨y, ys, rfl, first, last⟩ := h m hm
  refine ⟨y, ys, rfl, ?_⟩
  rintro rfl
  obtain eq | sign := hx
  · cases eq
  · obtain rfl | rfl := of_cons_mem_exactlyOne sign
    · revert first
      decide
    · revert first
      decide

theorem parts_digits_point : Parts digits (point * digits) := by
  refine parts_oneOrMore exists_mem_point_digits fun m hm => ?_
  obtain ⟨_, ⟨y, rfl, rfl⟩, b, -, rfl⟩ := Language.mem_mul.1 hm
  exact ⟨'.', b, rfl, by decide⟩

theorem parts_point_digits : Parts point digits :=
  parts_of_length (fun _ => length_of_exactlyOne) exists_mem_digits
    fun _ _ nil => absurd nil nil_notMem_exactlyOne

end Numbers

namespace Parser

variable {ε : Type}

theorem lexes_digits : (unsignedInteger : Parser ε _).Lexes digits :=
  lexes_run1 fun x => by simp [CharClass.digit, CharClass.inRange]

theorem lexes_skipped_digits : (skipMany1 (char .digit) : Parser ε _).lexeme.Lexes digits :=
  lexes_digits

theorem lexes_optionalSign : (char .sign : Parser ε _).optional.lexeme.Lexes optionalSign :=
  lexes_optional_char fun x => by simp [CharClass.sign, CharClass.oneOf]

theorem lexes_signedInteger : (signedInteger : Parser ε _).Lexes (optionalSign * digits) :=
  lexes_optionalSign.andThen lexes_skipped_digits
    (parts_optionalSign exists_mem_digits digits_beginWithDigit)

theorem lexes_decimals : (unsignedDecimal : Parser ε _).Lexes decimals := by
  have point : (char (.single '.') : Parser ε Char).lexeme.Lexes point :=
    lexes_char fun x => by simp [CharClass.single]
  exact lexes_skipped_digits.andThen (point.andThen lexes_skipped_digits parts_point_digits)
    parts_digits_point

/-- The lexers of numbers, blanks and other texts read the longest word of their language that the
text begins with. If there is none, they fail where the text ceases to be a beginning of one. -/
theorem lexers_read_longest_words :
    (unsignedInteger : Parser ε (List Char)).Lexes digits ∧
    (signedInteger : Parser ε (List Char)).Lexes (optionalSign * digits) ∧
    (unsignedDecimal : Parser ε (List Char)).Lexes decimals ∧
    (signedDecimal : Parser ε (List Char)).Lexes (optionalSign * decimals) ∧
    (whitespaces : Parser ε (List Char)).Lexes (oneOrMore fun x => x = ' ' ∨ x = '\t') ∧
    (newlines : Parser ε (List Char)).Lexes (oneOrMore fun x => x = '\n' ∨ x = '\r') ∧
    ∀ set, (textUntil set : Parser ε (List Char)).Lexes (oneOrMore fun x => x ∉ set) := by
  refine ⟨lexes_digits, lexes_signedInteger, lexes_decimals, ?_, ?_, ?_, fun set => ?_⟩
  · have decimal : (unsignedDecimal : Parser ε _).lexeme.Lexes decimals := by
      rw [unsignedDecimal, lexeme_lexeme]
      exact lexes_decimals
    exact lexes_optionalSign.andThen decimal
      (parts_optionalSign exists_mem_decimals decimals_beginWithDigit)
  · exact lexes_run1 fun x => by simp [CharClass.whitespace, CharClass.oneOf]
  · exact lexes_run1 fun x => by simp [CharClass.newline, CharClass.oneOf]
  · exact lexes_run1 fun x => by simp [CharClass.noneOf]

example : (signedInteger : Parser Unit _).run (.ofText ['-', 'x']) =
    .failure (.expecting (.drop 1 (.ofText ['-', 'x'])) CharClass.digit.expected) := rfl

example : (unsignedDecimal : Parser Unit _).run (.ofText ['3', '.']) =
    .failure (.expecting (.drop 2 (.ofText ['3', '.'])) CharClass.digit.expected) := rfl

end Parser

end TextParsing
