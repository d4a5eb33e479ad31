import TextParsing.Proofs.Joining

/-!
Tokens and their characters. A token is compared as a whole and skipped by its bytes; its characters
are read one by one. Both succeed where the text begins with the token and end in the same place.
They differ in where they fail: a token where it would begin, its characters where the text stops
being the token.
-/

namespace TextParsing

section Parting

variable {v w cs rest later : List Char} {x : Char}

/-- Where a text does not begin with a word, there is a place behind which they differ. -/
theorem exists_parting (h : ¬ w <+: cs) : ∃ v x later rest,
    w = v ++ x :: later ∧ cs = v ++ rest ∧ ∀ tail, rest ≠ x :: tail := by
  induction w generalizing cs with
  | nil => exact absurd List.nil_prefix h
  | cons y w ih =>
    by_cases same : ∃ tail, cs = y :: tail
    · obtain ⟨tail, rfl⟩ := same
      obtain ⟨v, x, later, rest, rfl, rfl, ne⟩ := ih fun hw => h (List.cons_prefix_cons.2 ⟨rfl, hw⟩)
      exact ⟨y :: v, x, later, rest, rfl, rfl, ne⟩
    · exact ⟨[], y, w, cs, rfl, rfl, fun tail eq => same ⟨tail, eq⟩⟩

theorem longest_of_parting (ne : ∀ tail, rest ≠ x :: tail) :
    Longest (beginnings {v ++ x :: later}) (v ++ rest) v := by
  refine longest_append ⟨x :: later, rfl⟩ ?_
  rintro y ys z rfl ⟨z', eq⟩
  rw [List.append_assoc] at eq
  exact ne ys (congrArg (· :: ys) (List.cons.inj (List.append_cancel_left eq)).1)

end Parting

namespace Parser

open Reply

variable {ε : Type} {c : Cursor} {v w later rest : List Char} {x : Char}

/-- The characters of a text, one after the other. -/
def spelled : List Char → Parser ε Unit
  | [] => succeed ()
  | x :: xs => keepRight (char (.single x)) (spelled xs)

theorem token_of_isPrefix (h : w <+: c.rest) :
    (token w : Parser ε _).run c = .success (.spanning w c (.drop w.length c)) := by
  obtain ⟨later, hl⟩ := h
  rw [← Cursor.consume_eq_drop hl.symm]
  simp [token, ← hl]

theorem token_of_not_isPrefix (h : ¬ w <+: c.rest) : (token w : Parser ε _).run c =
    .failure (.expecting c ("token \"" ++ String.ofList w ++ "\"")) := by
  simp [token, h]

theorem token_eq_success {t : Parse (List Char)} :
    ((token w : Parser ε _).run c).outcome = .success t ↔
      w <+: c.rest ∧ t = .spanning w c (.drop w.length c) := by
  by_cases h : w <+: c.rest
  · rw [token_of_isPrefix h]
    constructor
    · rintro ⟨⟩
      exact ⟨h, rfl⟩
    · rintro ⟨-, rfl⟩
      rfl
  · rw [token_of_not_isPrefix h]
    exact iff_of_false nofun fun success => h success.1

theorem spelled_of_isPrefix (h : w <+: c.rest) :
    ((spelled w : Parser ε _).run c).outcome = .success (.spanning () c (.drop w.length c)) := by
  induction w generalizing c with
  | nil => rfl
  | cons x w ih =>
    obtain ⟨later, hl⟩ := h
    have read := char_single_eq_success (ε := ε).2 ⟨w ++ later, hl.symm, rfl⟩
    have behind : (Cursor.drop 1 c).rest = w ++ later := Cursor.rest_drop_of_cons hl.symm
    have others := ih (c := .drop 1 c) ⟨later, behind.symm⟩
    rw [Cursor.drop_length_cons]
    exact andThen_success (g := fun _ b _ => b) read others

/-- The characters fail behind all that can be read of them. -/
theorem spelled_of_parting (hc : c.rest = v ++ rest) (ne : ∀ tail, rest ≠ x :: tail) :
    ((spelled (v ++ x :: later) : Parser ε _).run c).outcome =
      .failure (.expecting (.drop v.length c) (CharClass.single x).expected) := by
  induction v generalizing c with
  | nil =>
    have none : ∀ tail, c.rest ≠ x :: tail := hc ▸ ne
    exact andThen_failure_left (g := fun _ b _ => b)
      (congrArg outcome (char_single_of_ne_cons none))
  | cons y v ih =>
    have read := char_single_eq_success (ε := ε).2 ⟨v ++ rest, hc, rfl⟩
    have others := ih (c := .drop 1 c) (Cursor.rest_drop_of_cons hc)
    rw [Cursor.drop_length_cons]
    exact andThen_failure_right (g := fun _ b _ => b) read others

/-- How a token of `w` and the characters of `w` end at `c`. Both read `w` if it stands there. If not,
the token fails there, and the characters behind the longest beginning of `w` that does. -/
inductive Spells (w : List Char) (c : Cursor) :
    Outcome (Parse (List Char)) → Outcome (Parse (List Char)) → Prop
  | word (h : w <+: c.rest) : Spells w c (.success (.spanning w c (.drop w.length c)))
      (.success (.spanning w c (.drop w.length c)))
  | stuck {v later : List Char} {x : Char} (none : ¬ w <+: c.rest)
      (common : Longest (beginnings {w}) c.rest v) (next : w = v ++ x :: later) :
    Spells w c (.failure (.expecting c ("token \"" ++ String.ofList w ++ "\"")))
      (.failure (.expecting (.drop v.length c) (CharClass.single x).expected))

theorem token_spells (w : List Char) (c : Cursor) :
    Spells w c ((token w : Parser ε _).run c).outcome
      ((spelled w : Parser ε _).lexeme.run c).outcome := by
  by_cases h : w <+: c.rest
  · rw [token_of_isPrefix h, lexeme_of_success h (spelled_of_isPrefix h)]
    exact .word h
  · obtain ⟨v, x, later, rest, rfl, hc, ne⟩ := exists_parting h
    rw [token_of_not_isPrefix h, lexeme_eq_failure.2 (spelled_of_parting hc ne)]
    exact .stuck h (hc ▸ longest_of_parting ne) rfl

theorem isPrefix_drop_iff (hv : v <+: c.rest) :
    w <+: (Cursor.drop v.length c).rest ↔ v ++ w <+: c.rest := by
  rw [(Cursor.reads_of_isPrefix hv).rest, List.prefix_append_right_inj]

/-- Two tokens in sequence read what the token of both reads. -/
theorem seq_token_eq_success {t : Parse (List Char × List Char)} :
    ((seq (token v) (token w) : Parser ε _).run c).outcome = .success t ↔
      ∃ u, ((token (v ++ w) : Parser ε _).run c).outcome = .success u ∧
        t = ⟨(v, w), u.range, u.rest⟩ := by
  simp only [seq, andThen, outcome_bind_eq_success, outcome_map_eq_success, token_eq_success]
  constructor
  · rintro ⟨_, ⟨hv, rfl⟩, _, ⟨hw, rfl⟩, rfl⟩
    refine ⟨_, ⟨(isPrefix_drop_iff hv).1 hw, rfl⟩, ?_⟩
    rw [Cursor.drop_length_append]
    rfl
  · rintro ⟨_, ⟨both, rfl⟩, rfl⟩
    have hv : v <+: c.rest := (List.prefix_append v w).trans both
    refine ⟨_, ⟨hv, rfl⟩, _, ⟨(isPrefix_drop_iff hv).2 both, rfl⟩, ?_⟩
    rw [Cursor.drop_length_append]
    rfl

/-- Tokens read what their characters read, one by one, and end in the same place. Where they do not
apply, a token fails where it was tried, and its characters behind the longest beginning of it. Two
tokens in sequence are one. -/
theorem tokens_are_spelled (c : Cursor) :
    (∀ w t, ((token w : Parser ε _).run c).outcome = .success t ↔
      ((spelled w : Parser ε _).lexeme.run c).outcome = .success t) ∧
    (∀ w, Spells w c ((token w : Parser ε _).run c).outcome
      ((spelled w : Parser ε _).lexeme.run c).outcome) ∧
    ∀ v w t, ((seq (token v) (token w) : Parser ε _).run c).outcome = .success t ↔
      ∃ u, ((token (v ++ w) : Parser ε _).run c).outcome = .success u ∧
        t = ⟨(v, w), u.range, u.rest⟩ := by
  refine ⟨fun w t => ?_, fun w => token_spells w c, fun v w t => seq_token_eq_success⟩
  have spells := token_spells (ε := ε) w c
  generalize ((token w : Parser ε _).run c).outcome = o at spells
  generalize ((spelled w : Parser ε _).lexeme.run c).outcome = o' at spells
  cases spells with
  | word => rfl
  | stuck => exact iff_of_false nofun nofun

example : ((token ['ä', '\n'] : Parser Unit _).run (.ofText ['ä', '\n', 'b'])).outcome =
    .success ⟨['ä', '\n'], ⟨⟨1, 1, 0⟩, ⟨2, 1, 2⟩⟩, ⟨['ä', '\n', 'b'], ['b'], 3, ⟨2, 1, 2⟩⟩⟩ := rfl

end Parser

end TextParsing
