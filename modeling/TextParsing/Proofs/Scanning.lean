import TextParsing.Proofs.Lines

/-!
Scanning a text from any location, as when a lexeme is read somewhere inside a text. Characters and
lines are counted on from where the scan began; columns are so only as long as no line ends, and
after that they count from the last line feed. A scan always leads forward, in an order in which any
two locations that differ can be told apart.
-/

namespace TextParsing.Location

open Text

variable {l m o : Location}

theorem eq_iff : l = m ↔ l.index = m.index ∧ l.line = m.line ∧ l.column = m.column := by
  constructor
  · rintro rfl
    exact ⟨rfl, rfl, rfl⟩
  · cases l
    cases m
    rintro ⟨rfl, rfl, rfl⟩
    rfl

theorem compare_eq_eq : compare l m = .eq ↔ l = m := by
  rw [eq_iff]
  change (compare l.index m.index).then _ = .eq ↔ _
  simp only [Ordering.then_eq_eq, Nat.compare_eq_eq]

theorem compare_eq_gt : compare l m = .gt ↔ m < l := by
  rw [lt_iff]
  change (compare l.index m.index).then _ = .gt ↔ _
  simp only [Ordering.then_eq_gt, Nat.compare_eq_gt, Nat.compare_eq_eq]
  omega

end TextParsing.Location
