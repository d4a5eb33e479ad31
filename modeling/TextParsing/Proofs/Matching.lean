import TextParsing.Parser.Pattern
import TextParsing.Proofs.Anchoring
import TextParsing.Proofs.Extent

/-!
What a pattern reads. All up to the end of a match is read and only the match is the target, so the
two are the same exactly if matches begin where they are tried. Whether they do is not settled by
the group that a pattern is put into: a pattern may close that group itself and open another.
-/

namespace TextParsing

open Text TextParsing.Parser

namespace Pattern

/-- Matches begin where they are tried. -/
def Anchored (p : Pattern) : Prop := ∀ cs, ∀ m ∈ p.search cs, m.1 = 0

/-- The match begins at `c`, and the target is all that is read from there. -/
structure Exact (p : Pattern) (c : Cursor) (t : Parse (List Char)) : Prop where
  start : ∀ m ∈ p.search c.rest, m.1 = 0
  slice : t.target = c.sliceTo t.rest
  reads : c.Reads t.target t.rest

/-- The parse of a match in what is left at `c`. -/
def parseOf (c : Cursor) (m : Nat × Nat) : Parse (List Char) :=
  let read := c.rest.take (m.1 + m.2)
  .spanning (read.drop m.1) c (c.consume (byteLength read))

def refusal (p : Pattern) (c : Cursor) : Failure :=
  .expecting c ("pattern \"" ++ String.ofList p.source ++ "\"")

theorem reads_parseOf (c : Cursor) (m : Nat × Nat) :
    c.Reads (c.rest.take (m.1 + m.2)) (parseOf c m).rest :=
  Cursor.reads_consume (List.take_append_drop (m.1 + m.2) c.rest).symm

variable {ε : Type} {p : Pattern} {c : Cursor} {t : Parse (List Char)} {f : Failure}

theorem outcome_eq (p : Pattern) (c : Cursor) : ((pattern p : Parser ε _).run c).outcome =
    match p.search c.rest with
    | some m => .success (parseOf c m)
    | none => .failure (p.refusal c) := by
  cases h : p.search c.rest <;> simp only [pattern, h] <;> rfl

theorem outcome_eq_success : ((pattern p : Parser ε _).run c).outcome = .success t ↔
    ∃ m ∈ p.search c.rest, parseOf c m = t := by
  rw [outcome_eq]
  cases p.search c.rest <;> simp

theorem Anchored.exact (h : p.Anchored)
    (ht : ((pattern p : Parser ε _).run c).outcome = .success t) : p.Exact c t := by
  obtain ⟨m, hm, rfl⟩ := outcome_eq_success.1 ht
  have start := h c.rest m hm
  have reads : c.Reads (parseOf c m).target (parseOf c m).rest := by
    have read := reads_parseOf c m
    rwa [← List.drop_zero (l := c.rest.take (m.1 + m.2)), ← start] at read
  exact ⟨h c.rest, reads.sliceTo.symm, reads⟩

end Pattern

end TextParsing
