import TextParsing.Proofs.Relocation

/-!
The search of a choice. The program of two alternatives has the threads of the first before those of
the second, and drops the second's as soon as one of the first's accepts. So it finds what the first
finds by itself, and if that finds nothing what the second finds by itself.
-/

namespace TextParsing.Pattern

open Program

namespace Front

/-- `g` has come to what `f` has for an expression of `n` signs, `k` addresses further on. -/
structure Moved (k n : Nat) (f g : Front) : Prop where
  ahead : g.ahead = f.ahead.map (·.rename (shift k))
  accepted : g.accepted = f.accepted
  inside : ∀ t ∈ f.ahead, t.address ∈ body n

/-- `g` has come to what `f` has for the first alternative, and then to what `h` has for the second,
which is dropped if `f` accepts. -/
inductive Joins (q r : Regex) (f h g : Front) : Prop
  | dropped (accepts : f.accepted.isSome = true) (first : f.Moved 1 q.size g)
  | both (accepts : f.accepted = none)
    (ahead : g.ahead =
      h.ahead.map (·.rename (shift (q.size + 1))) ++ f.ahead.map (·.rename (shift 1)))
    (accepted : g.accepted = h.accepted)
    (first : ∀ t ∈ f.ahead, t.address ∈ body q.size)
    (second : ∀ t ∈ h.ahead, t.address ∈ body r.size)

end Front

namespace Program

section Runs

variable {p : Program} {f : Front} {found : Option (Nat × Nat)} {index : Nat}

end Runs

section Moving

variable {r : Regex} {w : Program} {k n : Nat} {s : Spot} {f g base : Front}

end Moving

section Choice

variable {q r : Regex} {s : Spot} {f g h base : Front}

end Choice

end Program

end TextParsing.Pattern
