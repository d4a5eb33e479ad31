import TextParsing.Proofs.Beginnings
import TextParsing.Proofs.Branching

/-!
Factoring. What the alternatives of a pattern all begin with is read before the choice between them.
If it can be read in one way only, as characters and assertions are, the choice is made as if each
alternative were tried with all that it is written with.
-/

namespace TextParsing.Pattern

open Program

namespace Regex

end Regex

namespace Program

variable {q r x : Regex} {rs xs ys : List Regex} {k : CharSet} {c : Assertion} {a : Nat}

end Program

end TextParsing.Pattern
