import TextParsing.Parser.Basic

/-!
Parsers that refer to themselves. A parser that is entered twice at one place before it has ended
there never ends, so one more entry than there are characters left is enough for every parser that
ends.
-/

namespace TextParsing.Parser

universe u

variable {ε : Type} {α : Type u}

/-- Run `body`, which may run itself again, at most `n` entries deep. -/
def unroll (body : Parser ε α → Parser ε α) : Nat → Cursor → Reply ε (Parse α)
  | 0, _ => .unfinished
  | n + 1, c => (body ⟨unroll body n⟩).run c

/-- The parser that `body` describes in terms of itself. -/
@[inline] def recursive (body : Parser ε α → Parser ε α) : Parser ε α :=
  ⟨fun c => unroll body (c.rest.length + 1) c⟩

/-- A reference to a recursive parser that no longer exists. -/
def dangling : Parser ε α :=
  failWith fun c => (Failure.expecting c "a recursive parser that is still alive").commit

end TextParsing.Parser
