import TextParsing.Parser.Lexer
import TextParsing.Pattern.Basic

/-!
Texts that match a pattern.
-/

namespace TextParsing.Parser

open Text

variable {ε : Type}

/-- The text that the pattern matches in what is left; all up to its end is read. -/
@[inline] def pattern (p : Pattern) : Parser ε (List Char) :=
  ⟨fun c =>
    match p.search c.rest with
    | some (skipped, length) =>
      let read := c.rest.take (skipped + length)
      .success (.spanning (read.drop skipped) c (c.consume (byteLength read)))
    | none => .failure (.expecting c ("pattern \"" ++ String.ofList p.source ++ "\""))⟩

end TextParsing.Parser
