import TextParsing.Proofs.Factoring
import TextParsing.Proofs.Matching

/-!
Alternatives of a pattern. A pattern that is put together from others with bars has all their
alternatives, in order, and tries them as the patterns are tried one after the other.
-/

namespace TextParsing

open TextParsing.Parser

namespace Pattern

/-- The patterns with bars between them. -/
def joined (ps : List Pattern) : List Char := ['|'].intercalate (ps.map source)

variable {p q : Pattern} {ps : List Pattern} {rs : List Regex}

variable {ε : Type} {c : Cursor}

end Pattern

end TextParsing
