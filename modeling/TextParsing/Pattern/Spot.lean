import TextParsing.Text.Word

/-!
Places in a text that is searched, and what can be asked of them without reading on.
-/

namespace TextParsing.Pattern

/-- A place in a text: how many characters stand before it, the last of them, and what follows. -/
structure Spot where
  index : Nat
  before : Option Char
  rest : List Char
deriving DecidableEq

namespace Spot

def wordBefore (s : Spot) : Bool := s.before.any Text.isWordChar

def wordAfter (s : Spot) : Bool := s.rest.head?.any Text.isWordChar

end Spot

inductive Assertion
  | textStart
  | textEnd
  | wordEdge
  | noWordEdge
  | wordStart
  | wordEnd
deriving DecidableEq

def Assertion.holds : Assertion → Spot → Bool
  | textStart, s => s.index == 0
  | textEnd, s => s.rest.isEmpty
  | wordEdge, s => s.wordBefore != s.wordAfter
  | noWordEdge, s => s.wordBefore == s.wordAfter
  | wordStart, s => !s.wordBefore && s.wordAfter
  | wordEnd, s => s.wordBefore && !s.wordAfter

end TextParsing.Pattern
