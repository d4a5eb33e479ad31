import TextParsing.Text.Blank
import TextParsing.Text.DecimalDigit
import TextParsing.Text.Word

/-!
Sets of characters as a pattern writes them.
-/

namespace TextParsing.Pattern

/-- The kinds of characters that have a letter of their own. -/
inductive Kind
  | digit
  | blank
  | word
deriving DecidableEq

def Kind.test : Kind → Char → Bool
  | digit => Text.isDecimalDigit
  | blank => Text.isBlank
  | word => Text.isWordChar

inductive Member
  | range (first last : Char)
  | kind (k : Kind) (negated : Bool)
deriving DecidableEq

def Member.test : Member → Char → Bool
  | range first last, c => first ≤ c && c ≤ last
  | kind k negated, c => k.test c != negated

def Member.single (c : Char) : Member := range c c

/-- The characters of some members, or all others. -/
structure CharSet where
  negated : Bool
  members : List Member
deriving DecidableEq

namespace CharSet

def test (s : CharSet) (c : Char) : Bool := s.members.any (·.test c) != s.negated

def ofMember (m : Member) : CharSet := ⟨false, [m]⟩

/-- Whether the set is written as one character. -/
def isSingle : CharSet → Bool
  | ⟨false, [.range first last]⟩ => first == last
  | _ => false

/-- Every character, line ends too. -/
def all : CharSet := ⟨true, []⟩

@[simp] theorem test_all (c : Char) : all.test c = true := rfl

end CharSet

end TextParsing.Pattern
