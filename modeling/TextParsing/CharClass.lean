import TextParsing.Text.Quoted

/-!
Classes of characters that a parser can ask for, each with the words for it: one text for the
message when another character is found, one for showing the parser.
-/

namespace TextParsing

structure CharClass where
  test : Char → Bool
  expected : String
  shown : String

namespace CharClass

open Text

def listed (set : List Char) : String :=
  "\x7b" ++ ", ".intercalate (set.map quotedChar) ++ "\x7d"

def single (c : Char) : CharClass := ⟨(· == c), quotedChar c, quotedChar c⟩

def oneOf (set : List Char) : CharClass where
  test := set.contains
  expected := "a character within " ++ listed set
  shown := "[" ++ String.ofList set ++ "]"

def noneOf (set : List Char) : CharClass where
  test c := !set.contains c
  expected := "any character except " ++ listed set
  shown := "[^" ++ String.ofList set ++ "]"

def except (c : Char) : CharClass where
  test d := !([c].contains d)
  expected := "any character except " ++ quotedChar c
  shown := "[^" ++ String.ofList [c] ++ "]"

def inRange (first last : Char) : CharClass where
  test c := first ≤ c && c ≤ last
  expected := "a character within range " ++ quotedChar first ++ "..=" ++ quotedChar last
  shown := "[" ++ String.ofList [first] ++ "-" ++ String.ofList [last] ++ "]"

def any : CharClass := ⟨fun _ => true, "any character", "."⟩

/-- Whatever passes `test`, under a description of one's own. -/
def described (d : String) (test : Char → Bool) : CharClass := ⟨test, d, d⟩

def space : CharClass := single ' '

def tab : CharClass := single '\t'

def whitespace : CharClass := oneOf [' ', '\t']

def newline : CharClass := oneOf ['\n', '\r']

def upperLetter : CharClass := inRange 'A' 'Z'

def lowerLetter : CharClass := inRange 'a' 'z'

def digit : CharClass := inRange '0' '9'

def sign : CharClass := oneOf ['+', '-']

theorem digit_test (c : Char) : digit.test c = c.isDigit := rfl

end CharClass

end TextParsing
