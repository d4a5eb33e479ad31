import TextParsing.Text.Printable
import TextParsing.Text.Combining

/-!
Characters and texts in quotes, as messages and descriptions show them. A character is between
single quotes and a text between double ones; inside, the quote itself and the backslash are
escaped, some controls have a letter, and whatever cannot be shown on its own is written by its
code.
-/

namespace TextParsing.Text

def escapeCode (c : Char) : List Char :=
  '\\' :: 'u' :: '\x7b' :: Nat.toDigits 16 c.toNat ++ ['\x7d']

/-- How `c` stands between two characters `quote`. -/
def escape (quote c : Char) : List Char :=
  if c = quote then ['\\', quote]
  else match c with
    | '\\' => ['\\', '\\']
    | '\x00' => ['\\', '0']
    | '\t' => ['\\', 't']
    | '\n' => ['\\', 'n']
    | '\r' => ['\\', 'r']
    | c => if isCombining c || !isPrintable c then escapeCode c else [c]

def quotedChar (c : Char) : String := String.ofList ('\'' :: escape '\'' c ++ ['\''])

def quoted (cs : List Char) : String := String.ofList ('"' :: cs.flatMap (escape '"') ++ ['"'])

end TextParsing.Text
