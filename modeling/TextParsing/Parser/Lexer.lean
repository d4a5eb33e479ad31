import TextParsing.CharClass
import TextParsing.Parser.Repetition

/-!
Parsers that read characters themselves, and the lexers made of them. They fail recoverably, at the
character that does not fit.
-/

namespace TextParsing.Parser

open Text

variable {ε : Type}

@[inline] def char (k : CharClass) : Parser ε Char :=
  ⟨fun c =>
    match c.advance with
    | some (x, rest) =>
      if k.test x then .success (.spanning x c rest) else .failure (.expecting c k.expected)
    | none => .failure (.expecting c k.expected)⟩

/-- Whether the next character is of the class; nothing is read. -/
@[inline] def peek (k : CharClass) : Parser ε Bool :=
  ⟨fun c => .success (.empty (c.peek.any k.test) c)⟩

@[inline] def token (cs : List Char) : Parser ε (List Char) :=
  ⟨fun c =>
    if cs.isPrefixOf c.rest then .success (.spanning cs c (c.consume (byteLength cs)))
    else .failure (.expecting c ("token \"" ++ String.ofList cs ++ "\""))⟩

@[inline] def endOfText : Parser ε Unit :=
  ⟨fun c => if c.isEmpty then .success (.empty () c) else .failure (.expecting c "end of input")⟩

def letter : Parser ε Char := (char .upperLetter).orElse (char .lowerLetter)

def run1 (k : CharClass) : Parser ε (List Char) := (skipMany1 (char k)).lexeme

def whitespaces : Parser ε (List Char) := run1 .whitespace

def newlines : Parser ε (List Char) := run1 .newline

/-- What stands before the next character of `set`, at least one character. -/
def textUntil (set : List Char) : Parser ε (List Char) := run1 (.noneOf set)

def unsignedInteger : Parser ε (List Char) := run1 .digit

def signedInteger : Parser ε (List Char) :=
  (seq (char .sign).optional (skipMany1 (char .digit))).lexeme

def unsignedDecimal : Parser ε (List Char) :=
  (seq (skipMany1 (char .digit)) (seq (char (.single '.')) (skipMany1 (char .digit)))).lexeme

def signedDecimal : Parser ε (List Char) :=
  (seq (char .sign).optional unsignedDecimal).lexeme

end TextParsing.Parser
