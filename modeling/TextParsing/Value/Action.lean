import TextParsing.Value

/-!
The functions that a grammar applies to what its parsers produce.
-/

namespace TextParsing.Value

def toText (v : Value) : Value := text v.flat

def toLength (v : Value) : Value := int v.length

def succ : Value → Value
  | int i => int (i + 1)
  | v => v

def reverse : Value → Value
  | list vs => list vs.reverse
  | pair v w => pair w v
  | v => v

def nodeOf (tag : List Char) (v : Value) : Value := node tag [v] none

def unwrap? : Value → Option Value
  | absent => none
  | present v => some v
  | v => some v

/-- The integer that the text of `v` stands for, in a word with a sign. -/
def signed? (bits : Nat) (v : Value) : Option Value := (Text.toSigned? bits v.flat).map int

/-- The integer that the text of `v` stands for, in a word without sign. -/
def unsigned? (bits : Nat) (v : Value) : Option Value :=
  (Text.toUnsigned? bits v.flat).map fun n => int n

def ofRange (r : Range) : Value := text r.display.toList

def rangeNote : Option Range → List Char
  | none => []
  | some r => '@' :: r.display.toList

/-- How two operands and an operator between them become one value. The ranged combinators pass the
range of the whole. -/
abbrev Binary := Value → Value → Value → Option Range → Value

/-- How an operand and an operator on it become one value. -/
abbrev Unary := Value → Value → Option Range → Value

namespace Binary

def tree : Binary := fun o v w r => node o.flat [v, w] r

def bracketed : Binary := fun o v w r =>
  text ('(' :: v.flat ++ o.flat ++ w.flat ++ ')' :: rangeNote r)

def subtract : Binary
  | _, int i, int j, _ => int (i - j)
  | o, v, w, r => tree o v w r

end Binary

namespace Unary

def tree : Unary := fun o v r => node o.flat [v] r

def bracketed : Unary := fun o v r => text (o.flat ++ '[' :: v.flat ++ ']' :: rangeNote r)

def negate : Unary
  | o, int i, r => if o.flat = ['-'] then int (-i) else tree o (int i) r
  | o, v, r => tree o v r

end Unary

end TextParsing.Value
