/-!
Integers in decimal notation.
-/

namespace TextParsing.Text

def ofInt : Int → List Char
  | .ofNat n => Nat.toDigits 10 n
  | .negSucc n => '-' :: Nat.toDigits 10 (n + 1)

/-- The number that a text of digits stands for, read on from `n`. -/
def digitsFrom (n : Nat) (ds : List Char) : Nat :=
  ds.foldl (fun n d => 10 * n + (d.toNat - '0'.toNat)) n

/-- A text of at least one digit and nothing else. -/
def ofDigits? (ds : List Char) : Option Nat :=
  if ds.isEmpty || !ds.all Char.isDigit then none else some (digitsFrom 0 ds)

def toInt? : List Char → Option Int
  | '-' :: ds => (ofDigits? ds).map fun n => -n
  | '+' :: ds => (ofDigits? ds).map fun n => n
  | ds => (ofDigits? ds).map fun n => n

def toNat? : List Char → Option Nat
  | '+' :: ds => ofDigits? ds
  | ds => ofDigits? ds

def wordCount (bits : Nat) : Nat := Nat.pow 2 bits

/-- Integers of a word with a sign of `bits` bits. -/
def toSigned? (bits : Nat) (cs : List Char) : Option Int :=
  (toInt? cs).filter fun i => -(wordCount (bits - 1) : Int) ≤ i && i < wordCount (bits - 1)

/-- Integers of a word without sign of `bits` bits. -/
def toUnsigned? (bits : Nat) (cs : List Char) : Option Nat :=
  (toNat? cs).filter fun n => n < wordCount bits

end TextParsing.Text
