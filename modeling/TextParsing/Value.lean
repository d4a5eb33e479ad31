import TextParsing.Range
import TextParsing.Text.Decimal

/-!
What the parsers of a grammar produce: values of one type, each of which has a text.
-/

namespace TextParsing

inductive Value
  | unit
  | bool (b : Bool)
  | int (i : Int)
  | char (c : Char)
  | text (cs : List Char)
  | list (vs : List Value)
  | pair (v w : Value)
  | absent
  | present (v : Value)
  | node (tag : List Char) (args : List Value) (range : Option Range)
  | located (range : Range) (v : Value)

namespace Value

mutual

@[simp] def flat : Value → List Char
  | unit => []
  | bool true => ['t', 'r', 'u', 'e']
  | bool false => ['f', 'a', 'l', 's', 'e']
  | int i => Text.ofInt i
  | char c => [c]
  | text cs => cs
  | list vs => flatList vs
  | pair v w => v.flat ++ w.flat
  | absent => []
  | present v => v.flat
  | node tag args _ => tag ++ '(' :: flatArgs args ++ [')']
  | located _ v => v.flat

@[simp] def flatList : List Value → List Char
  | [] => []
  | v :: vs => v.flat ++ flatList vs

@[simp] def flatArgs : List Value → List Char
  | [] => []
  | [v] => v.flat
  | v :: vs => v.flat ++ ',' :: flatArgs vs

end

/-- The number of items of a list, or of characters of any other value. -/
def length : Value → Nat
  | list vs => vs.length
  | v => v.flat.length

def ofOption : Option Value → Value
  | none => absent
  | some v => present v

theorem flatList_eq_flatten (vs : List Value) : flatList vs = (vs.map flat).flatten := by
  induction vs with
  | nil => rfl
  | cons v vs ih => simp [flatList, ih]

end Value

end TextParsing
