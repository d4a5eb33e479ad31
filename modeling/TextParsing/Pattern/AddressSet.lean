/-!
Finite sets of addresses.
-/

namespace TextParsing.Pattern

/-- A set of numbers, as the places of the bits of one number. -/
structure AddressSet where
  bits : Nat
deriving DecidableEq

namespace AddressSet

def empty : AddressSet := ⟨0⟩

def contains (s : AddressSet) (a : Nat) : Bool := s.bits.testBit a

def insert (s : AddressSet) (a : Nat) : AddressSet := ⟨s.bits ||| 1 <<< a⟩

@[simp] theorem contains_empty (a : Nat) : empty.contains a = false := by
  simp [contains, empty]

@[simp] theorem contains_insert (s : AddressSet) (a b : Nat) :
    (s.insert a).contains b = (s.contains b || decide (a = b)) := by
  simp [contains, insert, Nat.one_shiftLeft, Nat.testBit_two_pow]

end AddressSet

end TextParsing.Pattern
