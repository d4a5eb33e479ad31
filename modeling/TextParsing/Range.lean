import TextParsing.Location

/-!
Half-open ranges of positions, `[start, stop)`.
-/

namespace TextParsing

structure Range where
  start : Location
  stop : Location
deriving DecidableEq

namespace Range

def empty (l : Location) : Range := ⟨l, l⟩

def length (r : Range) : Nat := r.stop.index - r.start.index

def isEmpty (r : Range) : Bool := r.start.index == r.stop.index

def join (r s : Range) : Range := ⟨r.start, s.stop⟩

def contains (r : Range) (l : Location) : Bool := r.start ≤ l && l < r.stop

def display (r : Range) : String := r.start.display ++ ".." ++ r.stop.display

@[simp] theorem length_empty (l : Location) : (empty l).length = 0 := Nat.sub_self _

@[simp] theorem isEmpty_empty (l : Location) : (empty l).isEmpty = true := beq_self_eq_true _

theorem join_join (r s t : Range) : (r.join s).join t = r.join (s.join t) := rfl

end Range

end TextParsing
