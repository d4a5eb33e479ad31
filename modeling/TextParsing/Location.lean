/-!
Positions in a source text. Lines and columns count from one; the index counts characters from the
start of the text.
-/

namespace TextParsing

structure Location where
  line : Nat
  column : Nat
  index : Nat
deriving DecidableEq

namespace Location

def start : Location := ⟨1, 1, 0⟩

def past (l : Location) (c : Char) : Location :=
  if c = '\n' then ⟨l.line + 1, 1, l.index + 1⟩ else ⟨l.line, l.column + 1, l.index + 1⟩

def scan (l : Location) (cs : List Char) : Location := cs.foldl past l

@[simp] theorem scan_nil (l : Location) : l.scan [] = l := rfl

@[simp] theorem scan_cons (l : Location) (c : Char) (cs : List Char) :
    l.scan (c :: cs) = (l.past c).scan cs := rfl

theorem scan_append (l : Location) (cs ds : List Char) :
    l.scan (cs ++ ds) = (l.scan cs).scan ds := List.foldl_append

@[simp] theorem index_past (l : Location) (c : Char) : (l.past c).index = l.index + 1 := by
  unfold past; split <;> rfl

theorem index_scan (l : Location) (cs : List Char) : (l.scan cs).index = l.index + cs.length := by
  induction cs generalizing l with
  | nil => rfl
  | cons c cs ih => rw [scan_cons, ih, index_past, List.length_cons]; omega

/-- Positions are ordered by index. Line and column decide only between positions of equal index,
which no single text has, so that the order agrees with equality. -/
instance : Ord Location :=
  ⟨fun l m => (compare l.index m.index).then
    ((compare l.line m.line).then (compare l.column m.column))⟩

instance : LT Location := ltOfOrd

instance : LE Location := leOfOrd

instance (l m : Location) : Decidable (l < m) := inferInstanceAs (Decidable (_ = _))

instance (l m : Location) : Decidable (l ≤ m) := inferInstanceAs (Decidable (_ = _))

def display (l : Location) : String := toString l.line ++ ":" ++ toString l.column

end Location

end TextParsing
