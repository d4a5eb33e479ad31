import TextParsing.Pattern.AddressSet
import TextParsing.Pattern.Program

/-!
The search for the first match of a program. Threads go through the text side by side, the preferred
ones first; of two threads at one address of one spot only the first goes on.
-/

namespace TextParsing.Pattern

/-- A search under way: the index at which it began, and the address that it has come to. -/
structure Thread where
  start : Nat
  address : Nat
deriving DecidableEq

/-- What the threads of a spot have come to: the addresses they have been at, the threads that have
read on, the latest first, and where the match began if one of them accepts. The threads after that
one are dropped. -/
structure Front where
  seen : AddressSet
  ahead : List Thread
  accepted : Option Nat

namespace Front

def empty : Front := ⟨.empty, [], none⟩

def visit (a : Nat) (f : Front) : Front := ⟨f.seen.insert a, f.ahead, f.accepted⟩

def push (t : Thread) (f : Front) : Front := ⟨f.seen, t :: f.ahead, f.accepted⟩

def accept (start : Nat) (f : Front) : Front := ⟨f.seen, f.ahead, some start⟩

/-- Follow a thread to the instructions that read, through at most `n` instructions. -/
def follow (p : Program) (s : Spot) (start : Nat) : Nat → Nat → Front → Front
  | 0, _, f => f
  | n + 1, a, f =>
    if f.accepted.isSome || f.seen.contains a then f
    else
      match p.code[a]? with
      | none => f.visit a
      | some .accept => (f.visit a).accept start
      | some (.read k next) =>
        if s.rest.head?.any k.test then (f.visit a).push ⟨start, next⟩ else f.visit a
      | some (.check c next) =>
        if c.holds s then follow p s start n next (f.visit a) else f.visit a
      | some (.jump next) => follow p s start n next (f.visit a)
      | some (.fork first second) =>
        follow p s start n second (follow p s start n first (f.visit a))

/-- Follow threads in order. An instruction is followed once, so no thread goes through more of them
than there are. -/
def ofThreads (p : Program) (s : Spot) (ts : List Thread) : Front :=
  ts.foldl (fun f t => follow p s t.start p.code.size t.address f) empty

end Front

namespace Program

/-- The threads of a spot: those that have come there, and while nothing is found, one that begins
there. -/
def threadsAt (p : Program) (index : Nat) (found : Option (Nat × Nat)) (ts : List Thread) :
    List Thread :=
  if found.isSome || (p.atStart && index != 0) then ts else ts ++ [⟨index, entry⟩]

/-- Search on from a spot to which threads have come. What they accept is preferred to what has been
found. -/
def searchFrom (p : Program) (index : Nat) (before : Option Char) (found : Option (Nat × Nat))
    (ts : List Thread) (cs : List Char) : Option (Nat × Nat) :=
  let f := Front.ofThreads p ⟨index, before, cs⟩ (p.threadsAt index found ts)
  let found := (f.accepted.map fun start => (start, index - start)).or found
  match cs with
  | [] => found
  | c :: rest =>
    if f.ahead.isEmpty && (found.isSome || p.atStart) then found
    else searchFrom p (index + 1) (some c) found f.ahead.reverse rest

def search (p : Program) (cs : List Char) : Option (Nat × Nat) := p.searchFrom 0 none none [] cs

end Program

end TextParsing.Pattern
