import TextParsing.Pattern.CharSet
import TextParsing.Pattern.Spot

/-!
Regular expressions with ordered choice. Counted repetitions are put together from optional parts
and loops.
-/

namespace TextParsing.Pattern

inductive Regex
  | empty
  | set (s : CharSet)
  | assertion (a : Assertion)
  | seq (q r : Regex)
  /-- The one or the other, the first preferred. -/
  | alt (q r : Regex)
  /-- Once or not at all, once preferred if `greedy`. -/
  | opt (greedy : Bool) (r : Regex)
  /-- Any number of times, as often as possible if `greedy` and else as rarely. The choice before
  the first time is the one after each time. -/
  | star (greedy : Bool) (r : Regex)
  /-- Once or more, as often as possible if `greedy` and else as rarely. -/
  | plus (greedy : Bool) (r : Regex)
  /-- An expression that is taken as one part. A numbered part is unlike every other part. -/
  | part (numbered : Bool) (r : Regex)
deriving DecidableEq

namespace Regex

/-- The number of signs, which is the number of instructions that a program has for it. -/
def size : Regex → Nat
  | empty | set _ | assertion _ => 1
  | seq q r => q.size + r.size
  | alt q r => q.size + r.size + 1
  | opt _ r | star _ r | plus _ r => r.size + 1
  | part _ r => r.size

/-- Whether the expression matches nowhere but at the start of a text. -/
def atStart : Regex → Bool
  | assertion a => a == .textStart
  | seq q _ => q.atStart
  | alt q r => q.atStart && r.atStart
  | plus _ r | part _ r => r.atStart
  | empty | set _ | opt .. | star .. => false

/-- Whether the expression may match without reading, assertions taken to hold. -/
def nullable : Regex → Bool
  | empty | assertion _ | opt .. | star .. => true
  | set _ => false
  | seq q r => q.nullable && r.nullable
  | alt q r => q.nullable || r.nullable
  | plus _ r | part _ r => r.nullable

/-- Whether the expression matches nothing but the empty text. -/
def readsNothing : Regex → Bool
  | empty | assertion _ => true
  | set _ => false
  | seq q r | alt q r => q.readsNothing && r.readsNothing
  | opt _ r | star _ r | plus _ r | part _ r => r.readsNothing

def andThen : Regex → Regex → Regex
  | empty, r => r
  | q, empty => q
  | q, r => seq q r

/-- Up to `n` times. Each time is tried only after the one before it. -/
def upTo (greedy : Bool) (n : Nat) (r : Regex) : Regex :=
  Nat.repeat (fun more => opt greedy (r.andThen more)) n empty

def times (n : Nat) (r more : Regex) : Regex := Nat.repeat r.andThen n more

/-- From `min` to `max` times, as often as possible if `greedy` and else as rarely. What may read
nothing can come to the choice after it where it began, so that choice is not the one before it. -/
def repeated (r : Regex) (min : Nat) (max : Option Nat) (greedy : Bool) : Regex :=
  match min, max with
  | 0, some 0 => empty
  | 1, some 1 => r
  | min, some max => part false (times min r (upTo greedy (max - min) r))
  | 0, none =>
    if r.nullable then part false (opt greedy (plus greedy r)) else star greedy r
  | min + 1, none => part false (times min r (plus greedy r))

def repetitionLimit : Nat := 300000

/-- A repetition, unless it is too large. To read nothing twice is to read nothing once. -/
def repeated? (r : Regex) (min : Nat) (max : Option Nat) (greedy : Bool) : Option Regex :=
  if r.readsNothing then some (repeated r (Nat.min min 1) (some (Nat.min (max.getD 1) 1)) greedy)
  else if r.size * max.getD min ≤ repetitionLimit then some (repeated r min max greedy)
  else none

def items : Regex → List Regex
  | empty => []
  | seq q r => q.items ++ r.items
  | r => [r]

def isCharacter : Regex → Bool
  | set s => s.isSingle
  | _ => false

/-- The items, those that spell a word together. -/
def parts (r : Regex) : List (List Regex) :=
  r.items.splitBy fun q s => q.isCharacter && s.isCharacter

def ofItems (rs : List Regex) : Regex := rs.foldr andThen empty

def ofChoices : List Regex → Regex
  | [] => empty
  | [r] => r
  | r :: rs => alt r (ofChoices rs)

def hasNumber : Regex → Bool
  | empty | set _ | assertion _ => false
  | seq q r | alt q r => q.hasNumber || r.hasNumber
  | opt _ r | star _ r | plus _ r => r.hasNumber
  | part numbered r => numbered || r.hasNumber

/-- The parts with which both lists begin. -/
def sharedParts : List (List Regex) → List (List Regex) → List (List Regex)
  | q :: qs, r :: rs => if q = r && !q.any hasNumber then q :: sharedParts qs rs else []
  | _, _ => []

/-- The parts with which all lists begin, if there are two lists and two parts in each. -/
def beginning : List (List (List Regex)) → List (List Regex)
  | first :: second :: others =>
    if (first :: second :: others).all (1 < ·.length) then
      (second :: others).foldl sharedParts first
    else []
  | _ => []

/-- The expressions as alternatives. A beginning that they share is read before the choice, so that
all alternatives follow its first way to end before any follows its second. -/
def ofBranches (rs : List Regex) : Regex :=
  match beginning (rs.map parts) with
  | [] => ofChoices rs
  | shared =>
    let others := rs.map fun r => ofItems (r.parts.drop shared.length).flatten
    ofItems (shared.flatten ++ [ofChoices others])

end Regex

end TextParsing.Pattern
