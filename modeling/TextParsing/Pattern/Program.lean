import TextParsing.Pattern.Regex

/-!
Programs that search for an expression. An instruction names the addresses at which the search goes
on; the instructions of an expression stand together and are entered at the first of them.
-/

namespace TextParsing.Pattern

inductive Instruction
  | accept
  | read (s : CharSet) (next : Nat)
  | check (a : Assertion) (next : Nat)
  | jump (next : Nat)
  /-- Go on at both addresses, the first preferred. -/
  | fork (first second : Nat)
deriving DecidableEq

/-- Instructions, and whether they accept nothing but what begins at the start of a text. The search
is accepted at address zero and begins at address one. -/
structure Program where
  code : Array Instruction
  atStart : Bool

namespace Program

def entry : Nat := 1

/-- Go on with a body or after it, the body preferred if `greedy`. -/
def choice (greedy : Bool) (body next : Nat) : Instruction :=
  if greedy then .fork body next else .fork next body

/-- Add the instructions of an expression, after which the search goes on at `next`. -/
@[simp] def add : Regex → Nat → Array Instruction → Array Instruction
  | .empty, next, code => code.push (.jump next)
  | .set s, next, code => code.push (.read s next)
  | .assertion a, next, code => code.push (.check a next)
  | .seq q r, next, code => add r next (add q (code.size + q.size) code)
  | .alt q r, next, code =>
    let code := code.push (.fork (code.size + 1) (code.size + 1 + q.size))
    add r next (add q next code)
  | .opt greedy r, next, code => add r next (code.push (choice greedy (code.size + 1) next))
  | .star greedy r, next, code =>
    add r code.size (code.push (choice greedy (code.size + 1) next))
  | .plus greedy r, next, code =>
    (add r (code.size + r.size) code).push (choice greedy code.size next)
  | .part _ r, next, code => add r next code

def ofRegex (r : Regex) : Program := ⟨add r 0 #[.accept], r.atStart⟩

end Program

end TextParsing.Pattern
