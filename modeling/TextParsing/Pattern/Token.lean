import TextParsing.Pattern.Regex
import TextParsing.Text.Decimal

/-!
The signs that a pattern is written with. Each is read by looking at the characters from its own on.
-/

namespace TextParsing.Pattern

inductive Token
  /-- An expression by itself, and how deep what it is written with is nested. -/
  | atom (depth : Nat) (r : Regex)
  | openGroup (numbered : Bool)
  | closeGroup
  | bar
  | quantifier (min : Nat) (max : Option Nat) (greedy : Bool)
deriving DecidableEq

/-- What a character stands for after a backslash. -/
inductive Escape
  | literal (c : Char)
  | member (m : Member)
  | assertion (a : Assertion)

namespace Escape

/-- Letters and digits without a meaning are refused. Angle brackets stand for the edges of a word,
and all other signs for themselves. -/
def ofChar? : Char → Option Escape
  | 'd' => some (.member (.kind .digit false))
  | 'D' => some (.member (.kind .digit true))
  | 's' => some (.member (.kind .blank false))
  | 'S' => some (.member (.kind .blank true))
  | 'w' => some (.member (.kind .word false))
  | 'W' => some (.member (.kind .word true))
  | 'n' => some (.literal '\n')
  | 't' => some (.literal '\t')
  | 'r' => some (.literal '\r')
  | 'a' => some (.literal '\x07')
  | 'f' => some (.literal '\x0c')
  | 'v' => some (.literal '\x0b')
  | 'A' => some (.assertion .textStart)
  | 'z' => some (.assertion .textEnd)
  | 'b' => some (.assertion .wordEdge)
  | 'B' => some (.assertion .noWordEdge)
  | '<' => some (.assertion .wordStart)
  | '>' => some (.assertion .wordEnd)
  | c => if c.toNat < 128 && !c.isAlphanum then some (.literal c) else none

def toRegex : Escape → Regex
  | literal c => .set (.ofMember (.single c))
  | member m => .set (.ofMember m)
  | assertion a => .assertion a

def toMember? : Escape → Option Member
  | literal c => some (.single c)
  | member m => some m
  | assertion _ => none

end Escape

namespace CharSet

/-- One character of a set, or what an escape stands for. -/
def item? : List Char → Option (Escape × List Char)
  | [] => none
  | ['\\'] => none
  | '\\' :: c :: rest => (Escape.ofChar? c).map (·, rest)
  | c :: rest => some (.literal c, rest)

/-- The range from one item to another, if both are characters and in order. -/
def range? : Escape → Escape → Option Member
  | .literal first, .literal last => if first ≤ last then some (.range first last) else none
  | _, _ => none

/-- One member of a set. A dash makes a range unless a bracket or another dash follows it. -/
def member? (cs : List Char) : Option (Member × List Char) := do
  let (first, rest) ← item? cs
  match rest with
  | ['-'] => none
  | '-' :: c :: more =>
    if c == ']' || c == '-' then return (← first.toMember?, rest)
    else
      let (last, rest) ← item? (c :: more)
      return (← range? first last, rest)
  | _ => return (← first.toMember?, rest)

/-- The members up to the closing bracket, with at most one sign for each character of `bound`. Sets
inside sets and operations on sets are not part of the notation. -/
def members? : (bound : List Char) → List Char → Option (List Member × List Char)
  | [], _ => none
  | _ :: _, [] => none
  | _ :: _, ']' :: rest => some ([], rest)
  | _ :: _, '[' :: _ => none
  | _ :: _, '&' :: '&' :: _ => none
  | _ :: _, '-' :: '-' :: _ => none
  | _ :: _, '~' :: '~' :: _ => none
  | _ :: bound, cs => do
    let (m, rest) ← member? cs
    let (ms, rest) ← members? bound rest
    return (m :: ms, rest)

/-- Whether the set is one of all other characters, and where its members begin. -/
def negation : List Char → Bool × List Char
  | '^' :: rest => (true, rest)
  | cs => (false, cs)

/-- Dashes before all else, or a closing bracket there, stand for themselves. -/
def opening (cs : List Char) : List Member × List Char :=
  match (cs.takeWhile (· == '-')).map Member.single, cs.dropWhile (· == '-') with
  | [], ']' :: rest => ([Member.single ']'], rest)
  | dashes, rest => (dashes, rest)

/-- A set from after its opening bracket. -/
def read? (cs : List Char) : Option (CharSet × List Char) := do
  let (negated, cs) := negation cs
  let (first, cs) := opening cs
  let (ms, rest) ← members? cs cs
  return (⟨negated, first ++ ms⟩, rest)

/-- A set in brackets is one level deep, and several members in it are another. -/
def depth (s : CharSet) : Nat := if 1 < s.members.length then 2 else 1

end CharSet

namespace Token

/-- A number that fits in 32 bits, with blanks around it. -/
def number (cs : List Char) : Option Nat × List Char :=
  let cs := cs.dropWhile Text.isBlank
  let n := (Text.ofDigits? (cs.takeWhile Char.isDigit)).filter (· < Text.wordCount 32)
  (n, (cs.dropWhile Char.isDigit).dropWhile Text.isBlank)

/-- The bounds of a counted repetition, from after the opening brace. -/
def bounds? (cs : List Char) : Option ((Nat × Option Nat) × List Char) := do
  let (min, rest) := number cs
  let min ← min
  match rest with
  | '\x7d' :: rest => return ((min, some min), rest)
  | ',' :: '\x7d' :: rest => return ((min, none), rest)
  | ',' :: rest =>
    let (max, rest) := number rest
    let max ← max
    match rest with
    | '\x7d' :: rest => if min ≤ max then return ((min, some max), rest) else none
    | _ => none
  | _ => none

/-- A quantifier, from after its bounds. A question mark makes it lazy. -/
def quantified (min : Nat) (max : Option Nat) : List Char → Token × List Char
  | '?' :: rest => (quantifier min max false, rest)
  | rest => (quantifier min max true, rest)

/-- The token that begins with a character, and the text after it. -/
def next? (c : Char) (cs : List Char) : Option (Token × List Char) :=
  match c with
  | '(' =>
    match cs with
    | '?' :: ':' :: rest => some (openGroup false, rest)
    | '?' :: _ => none
    | rest => some (openGroup true, rest)
  | ')' => some (closeGroup, cs)
  | '|' => some (bar, cs)
  | '[' => (CharSet.read? cs).map fun (s, rest) => (atom s.depth (.set s), rest)
  | '*' => some (quantified 0 none cs)
  | '+' => some (quantified 1 none cs)
  | '?' => some (quantified 0 (some 1) cs)
  | '\x7b' => (bounds? cs).map fun ((min, max), rest) => quantified min max rest
  | '\\' =>
    match cs with
    | [] => none
    | c :: rest => (Escape.ofChar? c).map fun e => (atom 0 e.toRegex, rest)
  | '.' => some (atom 0 (.set .all), cs)
  | '^' => some (atom 0 (.assertion .textStart), cs)
  | '$' => some (atom 0 (.assertion .textEnd), cs)
  | c => some (atom 0 (.set (.ofMember (.single c))), cs)

/-- The tokens of a text, at most one for each character of `bound`. -/
def scanFrom : (bound : List Char) → List Char → Option (List Token)
  | _, [] => some []
  | [], _ :: _ => none
  | _ :: bound, c :: cs => do
    let (t, rest) ← next? c cs
    return t :: (← scanFrom bound rest)

def scan (cs : List Char) : Option (List Token) := scanFrom cs cs

end Token

end TextParsing.Pattern
