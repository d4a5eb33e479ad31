import TextParsing.Grammar.Run
import TextParsing.Parser.Chain
import TextParsing.Parser.Lexer
import TextParsing.Parser.Pattern
import TextParsing.Parser.Recursion
import TextParsing.Answer

/-!
The parser that a grammar describes. It is put together from the parsers of the parts, given a
parser for every rule and for every recursive grammar around it. References are followed to a
limited depth; a run that ends at some depth ends in the same way at every greater one. What the
parser logs is left to a recorder, which has no influence on how a run ends.
-/

namespace TextParsing

abbrev Rules (n : Nat) := Fin n → Grammar n 0

namespace Grammar

variable {n : Nat} {ε : Type} (R : Recorder n ε)

section

variable (depth : Nat) (rules : Fin n → Parser ε Value)

/-- The parser of a grammar, given the parsers that it may refer to. Each recursive grammar in it is
entered at most `depth` deep. -/
@[simp] def toParser {k : Nat} : Grammar n k → (Fin k → Parser ε Value) → Parser ε Value
  | succeed v, _ => .succeed v
  | failHere f, _ => .failWith fun c => { f c with cursor := c }
  | char s, _ => (Parser.char s).map .char
  | peek s, _ => (Parser.peek s).map .bool
  | token cs, _ => (Parser.token cs).map .text
  | pattern p, _ => (Parser.pattern p).map .text
  | endOfText, _ => Parser.endOfText.map fun _ => .unit
  | mapWithRange g a, h => (R.watch a (a.toParser h)).mapWithRange g
  | filterMap g expected a, h => (R.watch a (a.toParser h)).filterMap g expected
  | bindWithRange a next, h =>
    (R.watch a (a.toParser h)).bindWithRange fun v r =>
      R.watch (next v r) ((next v r).toParser h)
  | andThen g a b, h => .andThen g (R.watch a (a.toParser h)) (R.watch b (b.toParser h))
  | orElse a b, h => (R.watch a (a.toParser h)).orElse (R.watch b (b.toParser h))
  | commit a, h => (R.watch a (a.toParser h)).commit R.committing
  | tag d a, h => (R.watch a (a.toParser h)).tag d
  | lexeme a, h => (R.watch a (a.toParser h)).lexeme.map .text
  | withDefault v a, h => (R.watch a (a.toParser h)).withDefault v
  | many a, h => (R.watch a (a.toParser h)).many.map .list
  | many1 a, h => (R.watch a (a.toParser h)).many1.map .list
  | times m a, h => (Parser.times m (R.watch a (a.toParser h))).map .list
  | sepBy1 a sep, h =>
    (Parser.sepBy1 (R.watch a (a.toParser h)) (R.watch sep (sep.toParser h))).map .list
  | sepBy a sep, h =>
    (Parser.sepBy (R.watch a (a.toParser h)) (R.watch sep (sep.toParser h))).map .list
  | chainLeft g a o, h => .chainLeft g (R.watch a (a.toParser h)) (R.watch o (o.toParser h))
  | chainRight g a o, h => .chainRight g (R.watch a (a.toParser h)) (R.watch o (o.toParser h))
  | chainSuffix g a s, h => .chainSuffix g (R.watch a (a.toParser h)) (R.watch s (s.toParser h))
  | recursive body, h =>
    ⟨Parser.unroll (fun self => R.watch body (body.toParser (Fin.cases self h))) depth⟩
  | ref i, h => h i
  | dangling, _ => .dangling
  | rule i, _ => rules i

end

/-- Run a rule, which may run rules again, at most `m` entries deep. -/
def runRule (rules : Rules n) (depth : Nat) : (m : Nat) → Fin n → Cursor → Reply ε (Parse Value)
  | 0, _, _ => .unfinished
  | m + 1, i, c =>
    (R.watch (rules i)
      ((rules i).toParser R depth (fun j => ⟨runRule rules depth m j⟩) Fin.elim0)).run c

/-- The parser of a grammar with its rules, in which references are followed `depth` deep, recorded
by `R`. -/
def recordedAt (rules : Rules n) (depth : Nat) (a : Grammar n 0) : Parser ε Value :=
  a.toParser R depth (fun j => ⟨runRule R rules depth depth j⟩) Fin.elim0

/-- The parser of a grammar with its rules, in which references are followed `depth` deep. -/
def parserAt (rules : Rules n) (depth : Nat) (a : Grammar n 0) : Parser Location Value :=
  a.recordedAt .commits rules depth

/-- The run of a grammar with its rules from `c`, in which references are followed `depth` deep. -/
def runAt (rules : Rules n) (depth : Nat) (a : Grammar n 0) (c : Cursor) : Run n :=
  .ofReply a c ((a.recordedAt .runs rules depth).run c)

/-- A depth that is enough for every run that ends. A rule or a recursive grammar that is entered
again before it has ended, with nothing read in between, never ends; so each is entered at most once
at each place, and there is one place more than there are characters left. -/
def sufficientDepth (n : Nat) (c : Cursor) : Nat := (n + 1) * (c.rest.length + 1)

def parser (rules : Rules n) (a : Grammar n 0) : Parser Location Value :=
  ⟨fun c => (a.parserAt rules (sufficientDepth n c)).run c⟩

def parse (rules : Rules n) (a : Grammar n 0) (width : Nat) (cs : List Char) : Answer Value :=
  (a.parser rules).parse width cs

def notes (rules : Rules n) (a : Grammar n 0) (width : Nat) (cs : List Char) : List Note :=
  (a.parser rules).notes a.describe width cs

end Grammar

end TextParsing
