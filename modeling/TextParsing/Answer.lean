import TextParsing.Parser.Basic
import TextParsing.Report

/-!
Parsing a whole text: the answer to the caller, and the notes that are made on the way.
-/

namespace TextParsing

universe u

inductive Answer (α : Type u)
  | accepted (a : α)
  | refused (r : Report)
  | unfinished

namespace Answer

variable {α : Type u}

/-- The answer after a run. Text that is left over is an error, as a failure is. -/
def ofOutcome (width : Nat) : Outcome (Parse α) → Answer α
  | .success t =>
    if t.rest.isEmpty then accepted t.target
    else refused (.ofFailure (.trailing t.rest) .trailingInput width)
  | .failure f => refused (.ofFailure f (if f.committed then .committed else .mismatch) width)
  | .unfinished => unfinished

def isAccepted : Answer α → Bool
  | accepted _ => true
  | _ => false

end Answer

inductive Level
  | trace
  | debug
deriving DecidableEq

structure Note where
  level : Level
  text : String
deriving DecidableEq

namespace Note

/-- A text is going to be parsed by what is shown as `shown`. -/
def parsing (cs : List Char) (shown : String) : Note :=
  ⟨.trace, "parsing " ++ toString (Text.byteLength cs) ++ " bytes with `" ++ shown ++ "`"⟩

def committing (l : Location) : Note := ⟨.trace, "committing failure at " ++ l.display⟩

def failed (r : Report) : Note :=
  ⟨.debug, "parse failed (" ++ r.kind.name ++ "): " ++ r.display⟩

/-- The last note, if the text was refused. -/
def ofAnswer {α : Type u} : Answer α → List Note
  | .refused r => [failed r]
  | _ => []

end Note

def defaultWidth : Nat := 80

namespace Parser

variable {ε : Type} {α : Type u}

/-- Parse the whole of a text. Of the offending line at most `width` characters are reported. -/
def parse (p : Parser ε α) (width : Nat) (cs : List Char) : Answer α :=
  .ofOutcome width (p.run (.ofText cs)).outcome

/-- The notes made while a text is parsed by `p`, which is shown as `shown` and logs the places of
committed failures. -/
def notes (p : Parser Location α) (shown : String) (width : Nat) (cs : List Char) : List Note :=
  let reply := p.run (.ofText cs)
  .parsing cs shown :: reply.log.map .committing ++
    Note.ofAnswer (.ofOutcome width reply.outcome)

end Parser

end TextParsing
