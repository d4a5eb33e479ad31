import TextParsing.Grammar.Basic
import TextParsing.Parser.Basic

/-!
Runs of grammars. A run makes runs of the parts of its grammar, one after the other, so it is a
tree; which part of that tree is logged while a grammar is run is up to a recorder.
-/

namespace TextParsing

/-- A run: of which grammar, from where, how it ended, and the runs of parts it made, in order. -/
inductive Run (rules : Nat) : Type
  | node {k : Nat} (a : Grammar rules k) (c : Cursor) (o : Outcome (Parse Value))
    (parts : List (Run rules)) : Run rules

namespace Run

variable {n k : Nat}

def start : Run n → Cursor
  | node _ c _ _ => c

def outcome : Run n → Outcome (Parse Value)
  | node _ _ o _ => o

def parts : Run n → List (Run n)
  | node _ _ _ ts => ts

/-- The run of a grammar whose parser gave the reply `r` and logs the runs of its parts. -/
def ofReply (a : Grammar n k) (c : Cursor) (r : Reply (Run n) (Parse Value)) : Run n :=
  node a c r.outcome r.log

end Run

/-- What is logged while a grammar is run: when a failure is committed, and of a part that has been
run. -/
structure Recorder (n : Nat) (ε : Type) where
  committing : Location → List ε
  ended : {k : Nat} → Grammar n k → Cursor → Reply ε (Parse Value) → List ε

namespace Recorder

variable {n k : Nat} {ε : Type}

/-- The parser `p` of the part `a`, recorded. -/
@[inline] def watch (R : Recorder n ε) (a : Grammar n k) (p : Parser ε Value) : Parser ε Value :=
  ⟨fun c =>
    let r := p.run c
    ⟨R.ended a c r, r.outcome⟩⟩

def commits : Recorder n Location := ⟨fun l => [l], fun _ _ r => r.log⟩

def runs : Recorder n (Run n) := ⟨fun _ => [], fun a c r => [.ofReply a c r]⟩

@[simp] theorem watch_commits (a : Grammar n k) (p : Parser Location Value) :
    commits.watch a p = p := rfl

end Recorder

end TextParsing
