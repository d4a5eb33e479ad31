import TextParsing.CharClass
import TextParsing.Failure
import TextParsing.Pattern.Basic
import TextParsing.Value.Action

/-!
Grammars: parsers of values as data. A grammar may refer to the recursive grammars around it, which
are counted from the innermost, and to a fixed number of rules.
-/

namespace TextParsing

inductive Grammar (rules : Nat) : Nat → Type
  | succeed {k : Nat} (v : Value) : Grammar rules k
  /-- A failure at the place where the grammar is run, of which `f` says all but the place. -/
  | failHere {k : Nat} (f : Cursor → Failure) : Grammar rules k
  | char {k : Nat} (s : CharClass) : Grammar rules k
  | peek {k : Nat} (s : CharClass) : Grammar rules k
  | token {k : Nat} (cs : List Char) : Grammar rules k
  | pattern {k : Nat} (p : Pattern) : Grammar rules k
  | endOfText {k : Nat} : Grammar rules k
  | mapWithRange {k : Nat} (g : Value → Range → Value) (a : Grammar rules k) : Grammar rules k
  | filterMap {k : Nat} (g : Value → Option Value) (expected : Option String)
      (a : Grammar rules k) : Grammar rules k
  | bindWithRange {k : Nat} (a : Grammar rules k) (next : Value → Range → Grammar rules k) :
      Grammar rules k
  | andThen {k : Nat} (g : Value → Value → Range → Value) (a b : Grammar rules k) :
      Grammar rules k
  | orElse {k : Nat} (a b : Grammar rules k) : Grammar rules k
  | commit {k : Nat} (a : Grammar rules k) : Grammar rules k
  | tag {k : Nat} (d : String) (a : Grammar rules k) : Grammar rules k
  | lexeme {k : Nat} (a : Grammar rules k) : Grammar rules k
  | withDefault {k : Nat} (v : Value) (a : Grammar rules k) : Grammar rules k
  | many {k : Nat} (a : Grammar rules k) : Grammar rules k
  | many1 {k : Nat} (a : Grammar rules k) : Grammar rules k
  | times {k : Nat} (n : Nat) (a : Grammar rules k) : Grammar rules k
  | sepBy1 {k : Nat} (a sep : Grammar rules k) : Grammar rules k
  | sepBy {k : Nat} (a sep : Grammar rules k) : Grammar rules k
  | chainLeft {k : Nat} (g : Value → Value → Value → Range → Value)
      (operand operator : Grammar rules k) : Grammar rules k
  | chainRight {k : Nat} (g : Value → Value → Value → Range → Value)
      (operand operator : Grammar rules k) : Grammar rules k
  | chainSuffix {k : Nat} (g : Value → Value → Range → Value)
      (operand suffix : Grammar rules k) : Grammar rules k
  | recursive {k : Nat} (body : Grammar rules (k + 1)) : Grammar rules k
  /-- The recursive grammar around this place that `i` others are inside of. -/
  | ref {k : Nat} (i : Fin k) : Grammar rules k
  /-- A reference to a recursive grammar that no longer exists. -/
  | dangling {k : Nat} : Grammar rules k
  | rule {k : Nat} (i : Fin rules) : Grammar rules k

namespace Grammar

variable {rules k : Nat}

/-- How a grammar is shown. What is done with targets is not, nor is what is referred to. -/
@[simp] def describe {k : Nat} : Grammar rules k → String
  | succeed _ => "succeed"
  | failHere _ => "fail"
  | char s => s.shown
  | peek s => "&" ++ s.shown
  | token cs => Text.quoted cs
  | pattern p => "/" ++ String.ofList p.source ++ "/"
  | endOfText => "<end>"
  | mapWithRange _ a => a.describe
  | filterMap _ _ a => a.describe
  | bindWithRange a _ => a.describe ++ " >>= ..."
  | andThen _ a b => a.describe ++ " " ++ b.describe
  | orElse a b => "(" ++ a.describe ++ " | " ++ b.describe ++ ")"
  | commit a => a.describe ++ "!"
  | tag d _ => d
  | lexeme a => a.describe
  | withDefault _ a => a.describe ++ "?"
  | many a => a.describe ++ "*"
  | many1 a => a.describe ++ "+"
  | times n a => a.describe ++ "\x7b" ++ toString n ++ "\x7d"
  | sepBy1 a sep => a.describe ++ " (" ++ sep.describe ++ " " ++ a.describe ++ ")*"
  | sepBy a sep => "[" ++ a.describe ++ " (" ++ sep.describe ++ " " ++ a.describe ++ ")*]"
  | chainLeft _ a o => a.describe ++ " (" ++ o.describe ++ " " ++ a.describe ++ ")*"
  | chainRight _ a o => "(" ++ a.describe ++ " " ++ o.describe ++ ")* " ++ a.describe
  | chainSuffix _ a s => a.describe ++ " " ++ s.describe ++ "*"
  | recursive body => body.describe
  | ref _ => "..."
  | dangling => "..."
  | rule _ => "..."

end Grammar

end TextParsing
