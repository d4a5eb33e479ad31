import TextParsing.Grammar.Basic

/-!
Grammars that are made of others.
-/

namespace TextParsing.Grammar

variable {rules k : Nat}

def map (g : Value → Value) (a : Grammar rules k) : Grammar rules k := a.mapWithRange fun v _ => g v

def filter (test : Value → Bool) (a : Grammar rules k) : Grammar rules k :=
  a.filterMap (fun v => if test v then some v else none) none

def bind (a : Grammar rules k) (next : Value → Grammar rules k) : Grammar rules k :=
  a.bindWithRange fun v _ => next v

/-- Fail in one and the same way everywhere. -/
def failWith (expected : Option String) (tagged committed : Bool) : Grammar rules k :=
  failHere fun c => ⟨c, expected, tagged, committed⟩

def fail (d : String) : Grammar rules k := failWith (some d) false false

def skip (a : Grammar rules k) : Grammar rules k := a.map fun _ => .unit

def toText (a : Grammar rules k) : Grammar rules k := a.map .toText

def seq (a b : Grammar rules k) : Grammar rules k := andThen (fun v w _ => .pair v w) a b

def keepLeft (a b : Grammar rules k) : Grammar rules k := andThen (fun v _ _ => v) a b

def keepRight (a b : Grammar rules k) : Grammar rules k := andThen (fun _ w _ => w) a b

def between (left a right : Grammar rules k) : Grammar rules k := left.keepRight (a.keepLeft right)

def surrounded (a side : Grammar rules k) : Grammar rules k := between side a side

/-- A function, which `g` makes of the first target, and its argument. -/
def apply (g : Value.Unary) (f a : Grammar rules k) : Grammar rules k :=
  andThen (fun v w _ => g v w none) f a

def applyWithRange (g : Value.Unary) (f a : Grammar rules k) : Grammar rules k :=
  andThen (fun v w r => g v w (some r)) f a

def concat (a b : Grammar rules k) : Grammar rules k :=
  andThen (fun v w _ => .text (v.flat ++ w.flat)) a b

def optional (a : Grammar rules k) : Grammar rules k := (a.map .present).withDefault .absent

def orEmpty (a : Grammar rules k) : Grammar rules k := a.toText.withDefault (.text [])

def skipMany (a : Grammar rules k) : Grammar rules k := a.many.skip

def skipMany1 (a : Grammar rules k) : Grammar rules k := a.many1.skip

def concatMany (a : Grammar rules k) : Grammar rules k := a.many.toText

def concatMany1 (a : Grammar rules k) : Grammar rules k := a.many1.toText

/-- Grammars one after the other, as pairs nested to the right. -/
def seqAll (a : Grammar rules k) : List (Grammar rules k) → Grammar rules k
  | [] => a
  | b :: bs => a.seq (seqAll b bs)

def firstOf (a : Grammar rules k) : List (Grammar rules k) → Grammar rules k
  | [] => a
  | b :: bs => a.orElse (firstOf b bs)

/-- The grammar that goes with the text of a value, among `cases`. -/
def select (cases : List (List Char × Grammar rules k)) (otherwise : Grammar rules k)
    (v : Value) : Grammar rules k :=
  match cases.find? fun (cs, _) => cs == v.flat with
  | some (_, a) => a
  | none => otherwise

/-- As many of `a` as the text of a value says, and at most a thousand. A text that is no number in
64 bits says none. -/
def counted (a : Grammar rules k) (v : Value) : Grammar rules k :=
  a.times (min ((Text.toUnsigned? 64 v.flat).getD 0) 1000)

def letter : Grammar rules k := orElse (char .upperLetter) (char .lowerLetter)

def run1 (c : CharClass) : Grammar rules k := (char c).skipMany1.lexeme

def whitespaces : Grammar rules k := run1 .whitespace

def newlines : Grammar rules k := run1 .newline

def textUntil (set : List Char) : Grammar rules k := run1 (.noneOf set)

def unsignedInteger : Grammar rules k := run1 .digit

def signedInteger : Grammar rules k :=
  (seq (char .sign).optional (char .digit).skipMany1).lexeme

def unsignedDecimal : Grammar rules k :=
  (seq (char .digit).skipMany1 (seq (char (.single '.')) (char .digit).skipMany1)).lexeme

def signedDecimal : Grammar rules k := (seq (char .sign).optional unsignedDecimal).lexeme

def leftAssociative (g : Value.Binary) (a o : Grammar rules k) : Grammar rules k :=
  chainLeft (fun o v w _ => g o v w none) a o

def leftAssociativeWithRange (g : Value.Binary) (a o : Grammar rules k) : Grammar rules k :=
  chainLeft (fun o v w r => g o v w (some r)) a o

def rightAssociative (g : Value.Binary) (a o : Grammar rules k) : Grammar rules k :=
  chainRight (fun o v w _ => g o v w none) a o

def rightAssociativeWithRange (g : Value.Binary) (a o : Grammar rules k) : Grammar rules k :=
  chainRight (fun o v w r => g o v w (some r)) a o

def withSuffixes (g : Value.Unary) (a s : Grammar rules k) : Grammar rules k :=
  chainSuffix (fun s v _ => g s v none) a s

def withSuffixesAndRange (g : Value.Unary) (a s : Grammar rules k) : Grammar rules k :=
  chainSuffix (fun s v r => g s v (some r)) a s

end TextParsing.Grammar
