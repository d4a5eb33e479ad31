import TextParsing.Proofs.Joining

/-!
Precedence by layers. Where a chain of operands is itself the operand of another chain, the operator
of the inner one binds tighter: the texts that are read are sums of products, and what they produce
are the trees of the products in the tree of the sum. Each layer leans to its own side, which does
not matter to what is read. An operator that no operand follows is left over.
-/

namespace TextParsing

universe u

/-- Numbers, with binary operations on them. -/
inductive Tree
  | number (ds : List Char)
  | node (x : Char) (left right : Tree)

/-- The side to which the trees of a chain lean. -/
inductive Side
  | left
  | right

namespace Row

variable {x : Char} {a b : Tree} {as : List Tree}

/-- The tree of operands that leans to the right. -/
def nestRight (x : Char) (a : Tree) : List Tree → Tree
  | [] => a
  | b :: as => .node x a (nestRight x b as)

/-- The tree of the operands with the operator `x` between each two. -/
def nested (r : Row Tree) (x : Char) : Side → Tree
  | .left => r.others.foldl (.node x) r.first
  | .right => nestRight x r.first r.others

end Row

abbrev Digits := {w : List Char // w ∈ digits}

/-- The text of a sum of products of numbers. -/
def sumText (times plus : Char) (sum : Row (Row Digits)) : List Char :=
  sum.joined plus fun product => product.joined times fun ds => ds.1

/-- The tree of a sum of products, where products lean to the side `inner` and sums to `outer`. -/
def sumTree (inner outer : Side) (times plus : Char) (sum : Row (Row Digits)) : Tree :=
  (sum.map fun product => (product.map fun ds => .number ds.1).nested times inner).nested plus outer

namespace Parser

open Reply

variable {ε : Type} {β : Type u} {p : Parser ε Tree} {written : β → List Char} {value : β → Tree}
  {stop : List Char → Prop} {x y : Char} {times plus : Char}

/-- The operator `x`, which makes a node of its operands. -/
def operator (x : Char) : Parser ε (Tree → Tree → Tree) := (char (.single x)).map .node

/-- Operands with the operator `x` between each two. -/
def chained (p : Parser ε Tree) (x : Char) : Side → Parser ε Tree
  | .left => chainLeft (fun f a b _ => f a b) p (operator x)
  | .right => chainRight (fun f a b _ => f a b) p (operator x)

/-- Numbers with the operator `times` between them, and `plus` between those. -/
def layered (inner outer : Side) (times plus : Char) : Parser ε Tree :=
  chained (chained (unsignedInteger.map .number) times inner) plus outer

theorem seq_operator (x : Char) (p : Parser ε Tree) :
    seq (operator x) p = (seq (char (.single x)) p).map fun (y, a) => (Tree.node y, a) := by
  rw [seq, operator, andThen_map_left, seq, map_andThen]

/-- A chain that has been read, folded to one side. -/
def foldTo : Side → Tree × List ((Tree → Tree → Tree) × Tree) → Tree
  | .left => foldLeft fun f a b => f a b
  | .right => foldRight fun f a b => f a b

theorem chained_eq (h : (seq (operator x) p).Consumes) (s : Side) :
    chained p x s = (links p (operator x)).map (foldTo s) := by
  cases s with
  | left => exact chainLeft_eq (fun f a b => f a b) h
  | right => exact chainRight_eq (fun f a b => f a b) h

theorem foldTo_operands (s : Side) (a : Tree) (bs : List β) :
    foldTo s (a, bs.map fun b => (Tree.node x, value b)) =
      Row.nested ⟨a, bs.map value⟩ x s := by
  cases s with
  | left => simp [foldTo, foldLeft, Row.nested, List.foldl_map]
  | right =>
    induction bs generalizing a with
    | nil => rfl
    | cons b bs ih => exact congrArg (Tree.node x a) (ih (value b))

/-- A chain of what is read back is read back as the tree of a row. -/
theorem ReadsBack.chained (h : p.ReadsBack written value stop) (front : ∀ later, stop (x :: later))
    (s : Side) : (chained p x s).ReadsBack (Row.joined x written)
      (fun r => (r.map value).nested x s) (RowStop (fun b => x :: written b) stop) := by
  have link : (seq (operator x) p).ReadsBack (fun b => x :: written b)
      (fun b => (Tree.node x, value b)) stop := by
    rw [seq_operator]
    exact (h.behind x).map fun (y, a) => (Tree.node y, a)
  have folded := (h.joined front link).map (foldTo s)
  simp only [foldTo_operands] at folded
  rw [chained_eq link.consumes]
  exact folded

section Layers

theorem digit_test_iff (y : Char) : CharClass.digit.test y = true ↔ '0' ≤ y ∧ y ≤ '9' := by
  simp [CharClass.digit, CharClass.inRange]

theorem notNext_operator (hx : x.isDigit = false) (later : List Char) :
    NotNext (fun y => '0' ≤ y ∧ y ≤ '9') (x :: later) :=
  notNext_cons (fun digit => absurd (((digit_test_iff x).2 digit).symm.trans hx) Bool.noConfusion) _

theorem number_readsBack : (unsignedInteger.map Tree.number : Parser ε Tree).ReadsBack
    (fun ds : Digits => ds.1) (fun ds => .number ds.1) (NotNext fun y => '0' ≤ y ∧ y ≤ '9') :=
  (run1_readsBack digit_test_iff).map Tree.number

/-- What may stand behind a sum: no digit, no operator with a product after it. -/
def SumStop (times plus : Char) : List Char → Prop :=
  RowStop (fun product : Row Digits => plus :: product.joined times fun ds => ds.1)
    (RowStop (fun ds : Digits => times :: ds.1) (NotNext fun y => '0' ≤ y ∧ y ≤ '9'))

theorem layered_readsBack (inner outer : Side) (ht : times.isDigit = false)
    (hp : plus.isDigit = false) (ne : times ≠ plus) :
    (layered inner outer times plus : Parser ε Tree).ReadsBack (sumText times plus)
      (sumTree inner outer times plus) (SumStop times plus) := by
  have product := number_readsBack (ε := ε).chained (notNext_operator ht) inner
  -- a product ends in front of `plus`, which is neither a digit nor `times`
  refine product.chained (fun later => ?_) outer
  exact rowStop_of_ne_cons (notNext_operator hp later) fun _ eq => ne (List.cons.inj eq).1.symm

theorem sumStop_of_length_le_one {rest : List Char} (le : rest.length ≤ 1)
    (hs : NotNext (fun y => '0' ≤ y ∧ y ≤ '9') rest) : SumStop times plus rest := by
  have number (ds : Digits) : ds.1 ≠ [] := ds.2.1
  exact rowStop_of_length_le_one (rowStop_of_length_le_one hs number le) (Row.joined_ne_nil number) le

/-- Sums of products are read as the trees of products in the tree of the sum, and nothing else is
read. The sides to which the trees lean do not matter to what is read. An operator behind a sum is
left over. -/
theorem layers_give_precedence (ht : times.isDigit = false) (hp : plus.isDigit = false)
    (ne : times ≠ plus) :
    (∀ inner outer width text v,
      (layered inner outer times plus : Parser ε Tree).parse width text = .accepted v ↔
        ∃ sum, text = sumText times plus sum ∧ v = sumTree inner outer times plus sum) ∧
    (∀ inner outer inner' outer' width text,
      ((layered inner outer times plus : Parser ε Tree).parse width text).isAccepted =
        ((layered inner' outer' times plus : Parser ε Tree).parse width text).isAccepted) ∧
    ∀ inner outer width sum, ∀ o ∈ [times, plus],
      let text := sumText times plus sum
      (layered inner outer times plus : Parser ε Tree).parse width (text ++ [o]) =
        .refused (.ofFailure (.trailing (.drop text.length (.ofText (text ++ [o]))))
          .trailingInput width) := by
  have reads (inner outer : Side) := layered_readsBack (ε := ε) inner outer ht hp ne
  have accepted (inner outer : Side) (width : Nat) (text : List Char) (v : Tree) :
      (layered inner outer times plus : Parser ε Tree).parse width text = .accepted v ↔
        ∃ sum, text = sumText times plus sum ∧ v = sumTree inner outer times plus sum :=
    (reads inner outer).parse_eq_accepted (sumStop_of_length_le_one (Nat.zero_le 1) nofun)
  refine ⟨accepted, fun inner outer inner' outer' width text => ?_, ?_⟩
  · rw [Bool.eq_iff_iff, Answer.isAccepted_iff, Answer.isAccepted_iff]
    simp only [accepted]
    constructor <;> exact fun ⟨_, sum, hs, _⟩ => ⟨_, sum, hs, rfl⟩
  · rintro inner outer width sum o ho
    refine (reads inner outer).parse_append (sumStop_of_length_le_one le_rfl ?_) (by simp) sum width
    obtain rfl | rfl := List.mem_pair.1 ho
    · exact notNext_operator ht []
    · exact notNext_operator hp []

/-- A product of two numbers and one more, with an operator too many and without it. -/
theorem layers_give_precedence_of_sum :
    let numbers : Parser Unit Tree := layered .left .right '*' '+'
    let sum (x y z : Tree) : Tree := .node '+' (.node '*' x y) z
    let text := ['1', '*', '2', '+', '3']
    '*'.isDigit = false ∧ '+'.isDigit = false ∧ '*' ≠ '+' ∧
      numbers.parse 80 text = .accepted (sum (.number ['1']) (.number ['2']) (.number ['3'])) ∧
      numbers.parse 80 (text ++ ['*']) = .refused (.ofFailure
        (.trailing (.drop 5 (.ofText (text ++ ['*'])))) .trailingInput 80) := by
  intro numbers sum text
  have ht : '*'.isDigit = false := by decide
  have hp : '+'.isDigit = false := by decide
  have ne : '*' ≠ '+' := by decide
  obtain ⟨accepted, -, dangling⟩ := layers_give_precedence (ε := Unit) ht hp ne
  have digit (x : Char) (hx : '0' ≤ x ∧ x ≤ '9') : [x] ∈ digits := ⟨by simp, by simpa using hx⟩
  let product : Row Digits := ⟨⟨['1'], digit '1' (by decide)⟩, [⟨['2'], digit '2' (by decide)⟩]⟩
  let terms : Row (Row Digits) := ⟨product, [⟨⟨['3'], digit '3' (by decide)⟩, []⟩]⟩
  refine ⟨ht, hp, ne, (accepted _ _ _ _ _).2 ⟨terms, rfl, rfl⟩, ?_⟩
  exact dangling .left .right 80 terms '*' List.mem_cons_self

end Layers

end Parser

end TextParsing
