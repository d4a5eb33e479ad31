import TextParsing.Parser.Sequence
import TextParsing.Parser.Choice

/-!
Parsers run again and again. A repetition ends before the first recoverable failure, and after a
reading of nothing, which is kept. So at most one reading more than there are characters left is
made.
-/

namespace TextParsing.Parser

universe u v

variable {ε : Type} {α : Type u} {β : Type v}

/-- The targets of `p` from `c` on and the place where they end, with at most one reading for each
character of `bound`. -/
def repeatFrom (p : Parser ε α) : (bound : List Char) → Cursor → Reply ε (List α × Cursor)
  | [], _ => .unfinished
  | _ :: bound, c =>
    (p.run c).handle
      (fun t =>
        if t.rest == c then .success ([t.target], c)
        else (repeatFrom p bound t.rest).map fun (as, rest) => (t.target :: as, rest))
      fun _ => .success ([], c)

@[inline] def repeated (p : Parser ε α) (c : Cursor) : Reply ε (List α × Cursor) :=
  repeatFrom p c.bound c

@[inline] def many (p : Parser ε α) : Parser ε (List α) :=
  ⟨fun c => (repeated p c).map fun (as, rest) => .spanning as c rest⟩

@[inline] def many1 (p : Parser ε α) : Parser ε (List α) :=
  ⟨fun c => (p.run c).bind fun t => (repeated p t.rest).map fun (as, rest) =>
    .spanning (t.target :: as) c rest⟩

@[inline] def skipMany (p : Parser ε α) : Parser ε Unit := p.many.skip

@[inline] def skipMany1 (p : Parser ε α) : Parser ε Unit := p.many1.skip

/-- The targets of exactly `n` readings of `p` from `c` on, and the place where they end. -/
def timesFrom (p : Parser ε α) : Nat → Cursor → Reply ε (List α × Cursor)
  | 0, c => .success ([], c)
  | n + 1, c => (p.run c).bind fun t => (timesFrom p n t.rest).map fun (as, rest) =>
      (t.target :: as, rest)

@[inline] def times (n : Nat) (p : Parser ε α) : Parser ε (List α) :=
  ⟨fun c => (timesFrom p n c).map fun (as, rest) => .spanning as c rest⟩

/-- At least one `p`, with `sep` between each two. A separator with no `p` after it is not read. -/
@[inline] def sepBy1 (p : Parser ε α) (sep : Parser ε β) : Parser ε (List α) :=
  ⟨fun c => (p.run c).bind fun t => (repeated (keepRight sep p) t.rest).map fun (as, rest) =>
    .spanning (t.target :: as) c rest⟩

@[inline] def sepBy (p : Parser ε α) (sep : Parser ε β) : Parser ε (List α) :=
  (sepBy1 p sep).withDefault []

@[inline] def concatMany (p : Parser ε (List Char)) : Parser ε (List Char) :=
  p.many.map List.flatten

@[inline] def concatMany1 (p : Parser ε (List Char)) : Parser ε (List Char) :=
  p.many1.map List.flatten

theorem repeatFrom_map (g : α → β) (p : Parser ε α) (bound : List Char) (c : Cursor) :
    repeatFrom (p.map g) bound c =
      (repeatFrom p bound c).map fun (as, rest) => (as.map g, rest) := by
  induction bound generalizing c with
  | nil => rfl
  | cons x bound ih =>
    simp only [repeatFrom, run_map, Reply.handle_map, Reply.map_handle, ih]
    congr 1
    funext t
    by_cases h : t.rest == c
    · simp [Parse.map, h]
    · simp [Parse.map, h]

theorem many_map (g : α → β) (p : Parser ε α) : (p.map g).many = p.many.map (List.map g) := by
  ext c
  simp [run_map, many, repeated, repeatFrom_map]

theorem many1_map (g : α → β) (p : Parser ε α) : (p.map g).many1 = p.many1.map (List.map g) := by
  ext c
  simp [run_map, many1, repeated, repeatFrom_map, Parse.map, Parse.spanning]

end TextParsing.Parser
