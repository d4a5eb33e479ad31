import TextParsing.Parser.Repetition

/-!
Operands with operators between or after them. The operators and operands are collected first and
combined afterwards, from the left or from the right; an operator whose operand does not follow is
not read.
-/

namespace TextParsing.Parser

universe u v

variable {ε : Type} {α : Type u} {ω : Type v}

/-- The operators from `c` on, each with the operand after it, at most one for each character of
`bound`. -/
def linksFrom (operand : Parser ε α) (operator : Parser ε ω) :
    (bound : List Char) → Cursor → Reply ε (List (ω × Parse α))
  | [], _ => .unfinished
  | _ :: bound, c =>
    (operator.run c).handle
      (fun o =>
        (operand.run o.rest).handle
          (fun t => (linksFrom operand operator bound t.rest).map ((o.target, t) :: ·))
          fun _ => .success [])
      fun _ => .success []

/-- The suffixes from `c` on, at most one for each character of `bound`. -/
def suffixesFrom (suffix : Parser ε ω) : (bound : List Char) → Cursor → Reply ε (List (Parse ω))
  | [], _ => .unfinished
  | _ :: bound, c =>
    (suffix.run c).handle (fun t => (suffixesFrom suffix bound t.rest).map (t :: ·))
      fun _ => .success []

def endOf (c : Cursor) (links : List (ω × Parse α)) : Cursor :=
  match links.getLast? with
  | some (_, t) => t.rest
  | none => c

/-- Combine from the left; every range begins at `start`. -/
def combineLeft (g : ω → α → α → Range → α) (start : Location) (a : α)
    (links : List (ω × Parse α)) : α :=
  links.foldl (fun a (o, t) => g o a t.target ⟨start, t.rest.location⟩) a

/-- Combine from the right; every range ends at `stop`. -/
def combineRight (g : ω → α → α → Range → α) (stop : Location) :
    Location → α → List (ω × Parse α) → α
  | _, a, [] => a
  | start, a, (o, t) :: links =>
    g o a (combineRight g stop t.range.start t.target links) ⟨start, stop⟩

@[inline] def chainLeft (g : ω → α → α → Range → α) (operand : Parser ε α)
    (operator : Parser ε ω) : Parser ε α :=
  ⟨fun c => (operand.run c).bind fun t =>
    (linksFrom operand operator t.rest.bound t.rest).map fun links =>
      .spanning (combineLeft g c.location t.target links) c (endOf t.rest links)⟩

@[inline] def chainRight (g : ω → α → α → Range → α) (operand : Parser ε α)
    (operator : Parser ε ω) : Parser ε α :=
  ⟨fun c => (operand.run c).bind fun t =>
    (linksFrom operand operator t.rest.bound t.rest).map fun links =>
      let rest := endOf t.rest links
      .spanning (combineRight g rest.location c.location t.target links) c rest⟩

@[inline] def chainSuffix (g : ω → α → Range → α) (operand : Parser ε α) (suffix : Parser ε ω) :
    Parser ε α :=
  ⟨fun c => (operand.run c).bind fun t =>
    (suffixesFrom suffix t.rest.bound t.rest).map fun suffixes =>
      .spanning
        (suffixes.foldl (fun a s => g s.target a ⟨c.location, s.rest.location⟩) t.target) c
        (match suffixes.getLast? with
          | some s => s.rest
          | none => t.rest)⟩

end TextParsing.Parser
