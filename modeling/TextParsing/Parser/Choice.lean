import TextParsing.Parser.Basic

/-!
Alternatives, and the two ways to change how a parser fails: to commit to it, so that no alternative
is tried, and to describe it.
-/

namespace TextParsing.Parser

universe u v

variable {ε : Type} {α : Type u} {β : Type v}

@[inline] def orElse (p q : Parser ε α) : Parser ε α :=
  ⟨fun c => (p.run c).recover fun _ => q.run c⟩

@[inline] def commit (note : Location → List ε) (p : Parser ε α) : Parser ε α :=
  ⟨fun c => (p.run c).commit note⟩

/-- Describe the failures of `p` as `d`, unless a tag inside `p` already has. -/
@[inline] def tag (d : String) (p : Parser ε α) : Parser ε α :=
  ⟨fun c => (p.run c).mapFailure fun f => f.tag d⟩

/-- Produce `a` and read nothing if `p` fails recoverably. -/
@[inline] def withDefault (a : α) (p : Parser ε α) : Parser ε α :=
  ⟨fun c => (p.run c).recover fun _ => .success (.empty a c)⟩

/-- Produce nothing and read nothing if `p` fails recoverably. -/
@[inline] def optional (p : Parser ε α) : Parser ε (Option α) :=
  ⟨fun c => (p.run c).handle (fun t => .success (t.map some)) fun _ => .success (.empty none c)⟩

@[inline] def orEmpty (p : Parser ε (List Char)) : Parser ε (List Char) := p.withDefault []

def firstOf (p : Parser ε α) : List (Parser ε α) → Parser ε α
  | [] => p
  | q :: qs => p.orElse (firstOf q qs)

theorem withDefault_eq_orElse (a : α) (p : Parser ε α) :
    p.withDefault a = p.orElse (succeed a) := rfl

theorem optional_map (g : α → β) (p : Parser ε α) :
    (p.map g).optional = p.optional.map (Option.map g) := by
  ext c
  simp only [run_map, optional, Reply.handle_map, Reply.map_handle]
  rfl

end TextParsing.Parser
