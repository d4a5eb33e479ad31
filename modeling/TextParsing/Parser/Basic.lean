import TextParsing.Reply

/-!
Parsers, and the ones made by changing what a parser produces or by letting what it produced decide
what comes next.
-/

namespace TextParsing

universe u v w

/-- What was parsed, from where to where, and the place after it. -/
structure Parse (α : Type u) where
  target : α
  range : Range
  rest : Cursor

namespace Parse

variable {α : Type u} {β : Type v}

/-- A parse of all that stands between `c` and `rest`. -/
@[inline] def spanning (a : α) (c rest : Cursor) : Parse α := ⟨a, ⟨c.location, rest.location⟩, rest⟩

@[inline] def empty (a : α) (c : Cursor) : Parse α := ⟨a, .empty c.location, c⟩

@[inline] def map (g : α → β) (t : Parse α) : Parse β := ⟨g t.target, t.range, t.rest⟩

theorem spanning_self (a : α) (c : Cursor) : spanning a c c = empty a c := rfl

@[simp] theorem map_spanning (g : α → β) (a : α) (c rest : Cursor) :
    (spanning a c rest).map g = spanning (g a) c rest := rfl

@[simp] theorem map_empty (g : α → β) (a : α) (c : Cursor) :
    (empty a c).map g = empty (g a) c := rfl

end Parse

@[ext] structure Parser (ε : Type) (α : Type u) where
  run : Cursor → Reply ε (Parse α)

namespace Parser

variable {ε : Type} {α : Type u} {β : Type v} {γ : Type w}

@[inline] def succeed (a : α) : Parser ε α := ⟨fun c => .success (.empty a c)⟩

@[inline] def failWith (f : Cursor → Failure) : Parser ε α := ⟨fun c => .failure (f c)⟩

@[inline] def fail (d : String) : Parser ε α := failWith fun c => .expecting c d

@[inline] def map (g : α → β) (p : Parser ε α) : Parser ε β :=
  ⟨fun c => (p.run c).map (Parse.map g)⟩

@[inline] def mapWithRange (g : α → Range → β) (p : Parser ε α) : Parser ε β :=
  ⟨fun c => (p.run c).map fun t => ⟨g t.target t.range, t.range, t.rest⟩⟩

/-- Change the target or refuse it. A refused target is a recoverable failure where `p` began. -/
@[inline] def filterMap (g : α → Option β) (expected : Option String) (p : Parser ε α) :
    Parser ε β :=
  ⟨fun c => (p.run c).bind fun t =>
    match g t.target with
    | some b => .success ⟨b, t.range, t.rest⟩
    | none => .failure ⟨c, expected, false, false⟩⟩

@[inline] def filter (test : α → Bool) (p : Parser ε α) : Parser ε α :=
  ⟨fun c => (p.run c).bind fun t =>
    if test t.target then .success t else .failure (.unexpected c)⟩

@[inline] def bindWithRange (p : Parser ε α) (k : α → Range → Parser ε β) : Parser ε β :=
  ⟨fun c => (p.run c).bind fun t =>
    ((k t.target t.range).run t.rest).map fun u => .spanning u.target c u.rest⟩

@[inline] def bind (p : Parser ε α) (k : α → Parser ε β) : Parser ε β :=
  ⟨fun c => (p.run c).bind fun t =>
    ((k t.target).run t.rest).map fun u => .spanning u.target c u.rest⟩

@[inline] def lexeme (p : Parser ε α) : Parser ε (List Char) :=
  ⟨fun c => (p.run c).map fun t => ⟨c.sliceTo t.rest, t.range, t.rest⟩⟩

@[inline] def skip (p : Parser ε α) : Parser ε Unit := p.map fun _ => ()

theorem run_map (g : α → β) (p : Parser ε α) (c : Cursor) :
    (p.map g).run c = (p.run c).map (Parse.map g) := rfl

theorem map_map (g : α → β) (h : β → γ) (p : Parser ε α) :
    (p.map g).map h = p.map fun a => h (g a) := by
  ext c
  simp only [run_map, Reply.map_map]
  rfl

theorem lexeme_map (g : α → β) (p : Parser ε α) : (p.map g).lexeme = p.lexeme := by
  ext c
  simp [run_map, lexeme, Parse.map]

theorem skip_map (g : α → β) (p : Parser ε α) : (p.map g).skip = p.skip := map_map ..

theorem filter_eq_filterMap (test : α → Bool) (p : Parser ε α) :
    p.filter test = p.filterMap (fun a => if test a then some a else none) none := by
  ext c
  simp only [filter, filterMap]
  congr 1
  funext t
  cases h : test t.target <;> simp [Failure.unexpected]

theorem bind_eq_bindWithRange (p : Parser ε α) (k : α → Parser ε β) :
    p.bind k = p.bindWithRange fun a _ => k a := rfl

theorem map_eq_mapWithRange (g : α → β) (p : Parser ε α) :
    p.map g = p.mapWithRange fun a _ => g a := rfl

end Parser

end TextParsing
