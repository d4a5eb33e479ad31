import TextParsing.Parser.Basic

/-!
Parsers one after the other. The range of a sequence goes from where the first began to where the
last ended.
-/

namespace TextParsing.Parser

universe u v w x

variable {ε : Type} {α : Type u} {β : Type v} {γ : Type w} {δ : Type x}

/-- Run `p` and then `q`, and join their targets by `g`, which also takes the range of the whole. -/
@[inline] def andThen (g : α → β → Range → γ) (p : Parser ε α) (q : Parser ε β) : Parser ε γ :=
  ⟨fun c => (p.run c).bind fun t => (q.run t.rest).map fun u =>
    .spanning (g t.target u.target ⟨c.location, u.rest.location⟩) c u.rest⟩

@[inline] def seq (p : Parser ε α) (q : Parser ε β) : Parser ε (α × β) :=
  andThen (fun a b _ => (a, b)) p q

@[inline] def keepRight (p : Parser ε α) (q : Parser ε β) : Parser ε β :=
  andThen (fun _ b _ => b) p q

@[inline] def keepLeft (p : Parser ε α) (q : Parser ε β) : Parser ε α :=
  andThen (fun a _ _ => a) p q

@[inline] def between (left : Parser ε α) (p : Parser ε β) (right : Parser ε γ) : Parser ε β :=
  ⟨fun c => (left.run c).bind fun l => (p.run l.rest).bind fun t => (right.run t.rest).map fun r =>
    .spanning t.target c r.rest⟩

@[inline] def surrounded (p : Parser ε α) (side : Parser ε β) : Parser ε α := between side p side

@[inline] def apply (f : Parser ε (α → β)) (p : Parser ε α) : Parser ε β :=
  andThen (fun g a _ => g a) f p

@[inline] def applyWithRange (f : Parser ε (α → Range → β)) (p : Parser ε α) : Parser ε β :=
  andThen (fun g a r => g a r) f p

@[inline] def concat (p q : Parser ε (List Char)) : Parser ε (List Char) :=
  andThen (fun cs ds _ => cs ++ ds) p q

theorem map_andThen (k : γ → δ) (g : α → β → Range → γ) (p : Parser ε α)
    (q : Parser ε β) : (andThen g p q).map k = andThen (fun a b r => k (g a b r)) p q := by
  ext c
  simp [map, andThen]

theorem andThen_map_left (k : α → δ) (g : δ → β → Range → γ) (p : Parser ε α)
    (q : Parser ε β) : andThen g (p.map k) q = andThen (fun a b r => g (k a) b r) p q := by
  ext c
  simp [map, andThen, Parse.map]

theorem andThen_map_right (k : β → δ) (g : α → δ → Range → γ) (p : Parser ε α)
    (q : Parser ε β) : andThen g p (q.map k) = andThen (fun a b r => g a (k b) r) p q := by
  ext c
  simp [map, andThen, Parse.map]

theorem seq_map (f : α → γ) (g : β → δ) (p : Parser ε α) (q : Parser ε β) :
    seq (p.map f) (q.map g) = (seq p q).map (Prod.map f g) := by
  rw [seq, andThen_map_left, andThen_map_right, seq, map_andThen]
  rfl

theorem lexeme_andThen (g : α → β → Range → γ) (p : Parser ε α) (q : Parser ε β) :
    (andThen g p q).lexeme = (seq p q).lexeme := by
  ext c
  simp [lexeme, seq, andThen, Parse.spanning]

theorem lexeme_seq_map (f : α → γ) (g : β → δ) (p : Parser ε α) (q : Parser ε β) :
    (seq (p.map f) (q.map g)).lexeme = (seq p q).lexeme := by
  rw [seq, andThen_map_left, andThen_map_right, lexeme_andThen]

theorem lexeme_seq_map_right (g : β → γ) (p : Parser ε α) (q : Parser ε β) :
    (seq p (q.map g)).lexeme = (seq p q).lexeme := by
  rw [seq, andThen_map_right, lexeme_andThen]

end TextParsing.Parser
