import TextParsing.Grammar.Meaning

/-!
Grammars in the place of references. What stands in the place of a reference means what the
reference did if that is what the parser for the reference does.
-/

namespace TextParsing

namespace Grammar

variable {n n' : Nat}

/-- The same grammar with its rules and the grammars around it numbered anew. -/
def rename (ϱ : Fin n → Fin n') {k m : Nat} (ρ : Fin k → Fin m) : Grammar n k → Grammar n' m
  | succeed v => succeed v
  | failHere f => failHere f
  | char s => char s
  | peek s => peek s
  | token cs => token cs
  | pattern p => pattern p
  | endOfText => endOfText
  | mapWithRange g a => mapWithRange g (a.rename ϱ ρ)
  | filterMap g d a => filterMap g d (a.rename ϱ ρ)
  | bindWithRange a next => bindWithRange (a.rename ϱ ρ) fun v r => (next v r).rename ϱ ρ
  | andThen g a b => andThen g (a.rename ϱ ρ) (b.rename ϱ ρ)
  | orElse a b => orElse (a.rename ϱ ρ) (b.rename ϱ ρ)
  | commit a => commit (a.rename ϱ ρ)
  | tag d a => tag d (a.rename ϱ ρ)
  | lexeme a => lexeme (a.rename ϱ ρ)
  | withDefault v a => withDefault v (a.rename ϱ ρ)
  | many a => many (a.rename ϱ ρ)
  | many1 a => many1 (a.rename ϱ ρ)
  | times m a => times m (a.rename ϱ ρ)
  | sepBy1 a sep => sepBy1 (a.rename ϱ ρ) (sep.rename ϱ ρ)
  | sepBy a sep => sepBy (a.rename ϱ ρ) (sep.rename ϱ ρ)
  | chainLeft g a o => chainLeft g (a.rename ϱ ρ) (o.rename ϱ ρ)
  | chainRight g a o => chainRight g (a.rename ϱ ρ) (o.rename ϱ ρ)
  | chainSuffix g a s => chainSuffix g (a.rename ϱ ρ) (s.rename ϱ ρ)
  | recursive body => recursive (body.rename ϱ (Fin.cases 0 fun i => (ρ i).succ))
  | ref i => ref (ρ i)
  | dangling => dangling
  | rule i => rule (ϱ i)

/-- The same grammar inside one more recursive grammar. -/
def lift {k : Nat} (a : Grammar n k) : Grammar n (k + 1) := a.rename id Fin.succ

/-- Put `σ i` in the place of each reference to `i`, and number the rules anew. -/
def subst (ϱ : Fin n → Fin n') {k m : Nat} (σ : Fin k → Grammar n' m) : Grammar n k → Grammar n' m
  | succeed v => succeed v
  | failHere f => failHere f
  | char s => char s
  | peek s => peek s
  | token cs => token cs
  | pattern p => pattern p
  | endOfText => endOfText
  | mapWithRange g a => mapWithRange g (a.subst ϱ σ)
  | filterMap g d a => filterMap g d (a.subst ϱ σ)
  | bindWithRange a next => bindWithRange (a.subst ϱ σ) fun v r => (next v r).subst ϱ σ
  | andThen g a b => andThen g (a.subst ϱ σ) (b.subst ϱ σ)
  | orElse a b => orElse (a.subst ϱ σ) (b.subst ϱ σ)
  | commit a => commit (a.subst ϱ σ)
  | tag d a => tag d (a.subst ϱ σ)
  | lexeme a => lexeme (a.subst ϱ σ)
  | withDefault v a => withDefault v (a.subst ϱ σ)
  | many a => many (a.subst ϱ σ)
  | many1 a => many1 (a.subst ϱ σ)
  | times m a => times m (a.subst ϱ σ)
  | sepBy1 a sep => sepBy1 (a.subst ϱ σ) (sep.subst ϱ σ)
  | sepBy a sep => sepBy (a.subst ϱ σ) (sep.subst ϱ σ)
  | chainLeft g a o => chainLeft g (a.subst ϱ σ) (o.subst ϱ σ)
  | chainRight g a o => chainRight g (a.subst ϱ σ) (o.subst ϱ σ)
  | chainSuffix g a s => chainSuffix g (a.subst ϱ σ) (s.subst ϱ σ)
  | recursive body => recursive (body.subst ϱ (Fin.cases (ref 0) fun i => (σ i).lift))
  | ref i => σ i
  | dangling => dangling
  | rule i => rule (ϱ i)

section

variable {k m : Nat} {depth : Nat} {rules : Fin n' → Parser Location Value}

theorem toParser_rename (ϱ : Fin n → Fin n') (a : Grammar n k) (ρ : Fin k → Fin m)
    (h : Fin m → Parser Location Value) :
    (a.rename ϱ ρ).toParser .commits depth rules h =
      a.toParser .commits depth (fun i => rules (ϱ i)) fun i => h (ρ i) := by
  induction a generalizing m with
  | succeed | failHere | char | peek | token | pattern | endOfText | ref | dangling | rule => rfl
  | commit _ ih => exact congrArg (Parser.commit fun l => [l]) (ih _ h)
  | mapWithRange _ _ ih | filterMap _ _ _ ih | tag _ _ ih | lexeme _ ih
  | withDefault _ _ ih | many _ ih | many1 _ ih | times _ _ ih =>
    simp only [rename, toParser, Recorder.watch_commits, ih]
  | bindWithRange _ _ iha ihb | andThen _ _ _ iha ihb | orElse _ _ iha ihb | sepBy1 _ _ iha ihb
  | sepBy _ _ iha ihb | chainLeft _ _ _ iha ihb | chainRight _ _ _ iha ihb
  | chainSuffix _ _ _ iha ihb =>
    simp only [rename, toParser, Recorder.watch_commits, iha, ihb]
  | recursive body ih =>
    simp only [rename, toParser, Recorder.watch_commits, ih]
    congr 2
    funext self
    congr 1
    funext i
    refine Fin.cases ?_ (fun j => ?_) i <;> rfl

theorem toParser_subst (ϱ : Fin n → Fin n') (a : Grammar n k) (σ : Fin k → Grammar n' m)
    (h : Fin m → Parser Location Value) :
    (a.subst ϱ σ).toParser .commits depth rules h =
      a.toParser .commits depth (fun i => rules (ϱ i))
        fun i => (σ i).toParser .commits depth rules h := by
  induction a generalizing m with
  | succeed | failHere | char | peek | token | pattern | endOfText | ref | dangling | rule => rfl
  | commit _ ih => exact congrArg (Parser.commit fun l => [l]) (ih _ h)
  | mapWithRange _ _ ih | filterMap _ _ _ ih | tag _ _ ih | lexeme _ ih
  | withDefault _ _ ih | many _ ih | many1 _ ih | times _ _ ih =>
    simp only [subst, toParser, Recorder.watch_commits, ih]
  | bindWithRange _ _ iha ihb | andThen _ _ _ iha ihb | orElse _ _ iha ihb | sepBy1 _ _ iha ihb
  | sepBy _ _ iha ihb | chainLeft _ _ _ iha ihb | chainRight _ _ _ iha ihb
  | chainSuffix _ _ _ iha ihb =>
    simp only [subst, toParser, Recorder.watch_commits, iha, ihb]
  | recursive body ih =>
    simp only [subst, toParser, Recorder.watch_commits, ih]
    congr 2
    funext self
    congr 1
    funext i
    refine Fin.cases ?_ (fun j => ?_) i
    · rfl
    · exact toParser_rename id (σ j) Fin.succ (Fin.cases self h)

end

end Grammar

/-- The rules and, before them, one that is `body` and refers to itself where `body` refers to the
grammar it is the body of. -/
def Rules.withBody {n : Nat} (rules : Rules n) (body : Grammar n 1) : Rules (n + 1) :=
  Fin.cases (body.subst Fin.succ fun _ => .rule 0) fun i => (rules i).rename Fin.succ id

end TextParsing
