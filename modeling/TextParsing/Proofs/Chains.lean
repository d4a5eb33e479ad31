import TextParsing.Parser.Chain
import TextParsing.Proofs.Likeness
import TextParsing.Proofs.Progress

/-!
Chains are repetitions. Operands with operators between them are an operand and a repetition of an
operator with an operand after it, so a chain from the left and one from the right read the same and
only combine it differently. Nor does it matter whether they are combined when all is read or while
they are read; from the right, an operand then waits with its operator for what comes after it.
-/

namespace TextParsing.Parser

universe u v w

open Reply

variable {ε : Type} {α : Type u} {ω : Type v} {σ : Type w}

section Eager

variable (g : ω → α → α → Range → α) (k : σ → α → Range → α) (operand : Parser ε α)
  (operator : Parser ε ω) (suffix : Parser ε σ)

/-- Combine each operand with what has been read before it, which began at `start`. -/
def eagerFrom (start : Location) : (bound : List Char) → α → Cursor → Reply ε (α × Cursor)
  | [], _, _ => .unfinished
  | _ :: bound, a, c =>
    (operator.run c).handle
      (fun o =>
        (operand.run o.rest).handle
          (fun t => eagerFrom start bound (g o.target a t.target ⟨start, t.rest.location⟩) t.rest)
          fun _ => .success (a, c))
      fun _ => .success (a, c)

def eagerLeft : Parser ε α :=
  ⟨fun c => (operand.run c).bind fun t =>
    (eagerFrom g operand operator c.location t.rest.bound t.target t.rest).map fun (a, rest) =>
      .spanning a c rest⟩

/-- Put each operand aside with its start and the operator after it, the latest one on top. The last
operand, which begins at `start`, is not put aside. -/
def stackFrom : (bound : List Char) → List (α × Location × ω) → α → (start : Location) → Cursor →
    Reply ε (List (α × Location × ω) × α × Cursor)
  | [], _, _, _, _ => .unfinished
  | _ :: bound, stack, a, start, c =>
    (operator.run c).handle
      (fun o =>
        (operand.run o.rest).handle
          (fun t =>
            stackFrom bound ((a, start, o.target) :: stack) t.target t.range.start t.rest)
          fun _ => .success (stack, a, c))
      fun _ => .success (stack, a, c)

/-- Combine the operands that were put aside with what is to their right, which ends at `stop`. -/
def unstack (stop : Location) (a : α) (stack : List (α × Location × ω)) : α :=
  stack.foldl (fun right (left, start, o) => g o left right ⟨start, stop⟩) a

def stackedRight : Parser ε α :=
  ⟨fun c => (operand.run c).bind fun t =>
    (stackFrom operand operator t.rest.bound [] t.target c.location t.rest).map
      fun (stack, a, rest) => .spanning (unstack g rest.location a stack) c rest⟩

/-- Apply each suffix to what has been read before it, which began at `start`. -/
def eagerSuffixesFrom (start : Location) : (bound : List Char) → α → Cursor → Reply ε (α × Cursor)
  | [], _, _ => .unfinished
  | _ :: bound, a, c =>
    (suffix.run c).handle
      (fun s => eagerSuffixesFrom start bound (k s.target a ⟨start, s.rest.location⟩) s.rest)
      fun _ => .success (a, c)

def eagerSuffix : Parser ε α :=
  ⟨fun c => (operand.run c).bind fun t =>
    (eagerSuffixesFrom k suffix c.location t.rest.bound t.target t.rest).map fun (a, rest) =>
      .spanning a c rest⟩

end Eager

section Ends

/-- The place where the suffixes from `c` on end. -/
def suffixesEnd (c : Cursor) (ss : List (Parse σ)) : Cursor :=
  match ss.getLast? with
  | some s => s.rest
  | none => c

@[simp] theorem endOf_nil (c : Cursor) : endOf c ([] : List (ω × Parse α)) = c := rfl

@[simp] theorem endOf_cons (c : Cursor) (o : ω) (t : Parse α) (ls : List (ω × Parse α)) :
    endOf c ((o, t) :: ls) = endOf t.rest ls := by
  rw [endOf, endOf, List.getLast?_cons]
  cases ls.getLast? <;> rfl

@[simp] theorem suffixesEnd_nil (c : Cursor) : suffixesEnd c ([] : List (Parse σ)) = c := rfl

@[simp] theorem suffixesEnd_cons (c : Cursor) (s : Parse σ) (ss : List (Parse σ)) :
    suffixesEnd c (s :: ss) = suffixesEnd s.rest ss := by
  rw [suffixesEnd, suffixesEnd, List.getLast?_cons]
  cases ss.getLast? <;> rfl

end Ends

section Loops

variable (g : ω → α → α → Range → α) (k : σ → α → Range → α) (operand : Parser ε α)
  (operator : Parser ε ω) (suffix : Parser ε σ)

theorem eagerFrom_eq (start : Location) (bound : List Char) (a : α) (c : Cursor) :
    eagerFrom g operand operator start bound a c =
      (linksFrom operand operator bound c).map fun ls =>
        (combineLeft g start a ls, endOf c ls) := by
  induction bound generalizing a c with
  | nil => rfl
  | cons x bound ih =>
    simp only [eagerFrom, linksFrom, map_handle, ih, Reply.map_map, map_success, endOf_cons]
    rfl

theorem eagerLeft_eq : eagerLeft g operand operator = chainLeft g operand operator := by
  ext c
  simp only [eagerLeft, chainLeft, eagerFrom_eq, Reply.map_map]

/-- What has been put aside is combined with the rest of the chain as with one operand. -/
theorem stackFrom_eq (bound : List Char) (stack : List (α × Location × ω)) (a : α)
    (start : Location) (c : Cursor) :
    ((stackFrom operand operator bound stack a start c).map fun (stack, a, rest) =>
      (unstack g rest.location a stack, rest)) =
      (linksFrom operand operator bound c).map fun ls =>
        let rest := endOf c ls
        (unstack g rest.location (combineRight g rest.location start a ls) stack, rest) := by
  induction bound generalizing stack a start c with
  | nil => rfl
  | cons x bound ih =>
    simp only [stackFrom, linksFrom, map_handle, ih, Reply.map_map, map_success, endOf_cons]
    rfl

theorem stackedRight_eq : stackedRight g operand operator = chainRight g operand operator := by
  ext c
  simp only [stackedRight, chainRight]
  congr 1
  funext t
  have h := stackFrom_eq g operand operator t.rest.bound [] t.target c.location t.rest
  have h' := congrArg (Reply.map fun (a, rest) => Parse.spanning a c rest) h
  rw [Reply.map_map, Reply.map_map] at h'
  exact h'

theorem eagerSuffixesFrom_eq (start : Location) (bound : List Char) (a : α) (c : Cursor) :
    eagerSuffixesFrom k suffix start bound a c =
      (suffixesFrom suffix bound c).map fun ss =>
        (ss.foldl (fun a s => k s.target a ⟨start, s.rest.location⟩) a, suffixesEnd c ss) := by
  induction bound generalizing a c with
  | nil => rfl
  | cons x bound ih =>
    simp only [eagerSuffixesFrom, suffixesFrom, map_handle, ih, Reply.map_map, map_success,
      suffixesEnd_cons]
    rfl

theorem eagerSuffix_eq : eagerSuffix k operand suffix = chainSuffix k operand suffix := by
  ext c
  simp only [eagerSuffix, chainSuffix, eagerSuffixesFrom_eq, Reply.map_map]
  rfl

end Loops

section Repeated

variable {operand : Parser ε α} {operator : Parser ε ω} {suffix : Parser ε σ}

/-- The links of a chain are what a repetition of operator and operand reads. -/
theorem repeatFrom_seq (h : (seq operator operand).Consumes) (bound : List Char) (c : Cursor) :
    repeatFrom (seq operator operand) bound c =
      (linksFrom operand operator bound c).map fun ls =>
        (ls.map fun (o, t) => (o, t.target), endOf c ls) := by
  induction bound generalizing c with
  | nil => rfl
  | cons x bound ih =>
    change ((operator.run c).bind fun o => (operand.run o.rest).map fun t =>
      Parse.spanning (o.target, t.target) c t.rest).handle _ _ = _
    rw [handle_bind, linksFrom, map_handle]
    apply handle_congr
    intro o ho
    rw [handle_map, map_handle]
    apply handle_congr
    intro t ht
    have moved : (t.rest == c) = false := (h.passes (andThen_success ho ht)).beq
    simp [Parse.spanning, moved, ih]

theorem repeatFrom_suffix (h : suffix.Consumes) (bound : List Char) (c : Cursor) :
    repeatFrom suffix bound c =
      (suffixesFrom suffix bound c).map fun ss => (ss.map Parse.target, suffixesEnd c ss) := by
  induction bound generalizing c with
  | nil => rfl
  | cons x bound ih =>
    rw [repeatFrom, suffixesFrom, map_handle]
    apply handle_congr
    intro t ht
    simp [(h.passes ht).beq, ih]

variable (g : ω → α → α → α) (k : σ → α → α)

theorem combineLeft_eq_foldl (start : Location) (a : α) (ls : List (ω × Parse α)) :
    combineLeft (fun o a b _ => g o a b) start a ls =
      (ls.map fun (o, t) => (o, t.target)).foldl (fun a (o, b) => g o a b) a := by
  rw [combineLeft, List.foldl_map]

theorem combineRight_eq_foldr (stop start : Location) (a : α) (ls : List (ω × Parse α)) :
    combineRight (fun o a b _ => g o a b) stop start a ls =
      (ls.map fun (o, t) => (o, t.target)).foldr (fun (o, b) right a => g o a (right b)) id a := by
  induction ls generalizing start a with
  | nil => rfl
  | cons l ls ih => simp [combineRight, ih]

theorem chainLeft_eq (h : (seq operator operand).Consumes) :
    chainLeft (fun o a b _ => g o a b) operand operator =
      (seq operand (seq operator operand).many).map fun (a, ls) =>
        ls.foldl (fun a (o, b) => g o a b) a := by
  ext c
  change _ = ((operand.run c).bind fun t => Reply.map _ (Reply.map _ (repeatFrom _ _ _))).map _
  simp only [chainLeft, repeatFrom_seq h, combineLeft_eq_foldl, Reply.map_map, bind_map]
  rfl

theorem chainRight_eq (h : (seq operator operand).Consumes) :
    chainRight (fun o a b _ => g o a b) operand operator =
      (seq operand (seq operator operand).many).map fun (a, ls) =>
        ls.foldr (fun (o, b) right a => g o a (right b)) id a := by
  ext c
  change _ = ((operand.run c).bind fun t => Reply.map _ (Reply.map _ (repeatFrom _ _ _))).map _
  simp only [chainRight, repeatFrom_seq h, combineRight_eq_foldr, Reply.map_map, bind_map]
  rfl

theorem chainSuffix_eq (h : suffix.Consumes) :
    chainSuffix (fun s a _ => k s a) operand suffix =
      (seq operand suffix.many).map fun (a, ss) => ss.foldl (fun a s => k s a) a := by
  ext c
  change _ = ((operand.run c).bind fun t => Reply.map _ (Reply.map _ (repeatFrom _ _ _))).map _
  simp only [chainSuffix, repeatFrom_suffix h, Reply.map_map, bind_map, Parse.map, Parse.spanning,
    List.foldl_map]
  rfl

/-- The parser does not apply at `c`. -/
def Declines (p : Parser ε α) (c : Cursor) : Prop :=
  ∃ f, (p.run c).outcome = .failure f ∧ f.committed = false

/-- A repetition of what consumes goes on for as long as it applies. -/
theorem repeatFrom_declines {p : Parser ε α} (hp : p.Consumes) (bound : List Char) (c : Cursor) :
    (repeatFrom p bound c).Ends (fun x => p.Declines x.2) fun _ => True := by
  induction bound generalizing c with
  | nil => trivial
  | cons x bound ih =>
    rw [repeatFrom]
    cases ho : (p.run c).outcome with
    | success t =>
      have passes := hp.passes ho
      simpa [handle, ho, passes.beq, Ends, after] using (ih t.rest).map (g := fun x =>
        (t.target :: x.1, x.2)) fun _ hx => hx
    | failure f =>
      cases hf : f.committed with
      | true => simp [handle, ho, hf, Ends]
      | false => simpa [handle, ho, hf, Ends, after, Reply.success] using ⟨f, ho, hf⟩
    | unfinished => simp [handle, ho, Ends]

theorem many_declines {p : Parser ε α} (hp : p.Consumes) (c : Cursor) :
    (p.many.run c).Ends (fun t => p.Declines t.rest) fun _ => True :=
  (repeatFrom_declines hp c.bound c).map fun _ hx => hx

theorem linksFrom_length (h : (seq operator operand).Consumes) (bound : List Char) (c : Cursor) :
    (linksFrom operand operator bound c).Ends (fun ls => ls.length ≤ c.rest.length)
      fun _ => True := by
  induction bound generalizing c with
  | nil => trivial
  | cons x bound ih =>
    refine (ends_self _).handle (fun o ho => ?_) fun _ _ => Nat.zero_le _
    refine (ends_self _).handle (fun t ht => ?_) fun _ _ => Nat.zero_le _
    refine (ih t.rest).map fun ls hls => ?_
    have shorter : t.rest.rest.length < c.rest.length :=
      (h.passes (andThen_success ho ht)).length_lt
    rw [List.length_cons]
    omega

/-- A chain ends by itself: with one turn more than there are characters left, it never takes the
last one. -/
theorem linksFrom_bound (h : (seq operator operand).Consumes) {bound bound' : List Char}
    {c : Cursor} (hb : c.rest.length < bound.length) (hb' : c.rest.length < bound'.length) :
    linksFrom operand operator bound c = linksFrom operand operator bound' c := by
  induction bound generalizing c bound' with
  | nil => exact nomatch hb
  | cons x bound ih =>
    cases bound' with
    | nil => exact nomatch hb'
    | cons x' bound' =>
      rw [linksFrom, linksFrom]
      apply handle_congr
      intro o ho
      apply handle_congr
      intro t ht
      have shorter : t.rest.rest.length < c.rest.length :=
        (h.passes (andThen_success ho ht)).length_lt
      rw [List.length_cons] at hb hb'
      exact congrArg _ (ih (by omega) (by omega))

theorem suffixesFrom_length (h : suffix.Consumes) (bound : List Char) (c : Cursor) :
    (suffixesFrom suffix bound c).Ends (fun ss => ss.length ≤ c.rest.length) fun _ => True := by
  induction bound generalizing c with
  | nil => trivial
  | cons x bound ih =>
    refine (ends_self _).handle (fun t ht => ?_) fun _ _ => Nat.zero_le _
    refine (ih t.rest).map fun ss hss => ?_
    have shorter := (h.passes ht).length_lt
    rw [List.length_cons]
    omega

theorem suffixesFrom_bound (h : suffix.Consumes) {bound bound' : List Char} {c : Cursor}
    (hb : c.rest.length < bound.length) (hb' : c.rest.length < bound'.length) :
    suffixesFrom suffix bound c = suffixesFrom suffix bound' c := by
  induction bound generalizing c bound' with
  | nil => exact nomatch hb
  | cons x bound ih =>
    cases bound' with
    | nil => exact nomatch hb'
    | cons x' bound' =>
      rw [suffixesFrom, suffixesFrom]
      apply handle_congr
      intro t ht
      have shorter := (h.passes ht).length_lt
      rw [List.length_cons] at hb hb'
      exact congrArg _ (ih (by omega) (by omega))

/-- Two parses of the same text, whose targets are made in two ways of what `p` reads from `c`. -/
structure Remade {β : Type v} (p : Parser ε β) (g g' : β → α) (c : Cursor) (t t' : Parse α) :
    Prop where
  range : t'.range = t.range
  rest : t'.rest = t.rest
  target : ∃ u, (p.run c).outcome = .success u ∧ t.target = g u.target ∧ t'.target = g' u.target

theorem map_remade {β : Type v} (p : Parser ε β) (g g' : β → α) (c : Cursor) :
    ((p.map g).run c).outcome.Alike (Remade p g g' c) Eq ((p.map g').run c).outcome := by
  simp only [run_map, Reply.map, Reply.bind, handle]
  cases ho : (p.run c).outcome with
  | success u => exact .success ⟨rfl, rfl, u, ho, rfl, rfl⟩
  | failure f =>
    cases hf : f.committed
    · simpa [hf, after, Reply.failure] using Outcome.Alike.failure rfl
    · simpa [hf] using Outcome.Alike.failure rfl
  | unfinished => exact .unfinished

end Repeated

section

variable (g : ω → α → α → α) (k : σ → α → α) (operand : Parser ε α) (operator : Parser ε ω)
  (suffix : Parser ε σ)

/-- An operand, and each operator with the operand after it. -/
def links : Parser ε (α × List (ω × α)) := seq operand (seq operator operand).many

def foldLeft (x : α × List (ω × α)) : α := x.2.foldl (fun a (o, b) => g o a b) x.1

def foldRight (x : α × List (ω × α)) : α := x.2.foldr (fun (o, b) right a => g o a (right b)) id x.1

/-- Chains are repetitions that are folded when all is read. Whichever way they are folded, they
read the same. -/
structure ChainsFold : Prop where
  left : chainLeft (fun o a b _ => g o a b) operand operator =
    (links operand operator).map (foldLeft g)
  right : chainRight (fun o a b _ => g o a b) operand operator =
    (links operand operator).map (foldRight g)
  suffixed : chainSuffix (fun s a _ => k s a) operand suffix =
    (seq operand suffix.many).map fun (a, ss) => ss.foldl (fun a s => k s a) a
  /-- The loops that combine while they read. -/
  eager : eagerLeft (fun o a b _ => g o a b) operand operator =
      (links operand operator).map (foldLeft g) ∧
    stackedRight (fun o a b _ => g o a b) operand operator =
      (links operand operator).map (foldRight g) ∧
    eagerSuffix (fun s a _ => k s a) operand suffix =
      (seq operand suffix.many).map fun (a, ss) => ss.foldl (fun a s => k s a) a
  same : ∀ c, ((chainLeft (fun o a b _ => g o a b) operand operator).run c).outcome.Alike
    (Remade (links operand operator) (foldLeft g) (foldRight g) c) Eq
    ((chainRight (fun o a b _ => g o a b) operand operator).run c).outcome
  /-- They stop where no operator follows, or no operand after it. -/
  stops : ∀ c, ((links operand operator).run c).Ends
    (fun t => (seq operator operand).Declines t.rest) fun _ => True
  /-- There are no more turns than characters. -/
  turns : ∀ c,
    (linksFrom operand operator c.bound c).Ends (fun ls => ls.length ≤ c.rest.length)
      (fun _ => True) ∧
    (suffixesFrom suffix c.bound c).Ends (fun ss => ss.length ≤ c.rest.length) fun _ => True
  /-- So a greater bound on the turns changes nothing. -/
  unbounded : ∀ (c : Cursor) (bound : List Char), c.rest.length < bound.length →
    linksFrom operand operator bound c = linksFrom operand operator c.bound c ∧
    suffixesFrom suffix bound c = suffixesFrom suffix c.bound c

end

variable {operand : Parser ε α} {operator : Parser ε ω} {suffix : Parser ε σ}

theorem links_declines (h : (seq operator operand).Consumes) (c : Cursor) :
    ((links operand operator).run c).Ends (fun t => (seq operator operand).Declines t.rest)
      fun _ => True :=
  (ends_self _).bind fun t _ => (many_declines h t.rest).map fun _ hu => hu

/-- If an operator with an operand, and a suffix, are never read without reading a character, then
chains are repetitions that are folded. -/
theorem chains_fold (g : ω → α → α → α) (k : σ → α → α)
    (hl : (seq operator operand).Consumes) (hs : suffix.Consumes) :
    ChainsFold g k operand operator suffix where
  left := chainLeft_eq g hl
  right := chainRight_eq g hl
  suffixed := chainSuffix_eq k hs
  eager := by
    rw [eagerLeft_eq, stackedRight_eq, eagerSuffix_eq]
    exact ⟨chainLeft_eq g hl, chainRight_eq g hl, chainSuffix_eq k hs⟩
  same := by
    intro c
    have left := chainLeft_eq g hl
    have right := chainRight_eq g hl
    rw [left, right]
    exact map_remade (links operand operator) (foldLeft g) (foldRight g) c
  stops := links_declines hl
  turns c := ⟨linksFrom_length hl c.bound c, suffixesFrom_length hs c.bound c⟩
  unbounded c bound h :=
    have enough : c.rest.length < c.bound.length := Nat.lt_succ_self _
    ⟨linksFrom_bound hl h enough, suffixesFrom_bound hs h enough⟩

/-- Differences of digits, with a minus at the end that has no digit after it. -/
theorem chains_fold_of_differences :
    let digit : Parser Unit Int := (char .digit).map fun x => x.toNat - 48
    let minus : Parser Unit Char := char (.single '-')
    let g : Char → Int → Int → Int := fun _ a b => a - b
    let c : Cursor := .ofText ['8', '-', '4', '-', '2', '-']
    (seq minus digit).Consumes ∧ minus.Consumes ∧
      ((chainLeft (fun o a b _ => g o a b) digit minus).run c).outcome =
        .success (.spanning 2 c (c.drop 5)) ∧
      ((chainRight (fun o a b _ => g o a b) digit minus).run c).outcome =
        .success (.spanning 6 c (c.drop 5)) ∧
      ChainsFold g (fun _ a => -a) digit minus minus := by
  intro digit minus g c
  have linked : (seq minus digit).Consumes :=
    (char_consumes _).andThen (char_sound _).map
  exact ⟨linked, char_consumes _, rfl, rfl, chains_fold g _ linked (char_consumes _)⟩

end TextParsing.Parser
