import TextParsing.Proofs.Chains

/-!
The calls of operators. A function that combines operands can note its calls beside what it makes:
with it the chains are run as they are, and what they give tells which calls have been made, and in
which order.
-/

namespace TextParsing

universe u v w x y

section Steps

variable {α : Type u} {χ : Type w} {κ : Type x} (value : κ → α) (call : α → χ → κ) (a : α)

/-- The calls made one after the other, where `call` goes on with the value of the one before. -/
def callsFrom : α → List χ → List κ
  | _, [] => []
  | a, x :: xs => call a x :: callsFrom (value (call a x)) xs

/-- The value of the last call. -/
def valueFrom (xs : List χ) : α := xs.foldl (fun a x => value (call a x)) a

theorem foldl_noting (calls : List κ) (xs : List χ) :
    xs.foldl (fun s x => (value (call s.1 x), s.2 ++ [call s.1 x])) (a, calls) =
      (valueFrom value call a xs, calls ++ callsFrom value call a xs) := by
  induction xs generalizing a calls with
  | nil => simp [callsFrom, valueFrom]
  | cons x xs ih => simp [callsFrom, valueFrom, ih]

theorem length_callsFrom (xs : List χ) : (callsFrom value call a xs).length = xs.length := by
  induction xs generalizing a with
  | nil => rfl
  | cons x xs ih => simp [callsFrom, ih]

theorem getElem?_callsFrom (xs ys : List χ) (x : χ) :
    (callsFrom value call a (xs ++ x :: ys))[xs.length]? =
      some (call (valueFrom value call a xs) x) := by
  induction xs generalizing a with
  | nil => rfl
  | cons y xs ih => simpa [callsFrom, valueFrom] using ih (value (call a y))

theorem getLast?_callsFrom {xs : List χ} {n : κ} (h : n ∈ (callsFrom value call a xs).getLast?) :
    value n = valueFrom value call a xs ∧ ∃ b, ∃ x ∈ xs.getLast?, n = call b x := by
  induction xs generalizing a with
  | nil => cases h
  | cons x xs ih =>
    cases xs with
    | nil =>
      cases h
      exact ⟨rfl, a, x, rfl, rfl⟩
    | cons y xs =>
      rw [callsFrom, callsFrom, List.getLast?_cons_cons] at h
      exact ih (value (call a x)) h

/-- What of a call does not depend on the values before is known without them. -/
theorem map_callsFrom {π : Type y} {h : κ → π} {k : χ → π} (same : ∀ a x, h (call a x) = k x)
    (xs : List χ) : (callsFrom value call a xs).map h = xs.map k := by
  induction xs generalizing a with
  | nil => rfl
  | cons x xs ih => simp [callsFrom, same, ih]

end Steps

/-- A call of an operator: what it is given. -/
structure Call (ω : Type v) (α : Type u) where
  operator : ω
  operands : α
  range : Range

namespace Call

variable {α : Type u} {ω : Type v}

def join (g : ω → α → α → Range → α) (call : Call ω (α × α)) : α :=
  g call.operator call.operands.1 call.operands.2 call.range

def apply (k : ω → α → Range → α) (call : Call ω α) : α := k call.operator call.operands call.range

/-- The function `g` with a note of its call, behind the notes of those that made its operands. -/
def noting (g : ω → α → α → Range → α) (o : ω) (x y : α × List (Call ω (α × α))) (r : Range) :
    α × List (Call ω (α × α)) :=
  (g o x.1 y.1 r, x.2 ++ y.2 ++ [⟨o, (x.1, y.1), r⟩])

def notingSuffix (k : ω → α → Range → α) (s : ω) (x : α × List (Call ω α)) (r : Range) :
    α × List (Call ω α) :=
  (k s x.1 r, x.2 ++ [⟨s, x.1, r⟩])

end Call

namespace Parser

variable {ε : Type} {α : Type u} {ω : Type v} {σ : Type w}

section Noted

variable (g : ω → α → α → Range → α) (k : σ → α → Range → α) (operand : Parser ε α)
  (operator : Parser ε ω) (suffix : Parser ε σ)

/-- An operand, for which no operator has been called. -/
def uncalled {χ : Type w} : Parser ε (α × List χ) := operand.map fun a => (a, [])

def callsLeft : Parser ε (α × List (Call ω (α × α))) :=
  chainLeft (Call.noting g) (uncalled operand) operator

def callsRight : Parser ε (α × List (Call ω (α × α))) :=
  chainRight (Call.noting g) (uncalled operand) operator

def callsSuffix : Parser ε (α × List (Call σ α)) :=
  chainSuffix (Call.notingSuffix k) (uncalled operand) suffix

end Noted

section Combined

variable (g : ω → α → α → Range → α) (k : σ → α → Range → α) (start stop : Location) (a : α)
  (t : Parse α)

/-- The call of the operator of `l` where what stands before it begins at `start` and is `a`. -/
def leftCall (a : α) (l : ω × Parse α) : Call ω (α × α) :=
  ⟨l.1, (a, l.2.target), ⟨start, l.2.rest.location⟩⟩

def suffixCall (a : α) (s : Parse σ) : Call σ α := ⟨s.target, a, ⟨start, s.rest.location⟩⟩

/-- The calls made when a chain is combined from the right, in order: the last operator is called
first. -/
def rightCalls : Location → α → List (ω × Parse α) → List (Call ω (α × α))
  | _, _, [] => []
  | start, a, (o, t) :: ls =>
    rightCalls t.range.start t.target ls ++
      [⟨o, (a, combineRight g stop t.range.start t.target ls), ⟨start, stop⟩⟩]

theorem combineLeft_noting (ls : List (ω × Parse α)) :
    combineLeft (Call.noting g) start (a, []) (ls.map (Prod.map id (Parse.map (·, [])))) =
      (combineLeft g start a ls, callsFrom (Call.join g) (leftCall start) a ls) := by
  simp only [combineLeft, List.foldl_map, Prod.map, Parse.map, Call.noting, List.append_nil, id]
  exact foldl_noting (Call.join g) (leftCall start) a [] ls

theorem combineRight_noting (ls : List (ω × Parse α)) :
    combineRight (Call.noting g) stop start (a, []) (ls.map (Prod.map id (Parse.map (·, [])))) =
      (combineRight g stop start a ls, rightCalls g stop start a ls) := by
  induction ls generalizing start a with
  | nil => rfl
  | cons l ls ih => simp [combineRight, Call.noting, rightCalls, Parse.map, ih]

/-- The last operand of a chain that begins with `t`. -/
def lastOperand (ls : List (ω × Parse α)) : Parse α := (ls.map Prod.snd).getLastD t

/-- The ranges of all operands of a chain that begins with `t`. -/
def operandRanges (ls : List (ω × Parse α)) : List Range := t.range :: ls.map fun l => l.2.range

@[simp] theorem lastOperand_nil : lastOperand t ([] : List (ω × Parse α)) = t := rfl

@[simp] theorem lastOperand_cons (l : ω × Parse α) (ls : List (ω × Parse α)) :
    lastOperand t (l :: ls) = lastOperand l.2 ls := List.getLastD_cons

theorem lastOperand_append_cons (earlier later : List (ω × Parse α)) (o : ω) (e : Parse α) :
    lastOperand t (earlier ++ (o, e) :: later) = lastOperand e later := by
  induction earlier generalizing t with
  | nil => exact lastOperand_cons ..
  | cons l earlier ih => exact (lastOperand_cons ..).trans (ih l.2)

theorem operandRanges_append (earlier later : List (ω × Parse α)) (o : ω) (e : Parse α) :
    operandRanges t (earlier ++ (o, e) :: later) =
      operandRanges t earlier ++ operandRanges e later := by
  simp [operandRanges]

theorem getLast?_operandRanges (ls : List (ω × Parse α)) :
    (operandRanges t ls).getLast? = some (lastOperand t ls).range := by
  induction ls generalizing t with
  | nil => rfl
  | cons l ls ih => simpa [operandRanges] using ih l.2

theorem endOf_eq (ls : List (ω × Parse α)) : endOf t.rest ls = (lastOperand t ls).rest := by
  induction ls generalizing t with
  | nil => rfl
  | cons l ls ih => rw [endOf_cons, lastOperand_cons, ih]

theorem length_rightCalls (ls : List (ω × Parse α)) :
    (rightCalls g stop start a ls).length = ls.length := by
  induction ls generalizing start a with
  | nil => rfl
  | cons l ls ih => simp [rightCalls, ih]

theorem getElem?_rightCalls (earlier later : List (ω × Parse α)) (o : ω) (e : Parse α) :
    (rightCalls g stop t.range.start t.target
      (earlier ++ (o, e) :: later)).reverse[earlier.length]? =
      some ⟨o, ((lastOperand t earlier).target, combineRight g stop e.range.start e.target later),
        ⟨(lastOperand t earlier).range.start, stop⟩⟩ := by
  induction earlier generalizing t with
  | nil => simp [rightCalls]
  | cons l earlier ih => simpa [rightCalls] using ih l.2

theorem map_range_rightCalls (ls : List (ω × Parse α)) :
    (rightCalls g stop t.range.start t.target ls).reverse.map Call.range =
      (operandRanges t ls).dropLast.map fun r => ⟨r.start, stop⟩ := by
  induction ls generalizing t with
  | nil => rfl
  | cons l ls ih => simpa [rightCalls, operandRanges] using ih l.2

theorem getLast?_rightCalls {ls : List (ω × Parse α)} {call : Call ω (α × α)}
    (h : call ∈ (rightCalls g stop start a ls).getLast?) :
    call.range = ⟨start, stop⟩ ∧ call.join g = combineRight g stop start a ls := by
  cases ls with
  | nil => cases h
  | cons l ls =>
    rw [rightCalls, List.getLast?_concat] at h
    cases h
    exact ⟨rfl, rfl⟩

end Combined

section Mapped

variable {α' : Type w} {ω' : Type x}

theorem map_id (p : Parser ε α) : p.map id = p := by
  ext c
  exact Reply.bind_success (p.run c)

theorem endOf_map (f : α → α') (h : ω → ω') (c : Cursor) (ls : List (ω × Parse α)) :
    endOf c (ls.map (Prod.map h (Parse.map f))) = endOf c ls := by
  induction ls generalizing c with
  | nil => rfl
  | cons l ls ih => exact (endOf_cons ..).trans ((ih l.2.rest).trans (endOf_cons ..).symm)

theorem linksFrom_map (f : α → α') (h : ω → ω') (operand : Parser ε α) (operator : Parser ε ω)
    (bound : List Char) (c : Cursor) :
    linksFrom (operand.map f) (operator.map h) bound c =
      (linksFrom operand operator bound c).map (List.map (Prod.map h (Parse.map f))) := by
  induction bound generalizing c with
  | nil => rfl
  | cons x bound ih =>
    simp only [linksFrom, run_map, Reply.handle_map, Reply.map_handle, Reply.map_map, Parse.map, ih]
    rfl

theorem suffixesFrom_map (h : ω → ω') (suffix : Parser ε ω) (bound : List Char) (c : Cursor) :
    suffixesFrom (suffix.map h) bound c =
      (suffixesFrom suffix bound c).map (List.map (Parse.map h)) := by
  induction bound generalizing c with
  | nil => rfl
  | cons x bound ih =>
    simp only [suffixesFrom, run_map, Reply.handle_map, Reply.map_handle, Reply.map_map, Parse.map,
      ih]
    rfl

end Mapped

section Runs

variable (g : ω → α → α → Range → α) (k : σ → α → Range → α) (operand : Parser ε α)
  (operator : Parser ε ω) (suffix : Parser ε σ) (c : Cursor)

theorem linksFrom_uncalled {χ : Type w} (bound : List Char) :
    linksFrom (uncalled operand : Parser ε (α × List χ)) operator bound c =
      (linksFrom operand operator bound c).map (List.map (Prod.map id (Parse.map (·, [])))) := by
  rw [← linksFrom_map, map_id, uncalled]

theorem run_callsLeft : (callsLeft g operand operator).run c = (operand.run c).bind fun t =>
    (linksFrom operand operator t.rest.bound t.rest).map fun ls =>
      .spanning (combineLeft g c.location t.target ls,
        callsFrom (Call.join g) (leftCall c.location) t.target ls) c (endOf t.rest ls) := by
  simp only [callsLeft, chainLeft, linksFrom_uncalled, Reply.map_map, endOf_map]
  rw [uncalled, run_map, Reply.map_bind]
  simp only [Parse.map, combineLeft_noting]

theorem run_callsRight : (callsRight g operand operator).run c = (operand.run c).bind fun t =>
    (linksFrom operand operator t.rest.bound t.rest).map fun ls =>
      let rest := endOf t.rest ls
      .spanning (combineRight g rest.location c.location t.target ls,
        rightCalls g rest.location c.location t.target ls) c rest := by
  simp only [callsRight, chainRight, linksFrom_uncalled, Reply.map_map, endOf_map]
  rw [uncalled, run_map, Reply.map_bind]
  simp only [Parse.map, combineRight_noting]

theorem run_callsSuffix : (callsSuffix k operand suffix).run c = (operand.run c).bind fun t =>
    (suffixesFrom suffix t.rest.bound t.rest).map fun ss =>
      .spanning (valueFrom (Call.apply k) (suffixCall c.location) t.target ss,
          callsFrom (Call.apply k) (suffixCall c.location) t.target ss)
        c (suffixesEnd t.rest ss) := by
  simp only [callsSuffix, chainSuffix]
  rw [uncalled, run_map, Reply.map_bind]
  congr 1
  funext t
  congr 1
  funext ss
  exact congrArg (Parse.spanning · c _)
    (foldl_noting (Call.apply k) (suffixCall c.location) t.target [] ss)

theorem callsLeft_map :
    (callsLeft g operand operator).map Prod.fst = chainLeft g operand operator := by
  ext c
  rw [run_map, run_callsLeft, Reply.bind_map]
  simp only [Reply.map_map]
  rfl

theorem callsRight_map :
    (callsRight g operand operator).map Prod.fst = chainRight g operand operator := by
  ext c
  rw [run_map, run_callsRight, Reply.bind_map]
  simp only [Reply.map_map]
  rfl

theorem callsSuffix_map :
    (callsSuffix k operand suffix).map Prod.fst = chainSuffix k operand suffix := by
  ext c
  rw [run_map, run_callsSuffix, Reply.bind_map]
  simp only [Reply.map_map]
  rfl

end Runs

section Unranged

variable {ω' : Type x} (h : ω → ω') (operand : Parser ε α) (operator : Parser ε ω)

theorem linksFrom_map_operator (bound : List Char) (c : Cursor) :
    linksFrom operand (operator.map h) bound c =
      (linksFrom operand operator bound c).map (List.map (Prod.map h id)) := by
  have mapped := linksFrom_map id h operand operator bound c
  rwa [map_id] at mapped

theorem chainLeft_map (g : ω' → α → α → Range → α) :
    chainLeft g operand (operator.map h) = chainLeft (fun o => g (h o)) operand operator := by
  ext c
  simp only [chainLeft, linksFrom_map_operator, Reply.map_map, combineLeft, List.foldl_map]
  congr 1
  funext t
  congr 1
  funext ls
  exact congrArg (Parse.spanning _ c) (endOf_map id h t.rest ls)

theorem combineRight_map (g : ω' → α → α → Range → α) (stop start : Location) (a : α)
    (ls : List (ω × Parse α)) :
    combineRight g stop start a (ls.map (Prod.map h id)) =
      combineRight (fun o => g (h o)) stop start a ls := by
  induction ls generalizing start a with
  | nil => rfl
  | cons l ls ih => exact congrArg (g (h l.1) a · ⟨start, stop⟩) (ih l.2.range.start l.2.target)

theorem chainRight_map (g : ω' → α → α → Range → α) :
    chainRight g operand (operator.map h) = chainRight (fun o => g (h o)) operand operator := by
  ext c
  simp only [chainRight, linksFrom_map_operator, Reply.map_map, combineRight_map]
  congr 1
  funext t
  congr 1
  funext ls
  have ends : endOf t.rest (ls.map (Prod.map h id)) = endOf t.rest ls := endOf_map id h t.rest ls
  rw [ends]

theorem chainSuffix_map (k : ω' → α → Range → α) (suffix : Parser ε ω) :
    chainSuffix k operand (suffix.map h) = chainSuffix (fun s => k (h s)) operand suffix := by
  ext c
  simp only [chainSuffix, suffixesFrom_map, Reply.map_map, List.foldl_map, List.getLast?_map]
  congr 1
  funext t
  congr 1
  funext ss
  cases ss.getLast? <;> rfl

end Unranged

end Parser

end TextParsing
