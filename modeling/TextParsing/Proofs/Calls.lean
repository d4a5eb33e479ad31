import Mathlib.Data.List.Pairwise
import TextParsing.Proofs.Noting
import TextParsing.Proofs.Storing

/-!
What operators are given. Each operator of a chain is called once, with what the operands before and
behind it come to and the range that these cover. From the left these ranges grow, from the right
they nest; they do so strictly, as an operator with its operand is never read without reading a
character.
-/

namespace TextParsing

universe u v w

namespace Range

/-- The ranges of what was read one after the other, each time getting ahead. -/
structure Successive (rs : List Range) : Prop where
  forward : ∀ r ∈ rs, r.start ≤ r.stop
  ahead : rs.Pairwise fun r s => r.start ≤ s.start ∧ r.stop < s.stop

/-- The ranges in `inside` lie within `r`, those in `outside` do not. -/
structure Encloses (r : Range) (inside outside : List Range) : Prop where
  inside : ∀ s ∈ inside, s.Inside r
  outside : ∀ s ∈ outside, ¬ s.Inside r

namespace Successive

variable {r s x y : Range} {rs before inside after : List Range}

theorem singleton (h : r.start ≤ r.stop) : Successive [r] where
  forward := List.forall_mem_singleton.2 h
  ahead := List.pairwise_singleton ..

theorem cons (h : Successive (s :: rs)) (forward : r.start ≤ r.stop) (start_le : r.start ≤ s.start)
    (stop_lt : r.stop < s.stop) : Successive (r :: s :: rs) where
  forward := List.forall_mem_cons.2 ⟨forward, h.forward⟩
  ahead :=
    have : IsTrans Range fun r s => r.start ≤ s.start ∧ r.stop < s.stop :=
      ⟨fun _ _ _ h k => ⟨Location.le_trans h.1 k.1, Location.lt_trans h.2 k.2⟩⟩
    List.pairwise_cons_cons_iff_of_trans.2 ⟨⟨start_le, stop_lt⟩, h.ahead⟩

/-- A range from the start of one range to the end of another encloses these and those between
them. -/
theorem encloses (h : Successive (before ++ inside ++ after)) (hx : x ∈ inside.head?)
    (hy : y ∈ inside.getLast?) (starts : ∀ s ∈ before, s.start < x.start) :
    Encloses ⟨x.start, y.stop⟩ inside (before ++ after) := by
  obtain ⟨later, hl⟩ := List.head?_eq_some_iff.1 hx
  obtain ⟨earlier, he⟩ := List.getLast?_eq_some_iff.1 hy
  obtain ⟨ahead, -, behind⟩ := List.pairwise_append.1 h.ahead
  obtain ⟨-, ahead, -⟩ := List.pairwise_append.1 ahead
  constructor
  · intro s hs
    refine ⟨?_, h.forward s (by simp [hs]), ?_⟩
    · rw [hl] at hs ahead
      obtain rfl | hs := List.mem_cons.1 hs
      · exact Location.le_self _
      · exact (List.rel_of_pairwise_cons ahead hs).1
    · rw [he] at hs ahead
      obtain hs | hs := List.mem_append.1 hs
      · have last := (List.pairwise_append.1 ahead).2.2 s hs y (List.mem_singleton_self y)
        exact Location.le_of_lt last.2
      · rw [List.mem_singleton.1 hs]
        exact Location.le_self _
  · intro s hs within
    obtain hs | hs := List.mem_append.1 hs
    · exact Location.not_le_of_lt (starts s hs) within.start_le
    · have hy : y ∈ before ++ inside := List.mem_append_right _ (List.mem_of_getLast? hy)
      exact Location.not_le_of_lt (behind y hy s hs).2 within.stop_le

end Successive

end Range

namespace Cursor

variable {a b : Cursor}

theorem Passes.location_lt (h : a.Passes b) : a.location < b.location := by
  obtain ⟨x, cs, hcs⟩ := h
  rw [hcs.location]
  exact Location.lt_scan _ (List.cons_ne_nil x cs)

theorem Reaches.eq_or_passes (h : a.Reaches b) : b = a ∨ a.Passes b := by
  obtain ⟨cs, hcs⟩ := h
  cases cs with
  | nil => exact .inl (hcs.unique (.refl a))
  | cons x cs => exact .inr ⟨x, cs, hcs⟩

end Cursor

namespace Call

variable {ω : Type v} {α : Type u}

/-- Calls whose ranges all begin at `start` and end where one after the other of `rs` does. -/
theorem grow_of_map {calls : List (Call ω α)} {rs : List Range} (start : Location)
    (h : calls.map range = rs.map fun r => ⟨start, r.stop⟩)
    (ahead : rs.Pairwise fun r s => r.start ≤ s.start ∧ r.stop < s.stop) :
    calls.Pairwise fun a b => a.range.start = b.range.start ∧ a.range.stop < b.range.stop := by
  rw [← List.pairwise_map (f := range) (R := fun r s => r.start = s.start ∧ r.stop < s.stop), h,
    List.pairwise_map]
  exact ahead.imp fun h => ⟨rfl, h.2⟩

/-- Calls whose ranges all end at `stop` and begin, from the last call on, where one after the other
of `rs` does. -/
theorem nest_of_map {calls : List (Call ω α)} {rs : List Range} (stop : Location)
    (h : calls.reverse.map range = rs.map fun r => ⟨r.start, stop⟩)
    (starts : rs.Pairwise fun r s => r.start < s.start) :
    calls.Pairwise fun a b => a.range.stop = b.range.stop ∧ b.range.start < a.range.start := by
  rw [← List.reverse_reverse calls, List.pairwise_reverse,
    ← List.pairwise_map (f := range) (R := fun r s => s.stop = r.stop ∧ r.start < s.start), h,
    List.pairwise_map]
  exact starts.imp fun h => ⟨rfl, h⟩

end Call

namespace Parser

variable {ε : Type} {α : Type u} {ω : Type v} {σ : Type w}

section Read

variable {operand : Parser ε α} {operator : Parser ε ω} {suffix : Parser ε σ} {c : Cursor}
  {o : Parse ω} {t e : Parse α} {ls : List (ω × Parse α)} {ss : List (Parse σ)}

/-- From `c` on the operators have been read, each with the operand after it. -/
inductive Chain (operand : Parser ε α) (operator : Parser ε ω) :
    Cursor → List (ω × Parse α) → Prop
  | nil (c : Cursor) : Chain operand operator c []
  | cons {c : Cursor} {o : Parse ω} {t : Parse α} {ls : List (ω × Parse α)}
      (ho : (operator.run c).outcome = .success o)
      (ht : (operand.run o.rest).outcome = .success t)
      (later : Chain operand operator t.rest ls) : Chain operand operator c ((o.target, t) :: ls)

/-- From `c` on the suffixes have been read. -/
inductive SuffixChain (suffix : Parser ε σ) : Cursor → List (Parse σ) → Prop
  | nil (c : Cursor) : SuffixChain suffix c []
  | cons {c : Cursor} {s : Parse σ} {ss : List (Parse σ)} (hs : (suffix.run c).outcome = .success s)
      (later : SuffixChain suffix s.rest ss) : SuffixChain suffix c (s :: ss)

theorem linksFrom_chain (bound : List Char) (c : Cursor) :
    (linksFrom operand operator bound c).Ends (Chain operand operator c) fun _ => True := by
  induction bound generalizing c with
  | nil => trivial
  | cons x bound ih =>
    refine (Reply.ends_self _).handle (fun o ho => ?_) fun _ _ => .nil c
    refine (Reply.ends_self _).handle (fun t ht => ?_) fun _ _ => .nil c
    exact (ih t.rest).map fun _ later => .cons ho ht later

theorem suffixesFrom_chain (bound : List Char) (c : Cursor) :
    (suffixesFrom suffix bound c).Ends (SuffixChain suffix c) fun _ => True := by
  induction bound generalizing c with
  | nil => trivial
  | cons x bound ih =>
    refine (Reply.ends_self _).handle (fun s hs => ?_) fun _ _ => .nil c
    exact (ih s.rest).map fun _ later => .cons hs later

theorem Sound.start_eq (hp : operand.Sound) (ht : (operand.run c).outcome = .success t) :
    t.range.start = c.location := by
  rw [((hp c).of_success ht).range]

theorem Sound.stop_eq (hp : operand.Sound) (ht : (operand.run c).outcome = .success t) :
    t.range.stop = t.rest.location := by
  rw [((hp c).of_success ht).range]

theorem Sound.start_le_stop (hp : operand.Sound) (ht : (operand.run c).outcome = .success t) :
    t.range.start ≤ t.range.stop := by
  rw [hp.start_eq ht, hp.stop_eq ht]
  exact (hp.reaches ht).location_le

/-- An operand begins and ends after the one before it: if nothing stood between their starts, both
would be the same, and nothing would have been read from the one to the other. -/
theorem starts_after (hp : operand.Sound) (hq : operator.Sound)
    (consumes : (seq operator operand).Consumes) (ht : (operand.run c).outcome = .success t)
    (ho : (operator.run t.rest).outcome = .success o)
    (he : (operand.run o.rest).outcome = .success e) :
    t.range.start < e.range.start ∧ t.range.stop < e.range.stop := by
  have passes : t.rest.Passes e.rest := consumes.passes (andThen_success ho he)
  rw [hp.start_eq ht, hp.start_eq he, hp.stop_eq ht, hp.stop_eq he]
  refine ⟨?_, passes.location_lt⟩
  obtain same | before := ((hp.reaches ht).trans (hq.reaches ho)).eq_or_passes
  · rw [same, ht] at he
    cases he
    exact absurd rfl passes.ne
  · exact before.location_lt

namespace Chain

theorem starts (hp : operand.Sound) (hq : operator.Sound)
    (consumes : (seq operator operand).Consumes) (ht : (operand.run c).outcome = .success t)
    (hl : Chain operand operator t.rest ls) :
    (operandRanges t ls).Pairwise fun r s => r.start < s.start := by
  induction ls generalizing c t with
  | nil => exact List.pairwise_singleton ..
  | cons l ls ih =>
    cases hl with
    | cons ho he later =>
      have : IsTrans Range fun r s => r.start < s.start := ⟨fun _ _ _ => Location.lt_trans⟩
      have after := starts_after hp hq consumes ht ho he
      exact List.pairwise_cons_cons_iff_of_trans.2 ⟨after.1, ih he later⟩

theorem successive (hp : operand.Sound) (hq : operator.Sound)
    (consumes : (seq operator operand).Consumes) (ht : (operand.run c).outcome = .success t)
    (hl : Chain operand operator t.rest ls) : Range.Successive (operandRanges t ls) := by
  induction ls generalizing c t with
  | nil => exact .singleton (hp.start_le_stop ht)
  | cons l ls ih =>
    cases hl with
    | cons ho he later =>
      have after := starts_after hp hq consumes ht ho he
      exact (ih he later).cons (hp.start_le_stop ht) (Location.le_of_lt after.1) after.2

/-- Every operand has been read. -/
theorem exists_run (ht : (operand.run c).outcome = .success t)
    (hl : Chain operand operator t.rest ls) :
    ∀ e ∈ t :: ls.map Prod.snd, ∃ d, (operand.run d).outcome = .success e := by
  induction ls generalizing c t with
  | nil => exact List.forall_mem_singleton.2 ⟨c, ht⟩
  | cons l ls ih =>
    cases hl with
    | cons ho he later => exact List.forall_mem_cons.2 ⟨⟨c, ht⟩, ih he later⟩

theorem map_stop (hp : operand.Sound) (ht : (operand.run c).outcome = .success t)
    (hl : Chain operand operator t.rest ls) (start : Location) :
    (ls.map fun l => Range.mk start l.2.rest.location) =
      (ls.map fun l => l.2.range).map fun r => ⟨start, r.stop⟩ := by
  rw [List.map_map]
  apply List.map_congr_left
  intro l h
  obtain ⟨d, hd⟩ := hl.exists_run ht l.2 (.tail _ (List.mem_map_of_mem h))
  rw [← hp.stop_eq hd]
  rfl

end Chain

namespace SuffixChain

theorem exists_run (h : SuffixChain suffix c ss) :
    ∀ s ∈ ss, ∃ d, (suffix.run d).outcome = .success s := by
  induction h with
  | nil c => exact fun _ h => nomatch h
  | cons hs later ih => exact List.forall_mem_cons.2 ⟨⟨_, hs⟩, ih⟩

theorem successive (hs : suffix.Sound) (consumes : suffix.Consumes) {r : Range}
    (forward : r.start ≤ r.stop) (stop : r.stop = c.location) (h : SuffixChain suffix c ss) :
    Range.Successive (r :: ss.map Parse.range) := by
  induction h generalizing r with
  | nil c => exact .singleton forward
  | cons hs' later ih =>
    refine (ih (hs.start_le_stop hs') (hs.stop_eq hs')).cons forward ?_ ?_
    · rwa [hs.start_eq hs', ← stop]
    · rw [stop, hs.stop_eq hs']
      exact (consumes.passes hs').location_lt

theorem map_stop (hs : suffix.Sound) (h : SuffixChain suffix c ss) (start : Location) :
    (ss.map fun s => Range.mk start s.rest.location) =
      (ss.map Parse.range).map fun r => ⟨start, r.stop⟩ := by
  induction h with
  | nil c => rfl
  | cons hs' later ih => simp only [List.map_cons, ih, hs.stop_eq hs']

end SuffixChain

end Read

section Given

variable (g : ω → α → α → Range → α) (k : σ → α → Range → α) (t : Parse α)

/-- The calls made for the links `ls` behind the operand `t`, in a run of a chain from the left that
gave `u`. -/
structure LeftCalls (ls : List (ω × Parse α)) (u : Parse (α × List (Call ω (α × α)))) : Prop where
  length : u.target.2.length = ls.length
  /-- The operator before `e` is given what the operands before it come to, and `e`. -/
  call : ∀ earlier o e later, ls = earlier ++ (o, e) :: later →
    let range : Range := ⟨t.range.start, e.range.stop⟩
    u.target.2[earlier.length]? =
      some ⟨o, (combineLeft g t.range.start t.target earlier, e.target), range⟩ ∧
    range.Encloses (operandRanges t (earlier ++ [(o, e)])) (later.map fun l => l.2.range)
  grow : u.target.2.Pairwise fun a b =>
    a.range.start = b.range.start ∧ a.range.stop < b.range.stop
  outermost : ∀ call ∈ u.target.2.getLast?, call.range = u.range ∧ call.join g = u.target.1

/-- The calls made for the links `ls` behind the operand `t`, in a run of a chain from the right
that gave `u`. The operator that was read last is called first. -/
structure RightCalls (ls : List (ω × Parse α)) (u : Parse (α × List (Call ω (α × α)))) : Prop where
  length : u.target.2.length = ls.length
  /-- The operator before `e` is given the operand before it, and what `e` and all operands behind
  it come to. -/
  call : ∀ earlier o e later, ls = earlier ++ (o, e) :: later →
    let left := lastOperand t earlier
    let range : Range := ⟨left.range.start, (lastOperand e later).range.stop⟩
    u.target.2.reverse[earlier.length]? =
      some ⟨o, (left.target, combineRight g range.stop e.range.start e.target later), range⟩ ∧
    range.Encloses (left.range :: operandRanges e later) (operandRanges t earlier).dropLast
  nest : u.target.2.Pairwise fun a b =>
    a.range.stop = b.range.stop ∧ b.range.start < a.range.start
  outermost : ∀ call ∈ u.target.2.getLast?, call.range = u.range ∧ call.join g = u.target.1

/-- The calls made for the suffixes `ss` behind the operand `t`, in a run that gave `u`. -/
structure SuffixCalls (ss : List (Parse σ)) (u : Parse (α × List (Call σ α))) : Prop where
  length : u.target.2.length = ss.length
  call : ∀ earlier s later, ss = earlier ++ s :: later →
    let range : Range := ⟨t.range.start, s.range.stop⟩
    u.target.2[earlier.length]? =
      some ⟨s.target,
        earlier.foldl (fun a s => k s.target a ⟨t.range.start, s.rest.location⟩) t.target, range⟩ ∧
    range.Encloses (t.range :: (earlier ++ [s]).map Parse.range) (later.map Parse.range)
  grow : u.target.2.Pairwise fun a b =>
    a.range.start = b.range.start ∧ a.range.stop < b.range.stop
  outermost : ∀ call ∈ u.target.2.getLast?, call.range = u.range ∧ call.apply k = u.target.1

variable {t} {operand : Parser ε α} {operator : Parser ε ω} {suffix : Parser ε σ} {c : Cursor}
  {ls : List (ω × Parse α)} {ss : List (Parse σ)}

theorem leftCalls_of_chain (hp : operand.Sound) (hq : operator.Sound)
    (consumes : (seq operator operand).Consumes) (ht : (operand.run c).outcome = .success t)
    (hl : Chain operand operator t.rest ls) :
    LeftCalls g t ls (.spanning (combineLeft g c.location t.target ls,
      callsFrom (Call.join g) (leftCall c.location) t.target ls) c (endOf t.rest ls)) := by
  have start : c.location = t.range.start := (hp.start_eq ht).symm
  have successive := hl.successive hp hq consumes ht
  rw [start]
  constructor
  · exact length_callsFrom ..
  · rintro earlier o e later rfl
    have stop : e.range.stop = e.rest.location := by
      obtain ⟨d, hd⟩ := hl.exists_run ht e (by simp)
      exact hp.stop_eq hd
    constructor
    · rw [stop]
      exact getElem?_callsFrom ..
    · have split : operandRanges t (earlier ++ (o, e) :: later) =
          [] ++ operandRanges t (earlier ++ [(o, e)]) ++ later.map fun l => l.2.range := by
        simp [operandRanges]
      rw [split] at successive
      refine successive.encloses rfl ?_ (List.forall_mem_nil _)
      rw [getLast?_operandRanges, lastOperand_append_cons, lastOperand_nil]
      rfl
  · apply Call.grow_of_map t.range.start _ (List.pairwise_cons.1 successive.ahead).2
    rw [← hl.map_stop hp ht]
    exact map_callsFrom (Call.join g) (leftCall t.range.start) t.target (fun _ _ => rfl) ls
  · intro call h
    obtain ⟨value, a, l, hl, rfl⟩ := getLast?_callsFrom _ _ _ h
    refine ⟨?_, value⟩
    simp only [leftCall, Parse.spanning, endOf]
    rw [hl, start]

theorem rightCalls_of_chain (hp : operand.Sound) (hq : operator.Sound)
    (consumes : (seq operator operand).Consumes) (ht : (operand.run c).outcome = .success t)
    (hl : Chain operand operator t.rest ls) :
    let rest := endOf t.rest ls
    RightCalls g t ls (.spanning (combineRight g rest.location c.location t.target ls,
      rightCalls g rest.location c.location t.target ls) c rest) := by
  intro rest
  have start : c.location = t.range.start := (hp.start_eq ht).symm
  have stop : rest.location = (lastOperand t ls).range.stop := by
    obtain ⟨d, hd⟩ := hl.exists_run ht (lastOperand t ls) (List.getLastD_mem_cons ..)
    rw [hp.stop_eq hd, ← endOf_eq]
  have successive := hl.successive hp hq consumes ht
  have starts := hl.starts hp hq consumes ht
  rw [start]
  constructor
  · exact length_rightCalls ..
  · rintro earlier o e later rfl
    rw [lastOperand_append_cons] at stop
    constructor
    · rw [← stop]
      exact getElem?_rightCalls ..
    · have last := List.dropLast_append_getLast? _ (getLast?_operandRanges t earlier)
      have split : operandRanges t (earlier ++ (o, e) :: later) =
          (operandRanges t earlier).dropLast ++
            ((lastOperand t earlier).range :: operandRanges e later) ++ [] := by
        rw [operandRanges_append, List.append_nil, List.append_cons, last]
      rw [split] at successive starts
      have before := (List.pairwise_append.1 (List.pairwise_append.1 starts).1).2.2
      have within := successive.encloses rfl (getLast?_operandRanges e later)
        fun r hr => before r hr _ (.head _)
      rwa [List.append_nil] at within
  · apply Call.nest_of_map rest.location _ (starts.sublist (List.dropLast_sublist _))
    exact map_range_rightCalls ..
  · intro call h
    obtain ⟨range, value⟩ := getLast?_rightCalls _ _ _ _ h
    exact ⟨by rw [range, ← start]; rfl, value⟩

theorem suffixCalls_of_chain (hp : operand.Sound) (hs : suffix.Sound) (consumes : suffix.Consumes)
    (ht : (operand.run c).outcome = .success t) (h : SuffixChain suffix t.rest ss) :
    SuffixCalls k t ss (.spanning (valueFrom (Call.apply k) (suffixCall c.location) t.target ss,
      callsFrom (Call.apply k) (suffixCall c.location) t.target ss) c (suffixesEnd t.rest ss)) := by
  have start : c.location = t.range.start := (hp.start_eq ht).symm
  have successive := h.successive hs consumes (hp.start_le_stop ht) (hp.stop_eq ht)
  rw [start]
  constructor
  · exact length_callsFrom ..
  · rintro earlier s later rfl
    have stop : s.range.stop = s.rest.location := by
      obtain ⟨d, hd⟩ := h.exists_run s (by simp)
      exact hs.stop_eq hd
    constructor
    · rw [stop]
      exact getElem?_callsFrom ..
    · have split : t.range :: (earlier ++ s :: later).map Parse.range =
          [] ++ (t.range :: (earlier ++ [s]).map Parse.range) ++ later.map Parse.range := by
        simp
      rw [split] at successive
      refine successive.encloses rfl ?_ (List.forall_mem_nil _)
      simp [List.getLast?_cons]
  · apply Call.grow_of_map t.range.start _ (List.pairwise_cons.1 successive.ahead).2
    rw [← h.map_stop hs]
    exact map_callsFrom (Call.apply k) (suffixCall t.range.start) t.target (fun _ _ => rfl) ss
  · intro call h
    obtain ⟨value, a, s, hs, rfl⟩ := getLast?_callsFrom _ _ _ h
    refine ⟨?_, value⟩
    simp only [suffixCall, Parse.spanning, suffixesEnd]
    rw [hs, start]

end Given

section

variable (g : ω → α → α → Range → α) (k : σ → α → Range → α) (operand : Parser ε α)
  (operator : Parser ε ω) (suffix : Parser ε σ)

/-- What the operators of a chain are given in every run that succeeds. -/
structure GivesRanges : Prop where
  left : ∀ c, ((callsLeft g operand operator).run c).Ends (fun u => ∃ t ls,
    (operand.run c).outcome = .success t ∧ Chain operand operator t.rest ls ∧ LeftCalls g t ls u)
    fun _ => True
  right : ∀ c, ((callsRight g operand operator).run c).Ends (fun u => ∃ t ls,
    (operand.run c).outcome = .success t ∧ Chain operand operator t.rest ls ∧ RightCalls g t ls u)
    fun _ => True
  suffixed : ∀ c, ((callsSuffix k operand suffix).run c).Ends (fun u => ∃ t ss,
    (operand.run c).outcome = .success t ∧ SuffixChain suffix t.rest ss ∧ SuffixCalls k t ss u)
    fun _ => True
  /-- To note the calls changes nothing else. -/
  noted : (callsLeft g operand operator).map Prod.fst = chainLeft g operand operator ∧
    (callsRight g operand operator).map Prod.fst = chainRight g operand operator ∧
    (callsSuffix k operand suffix).map Prod.fst = chainSuffix k operand suffix
  /-- The loops that combine while they read make the same calls. -/
  eager : eagerLeft (Call.noting g) (uncalled operand) operator = callsLeft g operand operator ∧
    stackedRight (Call.noting g) (uncalled operand) operator = callsRight g operand operator ∧
    eagerSuffix (Call.notingSuffix k) (uncalled operand) suffix = callsSuffix k operand suffix

/-- A chain of operators that take a range and ignore it is one of operators that take none. -/
structure IgnoresRanges (h : ω → α → α → α) (h' : σ → α → α) : Prop where
  left : chainLeft (fun (f : α → α → Range → α) a b r => f a b r) operand
      (operator.map fun o a b _ => h o a b) =
    chainLeft (fun o a b _ => h o a b) operand operator
  right : chainRight (fun (f : α → α → Range → α) a b r => f a b r) operand
      (operator.map fun o a b _ => h o a b) =
    chainRight (fun o a b _ => h o a b) operand operator
  suffixed : chainSuffix (fun (f : α → Range → α) a r => f a r) operand
      (suffix.map fun s a _ => h' s a) =
    chainSuffix (fun s a _ => h' s a) operand suffix

end

section

variable {operand : Parser ε α} {operator : Parser ε ω} {suffix : Parser ε σ}

theorem givesRanges (hp : operand.Sound) (hq : operator.Sound) (hs : suffix.Sound)
    (hl : (seq operator operand).Consumes) (hc : suffix.Consumes) (g : ω → α → α → Range → α)
    (k : σ → α → Range → α) : GivesRanges g k operand operator suffix where
  left c := by
    rw [run_callsLeft]
    refine (Reply.ends_self _).bind fun t ht => ?_
    exact (linksFrom_chain _ _).map fun ls h => ⟨t, ls, ht, h, leftCalls_of_chain g hp hq hl ht h⟩
  right c := by
    rw [run_callsRight]
    refine (Reply.ends_self _).bind fun t ht => ?_
    exact (linksFrom_chain _ _).map fun ls h => ⟨t, ls, ht, h, rightCalls_of_chain g hp hq hl ht h⟩
  suffixed c := by
    rw [run_callsSuffix]
    refine (Reply.ends_self _).bind fun t ht => ?_
    exact (suffixesFrom_chain _ _).map fun ss h =>
      ⟨t, ss, ht, h, suffixCalls_of_chain k hp hs hc ht h⟩
  noted := ⟨callsLeft_map g operand operator, callsRight_map g operand operator,
    callsSuffix_map k operand suffix⟩
  eager := ⟨eagerLeft_eq .., stackedRight_eq .., eagerSuffix_eq ..⟩

theorem ignoresRanges (operand : Parser ε α) (operator : Parser ε ω) (suffix : Parser ε σ)
    (h : ω → α → α → α) (h' : σ → α → α) : IgnoresRanges operand operator suffix h h' where
  left := chainLeft_map ..
  right := chainRight_map ..
  suffixed := chainSuffix_map ..

end

/-- The operators of a chain are given ranges that cover just the operands of which their values
are made. From the left these ranges begin where the first operand does and grow, from the right
they end where the last one does and nest, and the last to be given is the range of the whole. This
is so for the parsers of all grammars, and for all others that read on and whose ranges are what
they have read. -/
theorem operators_given_ranges {n : Nat} (rules : Rules n) :
    (∀ (depth : Nat) (a : Grammar n 0), (a.parserAt rules depth).Sound) ∧
    (∀ {ε α ω σ : Type} {operand : Parser ε α} {operator : Parser ε ω} {suffix : Parser ε σ},
      operand.Sound → operator.Sound → suffix.Sound → (seq operator operand).Consumes →
      suffix.Consumes → ∀ (g : ω → α → α → Range → α) (k : σ → α → Range → α),
        GivesRanges g k operand operator suffix) ∧
    ∀ {ε α ω σ : Type} (operand : Parser ε α) (operator : Parser ε ω) (suffix : Parser ε σ)
      (h : ω → α → α → α) (h' : σ → α → α), IgnoresRanges operand operator suffix h h' :=
  ⟨fun depth a => Grammar.recordedAt_sound .commits rules depth a, givesRanges, ignoresRanges⟩

/-- Numbers on three lines, joined by the line feeds between them. -/
theorem operators_given_ranges_of_lines :
    let number : Parser Unit (List Char) := (char .digit).many1
    let feed : Parser Unit Char := char (.single '\n')
    let g : Char → List Char → List Char → Range → List Char := fun _ a b _ => a ++ b
    let c : Cursor := .ofText ['8', '0', '\n', '4', '\n', '2', '0', '0']
    number.Sound ∧ feed.Sound ∧ (seq feed number).Consumes ∧ feed.Consumes ∧
      (∃ u, ((callsLeft g number feed).run c).outcome = .success u ∧
        u.target.2.map Call.range = [⟨⟨1, 1, 0⟩, ⟨2, 2, 4⟩⟩, ⟨⟨1, 1, 0⟩, ⟨3, 4, 8⟩⟩]) ∧
      (∃ u, ((callsRight g number feed).run c).outcome = .success u ∧
        u.target.2.map Call.range = [⟨⟨2, 1, 3⟩, ⟨3, 4, 8⟩⟩, ⟨⟨1, 1, 0⟩, ⟨3, 4, 8⟩⟩]) ∧
      GivesRanges g (fun _ a _ => a) number feed feed := by
  intro number feed g c
  have sound : number.Sound := (char_sound _).many1
  have linked : (seq feed number).Consumes := (char_consumes _).andThen sound
  exact ⟨sound, char_sound _, linked, char_consumes _, ⟨_, rfl, rfl⟩, ⟨_, rfl, rfl⟩,
    (operators_given_ranges (n := 0) Fin.elim0).2.1 sound (char_sound _) (char_sound _) linked
      (char_consumes _) g _⟩

end Parser

end TextParsing
