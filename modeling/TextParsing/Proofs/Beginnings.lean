import Mathlib.Data.List.Flatten
import Mathlib.Data.List.SplitBy
import TextParsing.Proofs.Anchoring

/-!
What the alternatives of a pattern begin with. An expression that is read from a text has no empty
part in a sequence, so it is told by its items: an alternative is written with what it shares with
the others and then what it has behind that.
-/

namespace TextParsing.Pattern

namespace Regex

/-- No part of a sequence is empty. -/
def Tidy : Regex → Prop
  | seq q r => q ≠ empty ∧ r ≠ empty ∧ q.Tidy ∧ r.Tidy
  | _ => True

variable {q r : Regex} {rs : List Regex}

theorem Tidy.andThen (hq : q.Tidy) (hr : r.Tidy) : (q.andThen r).Tidy := by
  unfold Regex.andThen
  split
  · exact hr
  · exact hq
  · next hq' hr' => exact ⟨hq', hr', hq, hr⟩

theorem tidy_ofItems (h : ∀ r ∈ rs, r.Tidy) : (ofItems rs).Tidy := by
  induction rs with
  | nil => trivial
  | cons r rs ih =>
    obtain ⟨hr, others⟩ := List.forall_mem_cons.1 h
    exact hr.andThen (ih others)

theorem tidy_ofChoices (h : ∀ r ∈ rs, r.Tidy) : (ofChoices rs).Tidy := by
  cases rs with
  | nil => trivial
  | cons r rs =>
    cases rs with
    | nil => exact h r (List.mem_singleton_self r)
    | cons r' rs => trivial

theorem Tidy.of_mem_items (h : r.Tidy) {x : Regex} (hx : x ∈ r.items) : x.Tidy := by
  induction r with
  | empty => simp [items] at hx
  | seq q r ihq ihr => exact (List.mem_append.1 hx).elim (ihq h.2.2.1) (ihr h.2.2.2)
  | set | assertion | alt | opt | star | plus | part =>
    obtain rfl := List.mem_singleton.1 hx
    trivial

theorem flatten_parts (r : Regex) : r.parts.flatten = r.items := List.flatten_splitBy ..

theorem isPrefix_sharedParts (qs rs : List (List Regex)) :
    sharedParts qs rs <+: qs ∧ sharedParts qs rs <+: rs := by
  fun_induction sharedParts qs rs with
  | case1 q qs r rs h ih =>
    obtain rfl : q = r := by simp_all
    exact ⟨List.prefix_cons_inj q |>.2 ih.1, List.prefix_cons_inj q |>.2 ih.2⟩
  | case2 | case3 => exact ⟨List.nil_prefix, List.nil_prefix⟩

theorem isPrefix_foldl_sharedParts (first : List (List Regex)) (others : List (List (List Regex))) :
    ∀ l ∈ first :: others, others.foldl sharedParts first <+: l := by
  induction others generalizing first with
  | nil => exact List.forall_mem_singleton.2 List.prefix_rfl
  | cons l others ih =>
    obtain ⟨shared, later⟩ := List.forall_mem_cons.1 (ih (sharedParts first l))
    have both := isPrefix_sharedParts first l
    exact List.forall_mem_cons.2 ⟨shared.trans both.1,
      List.forall_mem_cons.2 ⟨shared.trans both.2, later⟩⟩

theorem isPrefix_beginning {ls : List (List (List Regex))} {l : List (List Regex)} (hl : l ∈ ls) :
    beginning ls <+: l := by
  unfold beginning
  split
  · split
    · exact isPrefix_foldl_sharedParts _ _ l hl
    · exact List.nil_prefix
  · exact List.nil_prefix

/-- The parts that alternatives share. -/
def shared (rs : List Regex) : List (List Regex) := beginning (rs.map parts)

/-- What an alternative has behind the parts that it shares with the others. -/
def behindShared (rs : List Regex) (r : Regex) : Regex :=
  ofItems (r.parts.drop (shared rs).length).flatten

theorem ofBranches_eq (rs : List Regex) : ofBranches rs =
    if shared rs = [] then ofChoices rs
    else ofItems ((shared rs).flatten ++ [ofChoices (rs.map (behindShared rs))]) := by
  unfold ofBranches
  split
  · next none => exact (if_pos none).symm
  · next some => exact (if_neg some).symm

theorem isPrefix_shared (hr : r ∈ rs) : shared rs <+: r.parts :=
  isPrefix_beginning (List.mem_map_of_mem hr)

/-- What an alternative is written with is what it shares and what is behind that. -/
theorem items_eq (hr : r ∈ rs) :
    r.items = (shared rs).flatten ++ (r.parts.drop (shared rs).length).flatten := by
  rw [← flatten_parts, ← List.flatten_append]
  exact congrArg List.flatten (List.prefix_iff_eq_append.1 (isPrefix_shared hr)).symm

theorem tidy_ofBranches (h : ∀ r ∈ rs, r.Tidy) : (ofBranches rs).Tidy := by
  have inside (r : Regex) (hr : r ∈ rs) (x : Regex)
      (hx : x ∈ (shared rs).flatten ++ (r.parts.drop (shared rs).length).flatten) : x.Tidy :=
    (h r hr).of_mem_items (items_eq hr ▸ hx)
  rw [ofBranches_eq]
  split
  · exact tidy_ofChoices h
  · next some =>
    obtain ⟨r, hr⟩ : ∃ r, r ∈ rs := by
      refine List.exists_mem_of_ne_nil rs ?_
      rintro rfl
      exact some rfl
    refine tidy_ofItems (List.forall_mem_append.2 ⟨?_, List.forall_mem_singleton.2 ?_⟩)
    · exact fun x hx => inside r hr x (List.mem_append_left _ hx)
    · refine tidy_ofChoices fun x hx => ?_
      obtain ⟨r', hr', rfl⟩ := List.mem_map.1 hx
      exact tidy_ofItems fun x hx => inside r' hr' x (List.mem_append_right _ hx)

theorem Tidy.repeated (h : r.Tidy) (min : Nat) (max : Option Nat) (greedy : Bool) :
    (r.repeated min max greedy).Tidy := by
  unfold Regex.repeated
  split
  · trivial
  · exact h
  · trivial
  · split <;> trivial
  · trivial

theorem Tidy.repeated? (h : r.Tidy) {min : Nat} {max : Option Nat} {greedy : Bool}
    (hq : r.repeated? min max greedy = some q) : q.Tidy := by
  unfold Regex.repeated? at hq
  split at hq
  · obtain rfl := Option.some.inj hq
    exact h.repeated ..
  · split at hq
    · obtain rfl := Option.some.inj hq
      exact h.repeated ..
    · cases hq

end Regex

namespace Token

/-- The expression of an atom is tidy. -/
def Tidy : Token → Prop
  | atom _ r => r.Tidy
  | _ => True

end Token

namespace Group

/-- All that has been read into the group is tidy. -/
structure Tidy (g : Group) : Prop where
  branches : ∀ i ∈ g.branches, i.regex.Tidy
  items : ∀ i ∈ g.items, i.regex.Tidy

variable {g g' : Group} {i : Item}

theorem Tidy.push (h : g.Tidy) (hi : i.regex.Tidy) : (g.push i).Tidy :=
  ⟨h.branches, List.forall_mem_cons.2 ⟨hi, h.items⟩⟩

theorem Tidy.nextBranch (h : g.Tidy) : g.nextBranch.Tidy := by
  have branch : (Regex.ofItems (g.items.reverse.map Item.regex)).Tidy :=
    Regex.tidy_ofItems (by simpa using h.items)
  exact ⟨List.forall_mem_cons.2 ⟨branch, h.branches⟩, List.forall_mem_nil _⟩

theorem Tidy.alternatives (h : g.Tidy) :
    ∀ r ∈ g.nextBranch.branches.reverse.map Item.regex, r.Tidy := by
  simpa using h.nextBranch.branches

theorem Tidy.group (h : g.Tidy) (numbered : Bool) : (g.content.group numbered).regex.Tidy := by
  cases numbered with
  | true => trivial
  | false => exact Regex.tidy_ofBranches h.alternatives

theorem Tidy.quantify? (h : g.Tidy) {min : Nat} {max : Option Nat} {greedy : Bool}
    (hg : g.quantify? min max greedy = some g') : g'.Tidy := by
  obtain ⟨numbered, branches, items⟩ := g
  cases items with
  | nil => cases hg
  | cons i items =>
    obtain ⟨j, hj, rfl⟩ := Option.map_eq_some_iff.1 hg
    obtain ⟨r, hr, rfl⟩ := Option.map_eq_some_iff.1 hj
    obtain ⟨hi, others⟩ := List.forall_mem_cons.1 h.items
    exact ⟨h.branches, List.forall_mem_cons.2 ⟨hi.repeated? hr, others⟩⟩

end Group

variable {t : Token} {ts : List Token} {s s' : Group × List Group}

end TextParsing.Pattern
