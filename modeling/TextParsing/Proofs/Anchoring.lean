import TextParsing.Pattern.Basic

/-!
Anchored patterns. A pattern is compiled behind a start anchor and inside a group; if it is well
formed on its own then the group that is opened for it is the one that is closed behind it, so the
anchor is before all of it, and what matches begins where it is tried. For this a text has to be
read the same in front of a closed parenthesis and inside other groups; in front of a bar it is so
too.
-/

namespace TextParsing.Pattern

namespace Front

/-- All that the threads have come to began at `i`. -/
structure Began (i : Nat) (f : Front) : Prop where
  ahead : ∀ t ∈ f.ahead, t.start = i
  accepted : ∀ j, f.accepted = some j → j = i

variable {p : Program} {s : Spot} {f : Front} {i : Nat}

theorem began_empty : empty.Began i := ⟨nofun, nofun⟩

theorem Began.visit (h : f.Began i) (a : Nat) : (f.visit a).Began i := ⟨h.ahead, h.accepted⟩

theorem Began.push (h : f.Began i) (a : Nat) : (f.push ⟨i, a⟩).Began i :=
  ⟨List.forall_mem_cons.2 ⟨rfl, h.ahead⟩, h.accepted⟩

theorem Began.accept (h : f.Began i) : (f.accept i).Began i :=
  ⟨h.ahead, fun _ hj => (Option.some.inj hj).symm⟩

theorem Began.follow (h : f.Began i) (n a : Nat) : (follow p s i n a f).Began i := by
  induction n generalizing a f with
  | zero => exact h
  | succ n ih =>
    have visited := h.visit a
    simp only [Front.follow]
    split
    · exact h
    · split
      · exact visited
      · exact visited.accept
      · split
        · exact visited.push _
        · exact visited
      · split
        · exact ih visited _
        · exact visited
      · exact ih visited _
      · exact ih (ih visited _) _

theorem began_ofThreads {ts : List Thread} (h : ∀ t ∈ ts, t.start = i) :
    (ofThreads p s ts).Began i := by
  suffices all : ∀ f : Front, f.Began i →
      (ts.foldl (fun f t => Front.follow p s t.start p.code.size t.address f) f).Began i from
    all empty began_empty
  induction ts with
  | nil => exact fun f hf => hf
  | cons t ts ih =>
    obtain ⟨ht, h⟩ := List.forall_mem_cons.1 h
    intro f hf
    rw [← ht] at hf
    exact ih h _ (ht ▸ hf.follow _ _)

/-- The match that is preferred after a spot begins where all threads did. -/
theorem Began.or_start (h : f.Began i) (index : Nat) {found : Option (Nat × Nat)}
    (hf : ∀ m ∈ found, m.1 = i) :
    ∀ m ∈ (f.accepted.map fun start => (start, index - start)).or found, m.1 = i := by
  cases accepted : f.accepted with
  | none => exact hf
  | some j =>
    rintro m ⟨⟩
    exact h.accepted j accepted

end Front

namespace Program

variable {p : Program}

/-- The search of an anchored program has threads from the start only. -/
theorem threadsAt_start (hp : p.atStart = true) (index : Nat) (found : Option (Nat × Nat))
    {ts : List Thread} (h : ∀ t ∈ ts, t.start = 0) :
    ∀ t ∈ p.threadsAt index found ts, t.start = 0 := by
  simp only [threadsAt, hp]
  split
  · exact h
  · next later =>
    have first : index = 0 := by simp_all
    exact List.forall_mem_append.2 ⟨h, List.forall_mem_singleton.2 first⟩

theorem searchFrom_start (hp : p.atStart = true) {cs : List Char} {index : Nat}
    {before : Option Char} {found : Option (Nat × Nat)} {ts : List Thread}
    (ht : ∀ t ∈ ts, t.start = 0) (hf : ∀ m ∈ found, m.1 = 0) :
    ∀ m ∈ p.searchFrom index before found ts cs, m.1 = 0 := by
  induction cs generalizing index before found ts with
  | nil =>
    have began := Front.began_ofThreads (p := p) (s := ⟨index, before, []⟩)
      (threadsAt_start hp index found ht)
    exact began.or_start index hf
  | cons c cs ih =>
    have began := Front.began_ofThreads (p := p) (s := ⟨index, before, c :: cs⟩)
      (threadsAt_start hp index found ht)
    have hf := began.or_start index hf
    rw [searchFrom]
    split
    · exact hf
    · exact ih (fun t h => began.ahead t (List.mem_reverse.1 h)) hf

/-- What an anchored program finds begins where it was tried. -/
theorem search_start (hp : p.atStart = true) (cs : List Char) : ∀ m ∈ p.search cs, m.1 = 0 :=
  searchFrom_start hp (List.forall_mem_nil _) nofun

end Program

/-- A bar, or a parenthesis that is closed, and what follows it. -/
inductive Closing : List Char → Prop
  | bar (more : List Char) : Closing ('|' :: more)
  | group (more : List Char) : Closing (')' :: more)

/-- What is read is the same, and as much, if an alternative or a group ends behind the text. -/
def Local {α : Type} (f : List Char → Option (α × List Char)) : Prop :=
  ∀ tail, Closing tail → ∀ cs a rest, f cs = some (a, rest) →
    f (cs ++ tail) = some (a, rest ++ tail)

/-- A character that is neither a bar nor a closed parenthesis. -/
def Inside (c : Char) : Prop := c ≠ '|' ∧ c ≠ ')'

instance (c : Char) : Decidable (Inside c) := inferInstanceAs (Decidable (_ ∧ _))

namespace Closing

variable {tail : List Char}

theorem exists_eq (h : Closing tail) : ∃ x more, tail = x :: more ∧ ¬ Inside x := by
  cases h with
  | bar more => exact ⟨'|', more, rfl, by decide⟩
  | group more => exact ⟨')', more, rfl, by decide⟩

/-- A text does not begin with `p` because of what follows it. -/
theorem not_begins_append (ht : Closing tail) {p cs : List Char} (hp : ∀ c ∈ p, Inside c)
    (h : ∀ more, cs = p ++ more → False) : ∀ more, cs ++ tail = p ++ more → False := by
  intro more same
  obtain ⟨as, rfl, eq⟩ | ⟨bs, rfl, -⟩ := List.append_eq_append_iff.1 same
  · obtain ⟨x, others, rfl, outside⟩ := ht.exists_eq
    cases as with
    | nil => exact h [] (by simp)
    | cons a as =>
      rw [List.cons_append, List.cons.injEq] at eq
      exact outside (hp x (by simp [eq.1]))
  · exact h bs rfl

theorem takeWhile_append (ht : Closing tail) {p : Char → Bool} (hp : ∀ x, p x = true → Inside x)
    (cs : List Char) : (cs ++ tail).takeWhile p = cs.takeWhile p := by
  obtain ⟨x, more, rfl, outside⟩ := ht.exists_eq
  have stops : p x = false := eq_false_of_ne_true fun h => outside (hp x h)
  induction cs with
  | nil => simp [stops]
  | cons c cs ih => simp [List.takeWhile_cons, ih]

theorem dropWhile_append (ht : Closing tail) {p : Char → Bool} (hp : ∀ x, p x = true → Inside x)
    (cs : List Char) : (cs ++ tail).dropWhile p = cs.dropWhile p ++ tail := by
  obtain ⟨x, more, rfl, outside⟩ := ht.exists_eq
  have stops : p x = false := eq_false_of_ne_true fun h => outside (hp x h)
  induction cs with
  | nil => simp [stops]
  | cons c cs ih =>
    simp only [List.cons_append, List.dropWhile_cons, ih]
    split <;> rfl

end Closing

namespace CharSet

theorem item?_local : Local item? := by
  intro tail ht cs e rest h
  fun_cases item? cs with
  | case1 => cases h
  | case2 => cases h
  | case3 c more =>
    simp only [item?, Option.map_eq_some_iff, Prod.mk.injEq] at h
    obtain ⟨e, he, rfl, rfl⟩ := h
    simp [item?, he]
  | case4 c more hc hm =>
    have plain : c ≠ '\\' := by
      rintro rfl
      cases more with
      | nil => exact hc rfl rfl
      | cons d more => exact hm d more rfl rfl
    simp [item?, plain] at h ⊢
    exact ⟨h.1, by rw [h.2]⟩

theorem member?_local : Local member? := by
  intro tail ht cs m rest h
  simp only [member?, Option.bind_eq_bind, Option.bind_eq_some_iff] at h
  obtain ⟨⟨e, rest'⟩, he, h⟩ := h
  simp only [member?, item?_local _ ht _ _ _ he, Option.bind_eq_bind, Option.bind_some]
  split at h
  · cases h
  · next c more eq =>
    obtain rfl : rest' = _ := eq
    simp only [List.cons_append]
    split at h
    · next hc =>
      simp only [Option.bind_eq_some_iff, Option.pure_def, Option.some.injEq, Prod.mk.injEq] at h
      obtain ⟨m, hm, rfl, rfl⟩ := h
      simp [hc, hm]
    · next hc =>
      simp only [Option.bind_eq_some_iff, Option.pure_def, Option.some.injEq, Prod.mk.injEq] at h
      obtain ⟨⟨last, rest''⟩, hl, m, hm, rfl, rfl⟩ := h
      have hl := item?_local _ ht _ _ _ hl
      rw [List.cons_append] at hl
      simp [hc, hl, hm]
  · next hd hm =>
    simp only [Option.bind_eq_some_iff, Option.pure_def, Option.some.injEq, Prod.mk.injEq] at h
    obtain ⟨m, hm', rfl, rfl⟩ := h
    cases rest' with
    | nil => cases ht <;> simp [hm']
    | cons c more =>
      have plain : c ≠ '-' := by
        rintro rfl
        cases more with
        | nil => exact hd rfl
        | cons d more => exact hm d more rfl
      simp [plain, hm']

theorem members?_local {tail : List Char} (ht : Closing tail) (bound extra : List Char) :
    ∀ cs ms rest, members? bound cs = some (ms, rest) →
      members? (bound ++ extra) (cs ++ tail) = some (ms, rest ++ tail) := by
  intro cs ms rest h
  fun_induction members? bound cs generalizing ms rest with
  | case1 | case2 | case4 | case5 | case6 | case7 => cases h
  | case3 x bound more =>
    cases h
    rfl
  | case8 x bound cs h1 h2 h3 h4 h5 h6 ih =>
    simp only [Option.bind_eq_bind, Option.bind_eq_some_iff, Option.pure_def] at h
    obtain ⟨⟨m, rest'⟩, hm, ⟨ms, rest⟩, hms, ⟨⟩⟩ := h
    have hm := member?_local _ ht _ _ _ hm
    have hms := ih rest' _ _ hms
    rw [List.cons_append, members?]
    · simp [hm, hms]
    · cases ht <;> simp
    · exact fun _ => ht.not_begins_append (p := [']']) (by simp [Inside]) h2 _
    · exact fun _ => ht.not_begins_append (p := ['[']) (by simp [Inside]) h3 _
    · exact fun _ => ht.not_begins_append (p := ['&', '&']) (by simp [Inside]) h4 _
    · exact fun _ => ht.not_begins_append (p := ['-', '-']) (by simp [Inside]) h5 _
    · exact fun _ => ht.not_begins_append (p := ['~', '~']) (by simp [Inside]) h6 _

theorem negation_append {tail : List Char} (ht : Closing tail) (cs : List Char) :
    negation (cs ++ tail) = ((negation cs).1, (negation cs).2 ++ tail) := by
  cases cs with
  | nil => cases ht <;> rfl
  | cons c cs =>
    by_cases hc : c = '^'
    · subst hc
      rfl
    · simp [negation, hc]

theorem opening_append {tail : List Char} (ht : Closing tail) (cs : List Char) :
    opening (cs ++ tail) = ((opening cs).1, (opening cs).2 ++ tail) := by
  have dash (x : Char) (h : (x == '-') = true) : Inside x := by
    obtain rfl := beq_iff_eq.1 h
    decide
  simp only [opening, ht.takeWhile_append dash, ht.dropWhile_append dash]
  cases (cs.takeWhile fun c => c == '-').map Member.single with
  | cons m ms => rfl
  | nil =>
    cases cs.dropWhile fun c => c == '-' with
    | nil => cases ht <;> rfl
    | cons c cs =>
      by_cases hc : c = ']'
      · subst hc
        rfl
      · simp [hc]

theorem read?_local : Local read? := by
  intro tail ht cs s rest h
  simp only [read?, Option.bind_eq_bind, Option.bind_eq_some_iff, Option.pure_def] at h
  obtain ⟨⟨ms, rest⟩, hm, ⟨⟩⟩ := h
  simp [read?, negation_append ht, opening_append ht, members?_local ht _ tail _ _ _ hm]

end CharSet

namespace Token

theorem number_append {tail : List Char} (ht : Closing tail) (cs : List Char) :
    number (cs ++ tail) = ((number cs).1, (number cs).2 ++ tail) := by
  have blank (x : Char) (h : Text.isBlank x = true) : Inside x := by
    constructor <;> rintro rfl <;> revert h <;> decide
  have digit (x : Char) (h : x.isDigit = true) : Inside x := by
    constructor <;> rintro rfl <;> revert h <;> decide
  simp only [number, ht.takeWhile_append digit, ht.dropWhile_append blank,
    ht.dropWhile_append digit]

theorem bounds?_local : Local bounds? := by
  intro tail ht cs b rest h
  simp only [bounds?, Option.bind_eq_bind, Option.bind_eq_some_iff, Option.pure_def] at h
  obtain ⟨min, hmin, h⟩ := h
  simp only [bounds?, number_append ht, hmin, Option.bind_eq_bind, Option.bind_some,
    Option.pure_def]
  generalize (number cs).2 = more at h ⊢
  split at h
  · cases h
    rfl
  · cases h
    rfl
  · next more open_ =>
    simp only [Option.bind_eq_some_iff] at h
    obtain ⟨max, hmax, h⟩ := h
    have hn := number_append ht more
    cases more with
    | nil => cases hmax
    | cons d more =>
      have plain : d ≠ '\x7d' := fun hd => open_ more (by rw [hd])
      rw [List.cons_append] at hn
      split at h
      · next rest' hr =>
        split at h
        · next le =>
          cases h
          simp [plain, hn, hmax, hr, le]
        · cases h
      · cases h
  · cases h

theorem quantified_append {tail : List Char} (ht : Closing tail) (min : Nat) (max : Option Nat)
    (cs : List Char) : quantified min max (cs ++ tail) =
      ((quantified min max cs).1, (quantified min max cs).2 ++ tail) := by
  cases cs with
  | nil => cases ht <;> rfl
  | cons c cs =>
    by_cases hc : c = '?'
    · subst hc
      rfl
    · simp [quantified, hc]

theorem next?_local (c : Char) : Local (next? c) := by
  intro tail ht cs t rest h
  fun_cases next? c cs with
  | case1 rest =>
    cases h
    rfl
  | case2 rest _ => simp_all [next?]
  | case3 cs _ plain =>
    simp only [next?] at h
    cases h
    have plain := ht.not_begins_append (p := ['?']) (by simp [Inside]) plain
    simp only [next?]
    split
    · next eq => exact (plain _ eq).elim
    · next eq => exact (plain _ eq).elim
    · rfl
  | case4 =>
    cases h
    rfl
  | case5 =>
    cases h
    rfl
  | case6 =>
    simp only [next?, Option.map_eq_some_iff, Prod.mk.injEq] at h
    obtain ⟨⟨s, rest⟩, hs, rfl, rfl⟩ := h
    simp [next?, CharSet.read?_local _ ht _ _ _ hs]
  | case7 | case8 | case9 =>
    simp only [next?, Option.some.injEq] at h
    simp [next?, quantified_append ht, h]
  | case10 =>
    simp only [next?, Option.map_eq_some_iff] at h
    obtain ⟨⟨⟨min, max⟩, rest⟩, hb, h⟩ := h
    simp [next?, bounds?_local _ ht _ _ _ hb, quantified_append ht, h]
  | case11 => cases h
  | case12 c cs =>
    simp only [next?, Option.map_eq_some_iff, Prod.mk.injEq] at h
    obtain ⟨e, he, rfl, rfl⟩ := h
    simp [next?, he]
  | case13 | case14 | case15 =>
    cases h
    rfl
  | case16 =>
    simp_all [next?]

theorem scanFrom_mono {bound bound' cs : List Char} {ts : List Token}
    (h : scanFrom bound cs = some ts) (hb : bound.length ≤ bound'.length) :
    scanFrom bound' cs = some ts := by
  induction bound generalizing bound' cs ts with
  | nil =>
    cases cs with
    | nil =>
      cases h
      cases bound' <;> rfl
    | cons c cs => cases h
  | cons x bound ih =>
    cases bound' with
    | nil => exact nomatch hb
    | cons x' bound' =>
      cases cs with
      | nil =>
        cases h
        rfl
      | cons c cs =>
        simp only [scanFrom, Option.bind_eq_bind, Option.bind_eq_some_iff, Option.pure_def] at h ⊢
        obtain ⟨⟨t, rest⟩, ht, ts, hts, eq⟩ := h
        exact ⟨(t, rest), ht, ts, ih hts (Nat.le_of_succ_le_succ hb), eq⟩

/-- A bar or a closed parenthesis behind a text begins a token of its own. -/
theorem scanFrom_append {tail : List Char} (ht : Closing tail) {bound bound' cs : List Char}
    {ts us : List Token} (h : scanFrom bound cs = some ts) (hu : scanFrom bound' tail = some us) :
    scanFrom (bound ++ bound') (cs ++ tail) = some (ts ++ us) := by
  induction bound generalizing cs ts with
  | nil =>
    cases cs with
    | nil =>
      cases h
      exact hu
    | cons c cs => cases h
  | cons x bound ih =>
    cases cs with
    | nil =>
      cases h
      exact scanFrom_mono hu (by simp; omega)
    | cons c cs =>
      simp only [scanFrom, Option.bind_eq_bind, Option.bind_eq_some_iff, Option.pure_def] at h
      obtain ⟨⟨t, rest⟩, hr, ts, hts, ⟨⟩⟩ := h
      simp [scanFrom, next?_local c _ ht _ _ _ hr, ih hts]

theorem scan_append {tail : List Char} (ht : Closing tail) {cs : List Char} {ts us : List Token}
    (h : scan cs = some ts) (hu : scan tail = some us) : scan (cs ++ tail) = some (ts ++ us) :=
  scanFrom_append ht h hu

theorem scan_anchored {source : List Char} {ts : List Token} (h : scan source = some ts) :
    scan (anchored source) =
      some (atom 0 (.assertion .textStart) :: openGroup false :: ts ++ [closeGroup]) := by
  have more : scanFrom ('?' :: ':' :: (source ++ [')'])) (source ++ [')']) =
      some (ts ++ [closeGroup]) :=
    scanFrom_mono (scan_append (.group []) h (show scan [')'] = some [closeGroup] from rfl))
      (by simp)
  simp [anchored, scan, scanFrom, next?, more]

end Token

/-- The same open groups among others: those of the second list are inside `around`, and the
outermost of them has the branches `earlier` before its own. -/
inductive Within (numbered : Bool) (earlier : List Item) (around : List Group) :
    Group × List Group → Group × List Group → Prop
  | outermost (g : Group) :
    Within numbered earlier around (g, []) (⟨numbered, g.branches ++ earlier, g.items⟩, around)
  | inner (g : Group) {h h' : Group} {outer outer' : List Group}
    (below : Within numbered earlier around (h, outer) (h', outer')) :
    Within numbered earlier around (g, h :: outer) (g, h' :: outer')

namespace Within

variable {numbered : Bool} {earlier : List Item} {around : List Group}
  {s s' u : Group × List Group}

theorem push {g g' : Group} {outer outer' : List Group}
    (h : Within numbered earlier around (g, outer) (g', outer')) (i : Item) :
    Within numbered earlier around (g.push i, outer) (g'.push i, outer') := by
  cases h with
  | outermost => exact .outermost (g.push i)
  | inner _ below => exact .inner (g.push i) below

/-- What is open around a text does not change how it is read. -/
theorem feed? (h : Within numbered earlier around s s') {t : Token}
    (ht : Pattern.feed? s t = some u) :
    ∃ u', Pattern.feed? s' t = some u' ∧ Within numbered earlier around u u' := by
  cases t with
  | atom depth r =>
    cases ht
    exact ⟨_, rfl, h.push _⟩
  | openGroup n =>
    cases ht
    exact ⟨_, rfl, .inner (.empty n) h⟩
  | closeGroup =>
    cases h with
    | outermost => cases ht
    | inner g below =>
      cases ht
      exact ⟨_, rfl, below.push _⟩
  | bar =>
    cases ht
    cases h with
    | outermost g => exact ⟨_, rfl, .outermost g.nextBranch⟩
    | inner g below => exact ⟨_, rfl, .inner g.nextBranch below⟩
  | quantifier min max greedy =>
    obtain ⟨g', hg, rfl⟩ := Option.map_eq_some_iff.1 ht
    cases h with
    | inner g below => exact ⟨_, Option.map_eq_some_iff.2 ⟨g', hg, rfl⟩, .inner g' below⟩
    | outermost g =>
      obtain ⟨n, branches, items⟩ := g
      cases items with
      | nil => cases hg
      | cons i items =>
        obtain ⟨j, hj, rfl⟩ := Option.map_eq_some_iff.1 hg
        exact ⟨_, by simp [Pattern.feed?, Group.quantify?, hj],
          .outermost ⟨n, branches, j :: items⟩⟩

theorem foldlM (h : Within numbered earlier around s s') {ts : List Token}
    (ht : ts.foldlM Pattern.feed? s = some u) :
    ∃ u', ts.foldlM Pattern.feed? s' = some u' ∧ Within numbered earlier around u u' := by
  induction ts generalizing s s' with
  | nil =>
    cases ht
    exact ⟨s', rfl, h⟩
  | cons t ts ih =>
    rw [List.foldlM_cons, Option.bind_eq_bind, Option.bind_eq_some_iff] at ht
    obtain ⟨v, hv, ht⟩ := ht
    obtain ⟨v', hv', below⟩ := h.feed? hv
    rw [List.foldlM_cons, hv']
    exact ih below ht

/-- What is read into a group of its own is read so behind other branches. -/
theorem foldlM_empty (numbered : Bool) (earlier : List Item) (around : List Group) {g : Group}
    {ts : List Token} (n : Bool)
    (ht : ts.foldlM Pattern.feed? (Group.empty n, []) = some (g, [])) :
    ts.foldlM Pattern.feed? (⟨numbered, earlier, []⟩, around) =
      some (⟨numbered, g.branches ++ earlier, g.items⟩, around) := by
  have outer : Within numbered earlier around (Group.empty n, [])
      (⟨numbered, earlier, []⟩, around) := .outermost (.empty n)
  obtain ⟨u', hu, below⟩ := outer.foldlM ht
  cases below
  exact hu

end Within

/-- The alternatives that a pattern is written with, those inside its groups apart. -/
def alternatives? (source : List Char) : Option (List Regex) := do
  match ← (← Token.scan source).foldlM feed? (Group.empty false, []) with
  | (g, []) => return g.nextBranch.branches.reverse.map Item.regex
  | _ => none

theorem alternatives?_eq_some {source : List Char} {rs : List Regex} :
    alternatives? source = some rs ↔ ∃ ts g, Token.scan source = some ts ∧
      ts.foldlM feed? (Group.empty false, []) = some (g, []) ∧
      g.nextBranch.branches.reverse.map Item.regex = rs := by
  simp only [alternatives?, Option.bind_eq_bind, Option.bind_eq_some_iff]
  constructor
  · rintro ⟨ts, hts, ⟨g, outer⟩, hg, h⟩
    cases outer with
    | nil => exact ⟨ts, g, hts, hg, Option.some.inj h⟩
    | cons g₁ outer => cases h
  · rintro ⟨ts, g, hts, hg, rfl⟩
    exact ⟨ts, hts, (g, []), hg, rfl⟩

theorem exists_alternatives {source : List Char} (h : (Regex.ofText? source).isSome) :
    ∃ rs, alternatives? source = some rs := by
  obtain ⟨r, hr⟩ := Option.isSome_iff_exists.1 h
  simp only [Regex.ofText?, Option.bind_eq_bind, Option.bind_eq_some_iff] at hr
  obtain ⟨ts, hts, ⟨g, outer⟩, hg, hr⟩ := hr
  cases outer with
  | nil => exact ⟨_, alternatives?_eq_some.2 ⟨ts, g, hts, hg, rfl⟩⟩
  | cons g₁ outer => cases hr

theorem Regex.ofBranches_singleton (r : Regex) : ofBranches [r] = r := rfl

/-- What is compiled for a pattern with alternatives of its own is the anchor and then these. -/
theorem compile?_eq {source : List Char} {rs : List Regex} {p : Pattern}
    (hr : alternatives? source = some rs) (hp : compile? source = some p) :
    p = ⟨source, .ofRegex (.ofItems [.assertion .textStart, .ofBranches rs])⟩ := by
  obtain ⟨ts, g, hts, hg, rfl⟩ := alternatives?_eq_some.1 hr
  obtain ⟨r, hr, rfl⟩ := Option.map_eq_some_iff.1 hp
  have inside := Within.foldlM_empty false []
    [(Group.empty false).push ⟨.assertion .textStart, 0⟩] false hg
  simp only [Regex.ofText?, Token.scan_anchored hts, Option.bind_eq_bind, Option.bind_some,
    List.cons_append, List.foldlM_cons, feed?, List.foldlM_append, List.foldlM_nil] at hr
  simp only [Group.empty] at inside hr
  rw [inside] at hr
  simp only [Option.bind_some, Option.pure_def, Option.ite_none_right_eq_some,
    Option.some.injEq] at hr
  obtain ⟨-, rfl⟩ := hr
  simp [Group.content, Group.nextBranch, Group.push, Item.ofItems, Item.ofBranches,
    Item.group, Regex.ofBranches_singleton]

namespace Regex

theorem atStart_ofItems_textStart (r : Regex) :
    (ofItems [assertion .textStart, r]).atStart = true := by
  cases r <;> rfl

end Regex

/-- A pattern that is well formed on its own is anchored. -/
theorem atStart_of_wellFormed {source : List Char} {p : Pattern}
    (h : (Regex.ofText? source).isSome) (hp : compile? source = some p) :
    p.program.atStart = true := by
  obtain ⟨rs, hrs⟩ := exists_alternatives h
  rw [compile?_eq hrs hp]
  exact Regex.atStart_ofItems_textStart _

/-- What a pattern that is well formed on its own finds begins where it was tried. -/
theorem search_of_wellFormed {source : List Char} {p : Pattern}
    (h : (Regex.ofText? source).isSome) (hp : compile? source = some p) (cs : List Char) :
    ∀ m ∈ p.search cs, m.1 = 0 := Program.search_start (atStart_of_wellFormed h hp) cs

end TextParsing.Pattern
