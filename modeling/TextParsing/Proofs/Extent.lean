import TextParsing.Grammar.Meaning
import TextParsing.Proofs.Reading

/-!
What a run covers. A parser that succeeds has read on from where it was run, and the range of its
parse is what it has read; a parser that fails points at a place that it has read up to.
-/

namespace TextParsing

universe u v w

section

variable {ε : Type} {α : Type u} {β : Type v}

namespace Reply

/-- If the reply has an end, it is a success that satisfies `P` or a failure that satisfies `Q`. -/
def Ends (P : α → Prop) (Q : Failure → Prop) (r : Reply ε α) : Prop :=
  match r.outcome with
  | .success a => P a
  | .failure f => Q f
  | .unfinished => True

variable {P : α → Prop} {P' : β → Prop} {Q : Failure → Prop} {r : Reply ε α}

theorem Ends.of_success (h : r.Ends P Q) {a : α} (ha : r.outcome = .success a) : P a := by
  rwa [Ends, ha] at h

theorem Ends.of_failure (h : r.Ends P Q) {f : Failure} (hf : r.outcome = .failure f) : Q f := by
  rwa [Ends, hf] at h

theorem Ends.mono {P₁ : α → Prop} {Q₁ : Failure → Prop} (h : r.Ends P Q) (hP : ∀ a, P a → P₁ a)
    (hQ : ∀ f, Q f → Q₁ f) : r.Ends P₁ Q₁ := by
  obtain ⟨xs, o⟩ := r
  cases o with
  | success a => exact hP a h
  | failure f => exact hQ f h
  | unfinished => trivial

theorem Ends.handle {k : α → Reply ε β} {l : Failure → Reply ε β} (h : r.Ends P Q)
    (hk : ∀ a, P a → (k a).Ends P' Q) (hl : ∀ f, Q f → (l f).Ends P' Q) :
    (r.handle k l).Ends P' Q := by
  obtain ⟨xs, o⟩ := r
  cases o with
  | success a => exact hk a h
  | failure f =>
    cases hf : f.committed with
    | true => simpa [Reply.handle, Ends, hf] using h
    | false => simpa [Reply.handle, Ends, after, hf] using hl f h
  | unfinished => trivial

theorem Ends.bind {k : α → Reply ε β} (h : r.Ends P Q) (hk : ∀ a, P a → (k a).Ends P' Q) :
    (r.bind k).Ends P' Q := h.handle hk fun _ hf => hf

theorem Ends.map {g : α → β} (h : r.Ends P Q) (hg : ∀ a, P a → P' (g a)) :
    (r.map g).Ends P' Q := h.bind hg

theorem Ends.recover {l : Failure → Reply ε α} (h : r.Ends P Q)
    (hl : ∀ f, Q f → (l f).Ends P Q) : (r.recover l).Ends P Q := h.handle (fun _ ha => ha) hl

theorem Ends.mapFailure {g : Failure → Failure} (h : r.Ends P Q) (hg : ∀ f, Q f → Q (g f)) :
    (r.mapFailure g).Ends P Q := by
  obtain ⟨xs, o⟩ := r
  cases o with
  | success a => exact h
  | failure f => exact hg f h
  | unfinished => trivial

theorem Ends.commit {note : Location → List ε} (h : r.Ends P Q) (hc : ∀ f, Q f → Q f.commit) :
    (r.commit note).Ends P Q := by
  obtain ⟨xs, o⟩ := r
  cases o with
  | success a => exact h
  | failure f =>
    cases hf : f.committed with
    | true => simpa [Reply.commit, hf] using h
    | false => simpa [Reply.commit, Ends, hf] using hc f h
  | unfinished => trivial

end Reply

/-- The parse has read on from `c`, and its range is what it has read. -/
structure Parse.From (c : Cursor) (t : Parse α) : Prop where
  reaches : c.Reaches t.rest
  range : t.range = ⟨c.location, t.rest.location⟩

theorem Parse.from_spanning {c d : Cursor} (a : α) (h : c.Reaches d) :
    (Parse.spanning a c d).From c := ⟨h, rfl⟩

theorem Parse.from_empty (a : α) (c : Cursor) : (Parse.empty a c).From c := ⟨.refl c, rfl⟩

namespace Parser

/-- Every run of the parser covers what it has read, and fails at a place it has read up to. -/
def Sound (p : Parser ε α) : Prop :=
  ∀ c, (p.run c).Ends (Parse.From c) fun f => c.Reaches f.cursor

variable {p : Parser ε α} {q : Parser ε β}

/-- A parser that is run further on reads on from there. -/
theorem Sound.after (hp : p.Sound) {c d : Cursor} (h : c.Reaches d) :
    (p.run d).Ends (fun t => c.Reaches t.rest) fun f => c.Reaches f.cursor :=
  (hp d).mono (fun _ ht => h.trans ht.reaches) fun _ hf => h.trans hf

theorem succeed_sound (a : α) : (succeed a : Parser ε α).Sound := Parse.from_empty a

theorem Sound.map {g : α → β} (hp : p.Sound) : (p.map g).Sound := fun c =>
  (hp c).map fun _ ht => ⟨ht.reaches, ht.range⟩

theorem Sound.mapWithRange {g : α → Range → β} (hp : p.Sound) : (p.mapWithRange g).Sound := fun c =>
  (hp c).map fun _ ht => ⟨ht.reaches, ht.range⟩

theorem Sound.filterMap {g : α → Option β} {d : Option String} (hp : p.Sound) :
    (p.filterMap g d).Sound := fun c => (hp c).bind fun t ht => by
  cases g t.target with
  | some b => exact ⟨ht.reaches, ht.range⟩
  | none => exact .refl c

theorem Sound.bindWithRange {k : α → Range → Parser ε β} (hp : p.Sound)
    (hk : ∀ a r, (k a r).Sound) : (p.bindWithRange k).Sound := fun c =>
  (hp c).bind fun t ht => ((hk t.target t.range).after ht.reaches).map fun u hu =>
    Parse.from_spanning u.target hu

theorem Sound.bind {k : α → Parser ε β} (hp : p.Sound) (hk : ∀ a, (k a).Sound) :
    (p.bind k).Sound := by
  rw [bind_eq_bindWithRange]
  exact hp.bindWithRange fun a _ => hk a

theorem Sound.andThen {γ : Type w} {g : α → β → Range → γ} (hp : p.Sound) (hq : q.Sound) :
    (andThen g p q).Sound := fun c =>
  (hp c).bind fun _ ht => (hq.after ht.reaches).map fun _ hu => Parse.from_spanning _ hu

theorem Sound.orElse {q : Parser ε α} (hp : p.Sound) (hq : q.Sound) : (p.orElse q).Sound :=
  fun c => (hp c).recover fun _ _ => hq c

theorem Sound.commit {note : Location → List ε} (hp : p.Sound) : (p.commit note).Sound :=
  fun c => (hp c).commit fun _ hf => hf

theorem Sound.tag {d : String} (hp : p.Sound) : (p.tag d).Sound := fun c =>
  (hp c).mapFailure fun f hf => by simpa using hf

theorem Sound.lexeme (hp : p.Sound) : p.lexeme.Sound := fun c =>
  (hp c).map fun _ ht => ⟨ht.reaches, ht.range⟩

theorem Sound.withDefault {a : α} (hp : p.Sound) : (p.withDefault a).Sound := fun c =>
  (hp c).recover fun _ _ => Parse.from_empty a c

theorem Sound.repeatFrom (hp : p.Sound) {c : Cursor} (bound : List Char) {d : Cursor}
    (h : c.Reaches d) :
    (repeatFrom p bound d).Ends (fun x => c.Reaches x.2) fun f => c.Reaches f.cursor := by
  induction bound generalizing d with
  | nil => trivial
  | cons x bound ih =>
    refine (hp.after h).handle (fun t ht => ?_) fun _ _ => h
    split
    · exact h
    · exact (ih ht).map fun _ hx => hx

theorem Sound.many (hp : p.Sound) : p.many.Sound := fun c =>
  (hp.repeatFrom _ (.refl c)).map fun _ hx => Parse.from_spanning _ hx

theorem Sound.many1 (hp : p.Sound) : p.many1.Sound := fun c =>
  (hp c).bind fun _ ht => (hp.repeatFrom _ ht.reaches).map fun _ hx => Parse.from_spanning _ hx

theorem Sound.timesFrom (hp : p.Sound) {c : Cursor} (n : Nat) {d : Cursor} (h : c.Reaches d) :
    (timesFrom p n d).Ends (fun x => c.Reaches x.2) fun f => c.Reaches f.cursor := by
  induction n generalizing d with
  | zero => exact h
  | succ n ih => exact (hp.after h).bind fun _ ht => (ih ht).map fun _ hx => hx

theorem Sound.times {n : Nat} (hp : p.Sound) : (times n p).Sound := fun c =>
  (hp.timesFrom n (.refl c)).map fun _ hx => Parse.from_spanning _ hx

theorem Sound.sepBy1 (hp : p.Sound) (hq : q.Sound) : (sepBy1 p q).Sound := fun c =>
  (hp c).bind fun _ ht => ((hq.andThen hp).repeatFrom _ ht.reaches).map fun _ hx =>
    Parse.from_spanning _ hx

theorem Sound.sepBy (hp : p.Sound) (hq : q.Sound) : (sepBy p q).Sound := (hp.sepBy1 hq).withDefault

theorem Sound.linksFrom (hp : p.Sound) (hq : q.Sound) {c : Cursor} (bound : List Char) {d : Cursor}
    (h : c.Reaches d) :
    (linksFrom p q bound d).Ends (fun links => ∀ l ∈ links, c.Reaches l.2.rest)
      fun f => c.Reaches f.cursor := by
  induction bound generalizing d with
  | nil => trivial
  | cons x bound ih =>
    have none : (Reply.success [] : Reply ε (List (β × Parse α))).Ends
        (fun links => ∀ l ∈ links, c.Reaches l.2.rest) fun f => c.Reaches f.cursor :=
      fun _ hl => nomatch hl
    refine (hq.after h).handle (fun o ho => ?_) fun _ _ => none
    refine (hp.after ho).handle (fun t ht => ?_) fun _ _ => none
    exact (ih ht).map fun links hl => List.forall_mem_cons.2 ⟨ht, hl⟩

theorem reaches_endOf {c d : Cursor} {links : List (β × Parse α)} (h : c.Reaches d)
    (hl : ∀ l ∈ links, c.Reaches l.2.rest) : c.Reaches (endOf d links) := by
  simp only [endOf]
  split
  · next hs => exact hl _ (List.mem_of_getLast? hs)
  · exact h

theorem Sound.chainLeft {g : β → α → α → Range → α} (hp : p.Sound) (hq : q.Sound) :
    (chainLeft g p q).Sound := fun c =>
  (hp c).bind fun _ ht => (hp.linksFrom hq _ ht.reaches).map fun _ hl =>
    Parse.from_spanning _ (reaches_endOf ht.reaches hl)

theorem Sound.chainRight {g : β → α → α → Range → α} (hp : p.Sound) (hq : q.Sound) :
    (chainRight g p q).Sound := fun c =>
  (hp c).bind fun _ ht => (hp.linksFrom hq _ ht.reaches).map fun _ hl =>
    Parse.from_spanning _ (reaches_endOf ht.reaches hl)

theorem Sound.suffixesFrom (hq : q.Sound) {c : Cursor} (bound : List Char) {d : Cursor}
    (h : c.Reaches d) :
    (suffixesFrom q bound d).Ends (fun ss => ∀ s ∈ ss, c.Reaches s.rest)
      fun f => c.Reaches f.cursor := by
  induction bound generalizing d with
  | nil => trivial
  | cons x bound ih =>
    refine (hq.after h).handle (fun t ht => ?_) fun _ _ _ hs => nomatch hs
    exact (ih ht).map fun ss hs => List.forall_mem_cons.2 ⟨ht, hs⟩

theorem Sound.chainSuffix {g : β → α → Range → α} (hp : p.Sound) (hq : q.Sound) :
    (chainSuffix g p q).Sound := fun c =>
  (hp c).bind fun t ht => (hq.suffixesFrom _ ht.reaches).map fun ss hs => by
    apply Parse.from_spanning
    split
    · next hl => exact hs _ (List.mem_of_getLast? hl)
    · exact ht.reaches

theorem char_sound (k : CharClass) : (char k : Parser ε Char).Sound := fun c => by
  simp only [char]
  split
  · next x rest hx =>
    split
    · exact Parse.from_spanning x ⟨_, Cursor.reads_of_advance hx⟩
    · exact .refl c
  · exact .refl c

theorem peek_sound (k : CharClass) : (peek k : Parser ε Bool).Sound := fun c =>
  Parse.from_empty (c.peek.any k.test) c

theorem token_sound (cs : List Char) : (token cs : Parser ε (List Char)).Sound := fun c => by
  simp only [token]
  split
  · next h =>
    obtain ⟨ds, hd⟩ := List.isPrefixOf_iff_prefix.1 h
    exact Parse.from_spanning cs ⟨cs, Cursor.reads_consume hd.symm⟩
  · exact .refl c

theorem pattern_sound (p : Pattern) : (pattern p : Parser ε (List Char)).Sound := fun c => by
  simp only [pattern]
  split
  · exact Parse.from_spanning _ ⟨_, Cursor.reads_consume (List.take_append_drop _ _).symm⟩
  · exact .refl c

theorem endOfText_sound : (endOfText : Parser ε Unit).Sound := fun c => by
  simp only [endOfText]
  split
  · exact Parse.from_empty () c
  · exact .refl c

theorem failWith_sound {f : Cursor → Failure} (hf : ∀ c, (f c).cursor = c) :
    (failWith f : Parser ε α).Sound := fun c => by
  change c.Reaches (f c).cursor
  rw [hf]
  exact .refl c

theorem unroll_sound {body : Parser ε α → Parser ε α} (hb : ∀ q, q.Sound → (body q).Sound)
    (n : Nat) : (Parser.mk (unroll body n)).Sound := by
  induction n with
  | zero => exact fun _ => trivial
  | succ n ih => exact fun c => hb _ ih c

end Parser

end

namespace Grammar

variable {n : Nat} {ε : Type} {R : Recorder n ε}

theorem watch_sound {k : Nat} {a : Grammar n k} {p : Parser ε Value} (hp : p.Sound) :
    (R.watch a p).Sound := hp

theorem toParser_sound {depth : Nat} {rules : Fin n → Parser ε Value} (hr : ∀ i, (rules i).Sound)
    {k : Nat} (a : Grammar n k) {h : Fin k → Parser ε Value} (hh : ∀ i, (h i).Sound) :
    (a.toParser R depth rules h).Sound := by
  induction a with
  | succeed v => exact Parser.succeed_sound v
  | failHere f => exact Parser.failWith_sound fun _ => rfl
  | char s => exact (Parser.char_sound s).map
  | peek s => exact (Parser.peek_sound s).map
  | token cs => exact (Parser.token_sound cs).map
  | pattern p => exact (Parser.pattern_sound p).map
  | endOfText => exact Parser.endOfText_sound.map
  | mapWithRange g a ih => exact (watch_sound (ih hh)).mapWithRange
  | filterMap g d a ih => exact (watch_sound (ih hh)).filterMap
  | bindWithRange a next iha ihn =>
    exact (watch_sound (iha hh)).bindWithRange fun v r => watch_sound (ihn v r hh)
  | andThen g a b iha ihb => exact (watch_sound (iha hh)).andThen (watch_sound (ihb hh))
  | orElse a b iha ihb => exact (watch_sound (iha hh)).orElse (watch_sound (ihb hh))
  | commit a ih => exact (watch_sound (ih hh)).commit
  | tag d a ih => exact (watch_sound (ih hh)).tag
  | lexeme a ih => exact (watch_sound (ih hh)).lexeme.map
  | withDefault v a ih => exact (watch_sound (ih hh)).withDefault
  | many a ih => exact (watch_sound (ih hh)).many.map
  | many1 a ih => exact (watch_sound (ih hh)).many1.map
  | times m a ih => exact (watch_sound (ih hh)).times.map
  | sepBy1 a sep iha ihs => exact ((watch_sound (iha hh)).sepBy1 (watch_sound (ihs hh))).map
  | sepBy a sep iha ihs => exact ((watch_sound (iha hh)).sepBy (watch_sound (ihs hh))).map
  | chainLeft g a o iha iho => exact (watch_sound (iha hh)).chainLeft (watch_sound (iho hh))
  | chainRight g a o iha iho => exact (watch_sound (iha hh)).chainRight (watch_sound (iho hh))
  | chainSuffix g a s iha ihs => exact (watch_sound (iha hh)).chainSuffix (watch_sound (ihs hh))
  | recursive body ih =>
    exact Parser.unroll_sound (fun q hq => watch_sound (ih (Fin.cases hq hh))) depth
  | ref i => exact hh i
  | dangling => exact Parser.failWith_sound fun _ => rfl
  | rule i => exact hr i

variable (R) in
theorem runRule_sound (rules : Rules n) (depth m : Nat) (i : Fin n) :
    (Parser.mk (runRule R rules depth m i)).Sound := by
  induction m generalizing i with
  | zero => exact fun _ => trivial
  | succ m ih => exact watch_sound (toParser_sound ih (rules i) nofun)

variable (R) in
theorem recordedAt_sound (rules : Rules n) (depth : Nat) (a : Grammar n 0) :
    (a.recordedAt R rules depth).Sound := toParser_sound (runRule_sound R rules depth depth) a nofun

end Grammar

/-- What is known of a parse from a cursor `c` on a text. -/
structure Parse.Covers {α : Type u} (text : List Char) (c : Cursor) (t : Parse α) : Prop where
  rest_on : t.rest.On text
  offset_le : c.offset ≤ t.rest.offset
  boundary : ∃ cs ds, text = cs ++ ds ∧ t.rest.offset = Text.byteLength cs
  start_eq : t.range.start = c.location
  stop_eq : t.range.stop = t.rest.location
  start_le_stop : t.range.start ≤ t.range.stop
  between : c.rest = c.sliceTo t.rest ++ t.rest.rest
  length_eq : t.range.length = (c.sliceTo t.rest).length
  isEmpty_iff : t.range.isEmpty = true ↔ (t.rest == c) = true

theorem Parse.From.covers {α : Type u} {text : List Char} {c : Cursor} {t : Parse α}
    (h : t.From c) (hc : c.On text) : t.Covers text c := by
  obtain ⟨cs, hcs⟩ := h.reaches
  have on := hc.reaches h.reaches
  obtain ⟨ds, hds, offset⟩ := on.boundary
  exact {
    rest_on := on
    offset_le := hcs.offset_le
    boundary := ⟨ds, _, hds, offset⟩
    start_eq := by rw [h.range]
    stop_eq := by rw [h.range]
    start_le_stop := by rw [h.range]; exact hcs.location_le
    between := by rw [hcs.sliceTo]; exact hcs.rest
    length_eq := by rw [h.range, hcs.length_range, hcs.sliceTo]
    isEmpty_iff := by rw [h.range, hcs.isEmpty_range, hcs.beq_iff] }

namespace Grammar

/-- The extent of every run, from any cursor on a text: a parse covers what has been read, and a
failure points at a cursor on the text that is not before the one the run began at. -/
theorem run_extent {n : Nat} (rules : Rules n) (depth : Nat) (a : Grammar n 0)
    (text : List Char) (k : Nat) :
    let c := (Cursor.ofText text).drop k
    ((a.parserAt rules depth).run c).Ends (Parse.Covers text c) fun f =>
      f.cursor.On text ∧ c.offset ≤ f.cursor.offset := by
  intro c
  have hc : c.On text := ⟨k, rfl⟩
  refine (recordedAt_sound .commits rules depth a c).mono (fun t ht => ht.covers hc) fun f hf => ?_
  obtain ⟨cs, hcs⟩ := hf
  exact ⟨hc.reaches ⟨cs, hcs⟩, hcs.offset_le⟩

end Grammar

end TextParsing
