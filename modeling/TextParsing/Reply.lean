import TextParsing.Failure

/-!
What running a parser gives back: how it ended, and what was logged on the way. Parsers do not look
at the log, so what its entries are is left open. All parsers are put together with `Reply.handle`,
which lets the next step see a success or a recoverable failure and never a committed one.
-/

namespace TextParsing

universe u v w

inductive Outcome (α : Type u)
  | success (a : α)
  | failure (f : Failure)
  /-- No end was reached within the bound that is enough for every parser that ends. -/
  | unfinished

/-- An outcome, and the entries of the log, in order. -/
structure Reply (ε : Type) (α : Type u) where
  log : List ε
  outcome : Outcome α

namespace Reply

variable {ε : Type} {α : Type u} {β : Type v} {γ : Type w}

@[inline] def success (a : α) : Reply ε α := ⟨[], .success a⟩

@[inline] def failure (f : Failure) : Reply ε α := ⟨[], .failure f⟩

def unfinished : Reply ε α := ⟨[], .unfinished⟩

/-- The reply `r`, with `earlier` entries before its own. -/
@[inline] def after (earlier : List ε) (r : Reply ε α) : Reply ε α :=
  ⟨earlier ++ r.log, r.outcome⟩

/-- Go on from a success with one function and from a recoverable failure with the other. -/
@[inline] def handle (r : Reply ε α) (onSuccess : α → Reply ε β)
    (onRecoverable : Failure → Reply ε β) : Reply ε β :=
  match r.outcome with
  | .success a => (onSuccess a).after r.log
  | .failure f =>
    if f.committed then ⟨r.log, .failure f⟩ else (onRecoverable f).after r.log
  | .unfinished => ⟨r.log, .unfinished⟩

@[inline] def bind (r : Reply ε α) (k : α → Reply ε β) : Reply ε β := r.handle k failure

@[inline] def recover (r : Reply ε α) (k : Failure → Reply ε α) : Reply ε α := r.handle success k

@[inline] def map (g : α → β) (r : Reply ε α) : Reply ε β := r.bind fun a => success (g a)

@[inline] def mapFailure (g : Failure → Failure) (r : Reply ε α) : Reply ε α :=
  match r.outcome with
  | .failure f => ⟨r.log, .failure (g f)⟩
  | _ => r

/-- Make a failure committed and log what `note` says of its place, unless it is committed
already. -/
@[inline] def commit (note : Location → List ε) (r : Reply ε α) : Reply ε α :=
  match r.outcome with
  | .failure f =>
    if f.committed then r else ⟨r.log ++ note f.location, .failure f.commit⟩
  | _ => r

@[simp] theorem log_mapFailure (g : Failure → Failure) (r : Reply ε α) :
    (r.mapFailure g).log = r.log := by
  unfold mapFailure
  split <;> rfl

@[simp] theorem log_map (g : α → β) (r : Reply ε α) : (r.map g).log = r.log := by
  obtain ⟨xs, o⟩ := r
  cases o with
  | success a => exact List.append_nil xs
  | failure f => cases hf : f.committed <;> simp [map, bind, handle, failure, after, hf]
  | unfinished => rfl

@[simp] theorem after_nil (r : Reply ε α) : r.after [] = r := rfl

theorem after_after (xs ys : List ε) (r : Reply ε α) :
    (r.after ys).after xs = r.after (xs ++ ys) := by
  simp [after]

@[simp] theorem handle_success (a : α) (k : α → Reply ε β) (h : Failure → Reply ε β) :
    (success a).handle k h = k a := rfl

@[simp] theorem handle_failure_recoverable {f : Failure} (hf : f.committed = false)
    (k : α → Reply ε β) (h : Failure → Reply ε β) : (failure f).handle k h = h f := by
  simp [handle, failure, hf, after]

@[simp] theorem handle_failure_committed {f : Failure} (hf : f.committed = true)
    (k : α → Reply ε β) (h : Failure → Reply ε β) : (failure f).handle k h = failure f := by
  simp [handle, failure, hf]

theorem handle_of_success {r : Reply ε α} {a : α} (hr : r.outcome = .success a)
    (k : α → Reply ε β) (h : Failure → Reply ε β) : r.handle k h = (k a).after r.log := by
  simp only [handle, hr]

theorem handle_of_recoverable {r : Reply ε α} {f : Failure} (hr : r.outcome = .failure f)
    (hf : f.committed = false) (k : α → Reply ε β) (h : Failure → Reply ε β) :
    r.handle k h = (h f).after r.log := by
  simp only [handle, hr, hf, Bool.false_eq_true, if_false]

theorem handle_of_committed {r : Reply ε α} {f : Failure} (hr : r.outcome = .failure f)
    (hf : f.committed = true) (k : α → Reply ε β) (h : Failure → Reply ε β) :
    r.handle k h = ⟨r.log, .failure f⟩ := by
  simp only [handle, hr, hf, if_true]

theorem handle_after (xs : List ε) (r : Reply ε α) (k : α → Reply ε β)
    (h : Failure → Reply ε β) : (r.after xs).handle k h = (r.handle k h).after xs := by
  obtain ⟨ys, o⟩ := r
  cases o with
  | success a => simp [handle, after]
  | failure f => cases hf : f.committed <;> simp [handle, after, hf]
  | unfinished => simp [handle, after]

theorem bind_after (xs : List ε) (r : Reply ε α) (k : α → Reply ε β) :
    (r.after xs).bind k = (r.bind k).after xs := handle_after xs r k failure

@[simp] theorem success_bind (a : α) (k : α → Reply ε β) : (success a).bind k = k a := rfl

@[simp] theorem failure_bind (f : Failure) (k : α → Reply ε β) :
    (failure f : Reply ε α).bind k = failure f := by
  cases hf : f.committed <;> simp [bind, hf]

@[simp] theorem bind_success (r : Reply ε α) : r.bind success = r := by
  obtain ⟨xs, o⟩ := r
  cases o with
  | success a => simp [bind, handle, success, after]
  | failure f => cases hf : f.committed <;> simp [bind, handle, failure, after, hf]
  | unfinished => rfl

theorem bind_assoc (r : Reply ε α) (k : α → Reply ε β) (l : β → Reply ε γ) :
    (r.bind k).bind l = r.bind fun a => (k a).bind l := by
  obtain ⟨xs, o⟩ := r
  cases o with
  | success a => exact bind_after xs (k a) l
  | failure f =>
    cases hf : f.committed <;> simp [bind, handle, failure, after, hf]
  | unfinished => rfl

@[simp] theorem map_bind (g : α → β) (r : Reply ε α) (k : β → Reply ε γ) :
    (r.map g).bind k = r.bind fun a => k (g a) := bind_assoc ..

@[simp] theorem bind_map (r : Reply ε α) (k : α → Reply ε β) (g : β → γ) :
    (r.bind k).map g = r.bind fun a => (k a).map g := bind_assoc ..

@[simp] theorem map_map (g : α → β) (h : β → γ) (r : Reply ε α) :
    (r.map g).map h = r.map fun a => h (g a) := bind_assoc ..

@[simp] theorem map_success (g : α → β) (a : α) :
    (success a : Reply ε α).map g = success (g a) := rfl

theorem map_handle (g : β → γ) (r : Reply ε α) (k : α → Reply ε β) (h : Failure → Reply ε β) :
    (r.handle k h).map g = r.handle (fun a => (k a).map g) fun f => (h f).map g := by
  obtain ⟨xs, o⟩ := r
  cases o with
  | success a => exact bind_after xs (k a) _
  | failure f =>
    cases hf : f.committed
    · simp only [handle, hf]; exact bind_after xs (h f) _
    · simp [map, bind, handle, hf]
  | unfinished => rfl

theorem handle_map (g : α → β) (r : Reply ε α) (k : β → Reply ε γ) (h : Failure → Reply ε γ) :
    (r.map g).handle k h = r.handle (fun a => k (g a)) h := by
  obtain ⟨xs, o⟩ := r
  cases o with
  | success a => simp [map, bind, handle, success, after]
  | failure f => cases hf : f.committed <;> simp [map, bind, handle, failure, after, hf]
  | unfinished => rfl

end Reply

end TextParsing
