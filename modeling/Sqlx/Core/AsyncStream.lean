import Sqlx.Lib.Panic
import Sqlx.Lib.Stutter

/-!
# Core — `TryAsyncStream` (`sqlx-core/src/ext/async_stream.rs`)

`try_stream!` turns a block into a stream. The block runs as a future that
shares a one-value slot with the stream. `r#yield!(v)` puts `v` into the
slot, then suspends the future once with `Pending` and no wakeup registered.
`poll_next` polls the future: on `Pending` it takes the value from the slot
and hands it out as `Ready(Some(Ok(v)))`, and only an empty slot makes it
`Pending`. The future's `Ready(Err(e))` is `Ready(Some(Err(e)))`, and once the
future has returned, `Fuse` makes every poll `Ready(None)`.

A body is modelled as what it does from where it stands: return, yield, or
await an inner future that is `Pending` on a number of polls, each after
registering a wakeup, and is then `Ready`. The rest of the body may depend on
that future's output.

The abstract model is a generator. It hands out `Body.outputs` in order, then
`None` forever (`Stutter.listThen none`). `pollNext_refines` says that
`poll_next` refines it. A `Pending` of the stream is a silent step, and the
inner futures' pendings pay for it. The slot is empty between polls, so the
`debug_assert!` in `r#yield` never fails.
-/

namespace Sqlx.AsyncStream

open Panic

/-- `Poll<T>`. -/
inductive Poll (α : Type) where
  | ready (value : α)
  | pending
  deriving DecidableEq, Repr

/-- The value of a `Ready`. -/
def Poll.toOption {α : Type} : Poll α → Option α
  | .ready value => some value
  | .pending => none

/-- A future the body awaits: `Pending` on its next `pendings` polls, each
after registering the task's waker, then `Ready` with `output`. -/
structure Inner (A : Type) where
  pendings : Nat
  output : A

/-- A `try_stream!` body, from where it stands. -/
inductive Body (T E A : Type) where
  /-- The end of the block: `Ok(())`, or an `Err(e)` returned or propagated by `?`. -/
  | ret (result : Except E Unit)
  /-- `r#yield!(value)`, then the rest. -/
  | yield (value : T) (rest : Body T E A)
  /-- `fut.await`, then the rest, given the future's output. -/
  | await (fut : Inner A) (rest : A → Body T E A)

section Model

variable {T E A : Type}

/-- The first poll of `Yielder::r#yield(value)`: `replace(value)` into the
slot, and `debug_assert!(replaced.is_none())`, a panic if the slot held a
value. The `poll_fn` then sets `yielded` and returns `Pending`, and
registers no wakeup. -/
def Yielder.yieldFirst (slot : Option T) (value : T) : Option (Option T) :=
  if slot.isNone then some (some value) else none

/-- `Yielder::take`: the value out of the slot, and the slot emptied. -/
def Yielder.take (slot : Option T) : Option T × Option T := (slot, none)

/-- Where the generating future stands between polls. -/
inductive Gen (T E A : Type) where
  /-- At the start of a body: the block not yet polled, or an inner future's
  `await` to poll again. -/
  | run (b : Body T E A)
  /-- Inside `r#yield`'s `poll_fn`, polled once (`yielded = true`), with the
  rest of the body after it. -/
  | yielded (rest : Body T E A)

/-- What one poll of the generating future returns. -/
inductive GenPoll (T E A : Type) where
  | ready (result : Except E Unit)
  | pending (gen : Gen T E A)

/-- One poll of a body: it runs until it returns, yields, or awaits a future
that is not ready. The result is what the poll returns, the slot, and whether
an inner future registered a wakeup. -/
def Body.poll : Body T E A → Option T → Option (GenPoll T E A × Option T × Bool)
  | .ret result, slot => pure (.ready result, slot, false)
  | .yield value rest, slot => do
    let slot ← Yielder.yieldFirst slot value
    pure (.pending (.yielded rest), slot, false)
  | .await fut rest, slot =>
    match fut.pendings with
    | 0 => (rest fut.output).poll slot
    | n + 1 => pure (.pending (.run (.await ⟨n, fut.output⟩ rest)), slot, true)

/-- One poll of the generating future. Inside `r#yield`, the `poll_fn`'s
second poll is `Ready(())`, and the body goes on. -/
def Gen.poll : Gen T E A → Option T → Option (GenPoll T E A × Option T × Bool)
  | .run b, slot => b.poll slot
  | .yielded rest, slot => rest.poll slot

/-- `TryAsyncStream`: the slot that the yielder shares with the body's copy,
and the fused future, `none` once it has returned `Ready`. -/
structure TryAsyncStream (T E A : Type) where
  slot : Option T
  future : Option (Gen T E A)

/-- `TryAsyncStream::new(f)`: an empty slot, and the body not yet polled. -/
def TryAsyncStream.new (b : Body T E A) : TryAsyncStream T E A := ⟨none, some (.run b)⟩

/-- `poll_next`, with whether a wakeup was registered during it. -/
def TryAsyncStream.pollNext (self : TryAsyncStream T E A) :
    Option ((Poll (Option (Except E T)) × Bool) × TryAsyncStream T E A) :=
  match self.future with
  | none => pure ((.ready none, false), self)
  | some gen => do
    let (p, slot, registered) ← gen.poll self.slot
    match p with
    | .ready (.ok ()) => pure ((.ready none, registered), ⟨slot, none⟩)
    | .ready (.error e) => pure ((.ready (some (.error e)), registered), ⟨slot, none⟩)
    | .pending gen' =>
      match Yielder.take slot with
      | (some v, slot') => pure ((.ready (some (.ok v)), registered), ⟨slot', some gen'⟩)
      | (none, slot') => pure ((.pending, registered), ⟨slot', some gen'⟩)

end Model

/-! ## The generator the stream stands for -/

section Generator

variable {T E A : Type}

/-- What a body's end hands out: nothing for `Ok(())`, the error for `Err(e)`. -/
def endOutputs : Except E Unit → List (Option (Except E T))
  | .ok () => []
  | .error e => [some (.error e)]

/-- What a generator with this body hands out, in order: `Some(Ok(v))` for
each value yielded, then `Some(Err(e))` if the body fails. -/
def Body.outputs : Body T E A → List (Option (Except E T))
  | .ret result => endOutputs result
  | .yield value rest => some (.ok value) :: rest.outputs
  | .await fut rest => (rest fut.output).outputs

/-- The polls on which the futures the body awaits are not ready. -/
def Body.pendings : Body T E A → Nat
  | .ret _ => 0
  | .yield _ rest => rest.pendings
  | .await fut rest => fut.pendings + (rest fut.output).pendings

def Gen.outputs : Gen T E A → List (Option (Except E T))
  | .run b => b.outputs
  | .yielded rest => rest.outputs

def Gen.pendings : Gen T E A → Nat
  | .run b => b.pendings
  | .yielded rest => rest.pendings

/-- What the stream has still to hand out before `None` forever. -/
def TryAsyncStream.outputs (s : TryAsyncStream T E A) : List (Option (Except E T)) :=
  match s.future with
  | none => []
  | some gen => gen.outputs

def TryAsyncStream.pendings (s : TryAsyncStream T E A) : Nat :=
  match s.future with
  | none => 0
  | some gen => gen.pendings

@[simp] theorem TryAsyncStream.outputs_none (slot : Option T) :
    (⟨slot, none⟩ : TryAsyncStream T E A).outputs = [] := rfl

@[simp] theorem TryAsyncStream.outputs_some (slot : Option T) (gen : Gen T E A) :
    (⟨slot, some gen⟩ : TryAsyncStream T E A).outputs = gen.outputs := rfl

@[simp] theorem TryAsyncStream.pendings_none (slot : Option T) :
    (⟨slot, none⟩ : TryAsyncStream T E A).pendings = 0 := rfl

@[simp] theorem TryAsyncStream.pendings_some (slot : Option T) (gen : Gen T E A) :
    (⟨slot, some gen⟩ : TryAsyncStream T E A).pendings = gen.pendings := rfl

/-- The values handed out by the `Ready`s among some polls. -/
def readies {α : Type} (polls : List (Poll α × Bool)) : List α := polls.filterMap fun p => p.1.toOption

end Generator

/-! ## One poll -/

section Poll

variable {T E A : Type}

/-- What one poll of the generating future does from an empty slot, for a
future with these outputs and pendings to come. It returns, the slot still
empty. Or it stops in `r#yield`, with the value in the slot, no wakeup
registered, and the rest to come. Or it stops at a future that is not ready,
which registered a wakeup, with the slot empty and a pending fewer to come. -/
def Polled (outputs : List (Option (Except E T))) (pendings : Nat) : GenPoll T E A × Option T × Bool → Prop
  | (.ready result, slot, _) => slot = none ∧ outputs = endOutputs result
  | (.pending gen, some v, registered) =>
    registered = false ∧ outputs = some (.ok v) :: gen.outputs ∧ gen.pendings = pendings
  | (.pending gen, none, registered) => registered = true ∧ gen.outputs = outputs ∧ gen.pendings < pendings

/-- **One poll of a body.** From an empty slot it does not panic, and runs
through the futures that are ready to the next point it stops at. -/
theorem Body.poll_ends : ∀ b : Body T E A, Ends (b.poll none) (Polled b.outputs b.pendings)
  | .ret _ => Ends.pure ⟨rfl, rfl⟩
  | .yield _ _ => Ends.bind_of_eq rfl (Ends.pure ⟨rfl, rfl, rfl⟩)
  | .await ⟨0, a⟩ rest => by
    -- a ready future: the body goes on within the same poll
    have h := Body.poll_ends (rest a)
    rwa [← Nat.zero_add (rest a).pendings] at h
  | .await ⟨n + 1, a⟩ rest => by
    refine Ends.pure ⟨rfl, rfl, ?_⟩
    show n + (rest a).pendings < n + 1 + (rest a).pendings
    omega

theorem Gen.poll_ends : ∀ gen : Gen T E A, Ends (gen.poll none) (Polled gen.outputs gen.pendings)
  | .run b => b.poll_ends
  | .yielded rest => rest.poll_ends

/-- What a poll of the stream does from an empty slot. The slot is empty
after it. A `Ready` hands out what the generator hands out next, and moves the
generator on. A `Pending` comes from a future that registered a wakeup, and
leaves a pending fewer to come. -/
def NextPost (s : TryAsyncStream T E A) : (Poll (Option (Except E T)) × Bool) × TryAsyncStream T E A → Prop
  | ((.ready x, _), s') => s'.slot = none ∧ Stutter.listThen none s.outputs = (x, s'.outputs) ∧ s'.pendings ≤ s.pendings
  | ((.pending, registered), s') => s'.slot = none ∧ registered = true ∧ s'.outputs = s.outputs ∧ s'.pendings < s.pendings

/-- **One poll of the stream.** From an empty slot it does not panic: the
`debug_assert!` of `r#yield` holds. -/
theorem TryAsyncStream.pollNext_ends (s : TryAsyncStream T E A) (hs : s.slot = none) : Ends s.pollNext (NextPost s) := by
  obtain ⟨slot, _ | gen⟩ := s
  · -- the future has returned: `Ready(None)` from now on
    exact Ends.pure ⟨hs, rfl, Nat.le_refl _⟩
  · cases hs
    refine (gen.poll_ends).bind ?_
    rintro ⟨result | gen', slot', registered⟩ h
    · -- the body returned: its end, and the future fused
      obtain ⟨rfl, hout⟩ := h
      cases result with
      | ok u =>
        cases u
        refine Ends.pure ⟨rfl, ?_, Nat.zero_le _⟩
        rw [TryAsyncStream.outputs_some, TryAsyncStream.outputs_none, hout]
        rfl
      | error e =>
        refine Ends.pure ⟨rfl, ?_, Nat.zero_le _⟩
        rw [TryAsyncStream.outputs_some, TryAsyncStream.outputs_none, hout]
        rfl
    · cases slot' with
      | some v =>
        -- stopped in `r#yield`: the value taken from the slot
        obtain ⟨-, hout, hpend⟩ := h
        refine Ends.pure ⟨rfl, ?_, Nat.le_of_eq hpend⟩
        rw [TryAsyncStream.outputs_some, TryAsyncStream.outputs_some, hout]
        rfl
      | none =>
        -- stopped at a future that is not ready
        obtain ⟨hreg, hout, hpend⟩ := h
        exact Ends.pure ⟨rfl, hreg, hout, hpend⟩

end Poll

/-! ## The stream refines the generator -/

section Refinement

variable {T E A : Type}

/-- **`poll_next` refines the generator.** Between polls the slot is empty;
a `Pending` is a silent step, paid for by a pending of an inner future, and a
`Ready` hands out the generator's next answer. -/
theorem pollNext_refines :
    Stutter.Refines (TryAsyncStream.pollNext (T := T) (E := E) (A := A)) (fun l => l.1.toOption)
      (Stutter.listThen none) TryAsyncStream.outputs TryAsyncStream.pendings (fun s => s.slot = none) where
  step_ends s hs := by
    obtain ⟨⟨⟨_ | _, registered⟩, s'⟩, hstep, hpost⟩ := s.pollNext_ends hs
    · exact ⟨_, s', hstep, hpost.1⟩
    · exact ⟨_, s', hstep, hpost.1⟩
  silent s l s' hs hstep hout := by
    have hpost := (s.pollNext_ends hs).of_eq_some hstep
    obtain ⟨_ | _, registered⟩ := l
    · cases hout
    · exact ⟨hpost.2.2.1, hpost.2.2.2⟩
  answer s l s' b hs hstep hout := by
    have hpost := (s.pollNext_ends hs).of_eq_some hstep
    obtain ⟨_ | _, registered⟩ := l
    · cases hout
      exact ⟨hpost.2.1, hpost.2.2⟩
    · cases hout

theorem try_async_stream_refines_generator (b : Body T E A) (n : Nat) :
    ∃ polls s, Stutter.run TryAsyncStream.pollNext n (TryAsyncStream.new b) = some (polls, s) ∧ s.slot = none ∧
      readies polls = (b.outputs ++ List.replicate (readies polls).length none).take (readies polls).length ∧
      n ≤ (readies polls).length + b.pendings ∧
      (b.outputs.length + b.pendings ≤ n → b.outputs <+: readies polls) ∧
      ∀ p ∈ polls, p.1 = .pending → p.2 = true := by
  obtain ⟨polls, s, hrun, hs, hout, hcount⟩ := pollNext_refines.run_ends n (TryAsyncStream.new b) rfl
  have hreadies : readies polls =
      (b.outputs ++ List.replicate (readies polls).length none).take (readies polls).length := by
    have h : readies polls = Stutter.answers (Stutter.listThen none) (readies polls).length b.outputs := hout
    rwa [Stutter.answers_listThen] at h
  have hcount' : n ≤ (readies polls).length + b.pendings := hcount
  refine ⟨polls, s, hrun, hs, hreadies, hcount', fun hn => ?_, ?_⟩
  · -- enough polls: every answer of the generator has been handed out
    have hlen : b.outputs.length ≤ (readies polls).length := by omega
    rw [hreadies, List.take_append, List.take_of_length_le hlen]
    exact ⟨_, rfl⟩
  · -- a `Pending` of the stream comes from an inner future that registered a wakeup
    refine Stutter.run_labels TryAsyncStream.pollNext (fun s l s' (hs : s.slot = none) hstep => ?_) n _ polls s
      rfl hrun
    have hpost := (s.pollNext_ends hs).of_eq_some hstep
    obtain ⟨_ | _, registered⟩ := l
    · exact ⟨(fun h => nomatch h), hpost.1⟩
    · exact ⟨fun _ => hpost.2.1, hpost.1⟩

/-- A body that yields `1`, awaits a future that is `Pending` once, yields `2`
and fails: the stream hands out both values, the error, then `None`. -/
example : (Stutter.run TryAsyncStream.pollNext 5
    (TryAsyncStream.new (.yield 1 (.await ⟨1, ()⟩ fun _ => .yield 2 (.ret (.error "e"))) : Body Nat String Unit))).map
      Prod.fst =
    some [(.ready (some (.ok 1)), false), (.pending, true), (.ready (some (.ok 2)), false),
      (.ready (some (.error "e")), false), (.ready none, false)] := rfl

end Refinement

end Sqlx.AsyncStream
