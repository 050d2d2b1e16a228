import Mathlib.Data.List.Basic

/-!
# Core — `BufferedSocket::try_read` (`sqlx-core/src/net/socket/buffered.rs`)

`try_read` calls its callback on `read_buf.read`; the callback either takes
a value off the buffer (`Break`) or names the total length it waits for
(`Continue`), and `ReadBuffer::read` then reads chunks from the socket until
the buffer is that long. The future can be dropped at every socket read, so it
runs here for a number of steps, each a call of the callback or one socket
read: with the steps spent it is dropped, and the buffer keeps what was read.

A callback that reads one frame and leaves the buffer alone until the whole
frame is there (`ReadsFrame`) makes the loop cancel-safe: a drop leaves the
frame and what follows it in the buffer and the socket, and enough steps read
it (`tryRead_of_holds`, `tryRead_ready`). Over a whole session of calls, each
dropped after any number of steps, the values the calls return are the frames
of the stream in order (`session_frames`).
-/

namespace Sqlx

/-- `ControlFlow<R, usize>`, the answer of the callback. -/
inductive ControlFlow (ρ : Type) where
  /-- The total length of the buffer the callback waits for. -/
  | «continue» (len : Nat)
  | «break» (ret : ρ)
  deriving DecidableEq, Repr

/-- The reading half of a `BufferedSocket`: the bytes of `read_buf.read`, and
the chunks the socket has still to hand out, one for each `read` call. An
empty chunk is a read of zero bytes, the end of the stream, as is the end of
the list. -/
structure ReadBuffer (α : Type) where
  read : List α
  input : List (List α)
  deriving DecidableEq, Repr

/-- The errors of `try_read`: the callback's, or the `UnexpectedEof` of
`ReadBuffer::read`, `expected to read {len} bytes, got {got} bytes at EOF`. -/
inductive ReadError (ε : Type) where
  | callback (e : ε)
  | unexpectedEof (len got : Nat)
  deriving DecidableEq, Repr

/-- Where a `try_read` future stands: at the callback, or in
`ReadBuffer::read(len)`. -/
inductive Phase where
  | poll
  | fill (len : Nat)
  deriving DecidableEq, Repr

/-- How a `try_read` future ends. -/
inductive ReadOutcome (ε ρ α : Type) where
  | ready (ret : ρ) (rb : ReadBuffer α)
  | error (e : ReadError ε) (rb : ReadBuffer α)
  /-- Dropped at a socket read, the buffer as it stands. -/
  | dropped (rb : ReadBuffer α)
  | panic
  deriving DecidableEq, Repr

namespace ReadOutcome

variable {ε ρ α : Type}

/-- The buffer the next call starts from; a panic leaves none. -/
def buffer : ReadOutcome ε ρ α → Option (ReadBuffer α)
  | .ready _ rb | .error _ rb | .dropped rb => some rb
  | .panic => none

/-- The value of a call that completed. -/
def ret? : ReadOutcome ε ρ α → Option ρ
  | .ready ret _ => some ret
  | _ => none

/-- Neither a panic nor an error of the callback. -/
def Benign : ReadOutcome ε ρ α → Prop
  | .panic | .error (.callback _) _ => False
  | _ => True

end ReadOutcome

section TryRead

variable {ε ρ α : Type} (f : List α → Option (Except ε (ControlFlow ρ) × List α))

/-- `try_read` with the callback `f`, run for `fuel` steps from `phase`. A
step calls the callback or completes one socket read (`ReadBuffer::read`
with its `while self.read.len() < len` loop); with no step left the future
is dropped. `f` may change the buffer it is given, and `none` is a panic. -/
def tryReadFrom : Nat → Phase → ReadBuffer α → ReadOutcome ε ρ α
  | 0, _, rb => .dropped rb
  | fuel + 1, .poll, rb =>
    match f rb.read with
    | none => .panic
    | some (.error e, read) => .error (.callback e) { rb with read }
    | some (.ok (.break ret), read) => .ready ret { rb with read }
    | some (.ok (.continue len), read) => tryReadFrom fuel (.fill len) { rb with read }
  | fuel + 1, .fill len, rb =>
    if len ≤ rb.read.length then tryReadFrom fuel .poll rb
    else
      match rb.input with
      | chunk :: rest =>
        if chunk.isEmpty then .error (.unexpectedEof len rb.read.length) rb
        else tryReadFrom fuel (.fill len) ⟨rb.read ++ chunk, rest⟩
      | [] => .error (.unexpectedEof len rb.read.length) rb

/-- A `try_read` call run for `fuel` steps. -/
def tryRead (fuel : Nat) (rb : ReadBuffer α) : ReadOutcome ε ρ α := tryReadFrom f fuel .poll rb

/-- Successive `try_read` calls on one socket, the `i`-th run for `fuels[i]`
steps, each from the buffer the one before left; a panic ends the session. -/
def session : List Nat → ReadBuffer α → List (ReadOutcome ε ρ α)
  | [], _ => []
  | fuel :: fuels, rb =>
    let outcome := tryRead f fuel rb
    outcome :: match outcome.buffer with
      | some rb => session fuels rb
      | none => []

end TryRead

/-! ## Frames -/

section Frames

variable {ε ρ α : Type} {f : List α → Option (Except ε (ControlFlow ρ) × List α)}

/-- A callback that fails fails the call, on the buffer it leaves. -/
theorem tryRead_of_error {rb : ReadBuffer α} {e : ε} {read : List α} (h : f rb.read = some (.error e, read))
    (fuel : Nat) : tryRead f (fuel + 1) rb = .error (.callback e) { rb with read } := by
  simp only [tryRead, tryReadFrom, h]

theorem tryRead_of_panic {rb : ReadBuffer α} (h : f rb.read = none) (fuel : Nat) : tryRead f (fuel + 1) rb = .panic := by
  simp only [tryRead, tryReadFrom, h]

/-- The buffer and the chunks still to come hold `bytes`, and no chunk to
come is empty. -/
structure Holds (bytes : List α) (rb : ReadBuffer α) : Prop where
  eq : rb.read ++ rb.input.flatten = bytes
  chunks : ∀ c ∈ rb.input, c ≠ []

/-- `f` reads `frame` off the front of the buffer as `ret`: on a buffer
shorter than the frame it waits for a length no longer than the frame and
leaves the buffer alone, and on a buffer that starts with the frame it takes
the frame off. -/
structure ReadsFrame (f : List α → Option (Except ε (ControlFlow ρ) × List α)) (frame : List α) (ret : ρ) :
    Prop where
  more : ∀ pre, pre <+: frame → pre.length < frame.length →
    ∃ len, pre.length < len ∧ len ≤ frame.length ∧ f pre = some (.ok (.continue len), pre)
  done : ∀ rest, f (frame ++ rest) = some (.ok (.break ret), rest)

/-- A state of the loop in the middle of reading `frame`: a fill never asks
for more than the frame. -/
structure Pending (frame rest : List α) (phase : Phase) (rb : ReadBuffer α) : Prop where
  holds : Holds (frame ++ rest) rb
  fits : ∀ len, phase = .fill len → len ≤ frame.length

/-- Steps enough to finish from a pending state: three for each chunk to
come, and one more to call the callback. -/
def ticks : Phase → ReadBuffer α → Nat
  | .poll, rb => 3 * rb.input.length + 1
  | .fill len, rb => if len ≤ rb.read.length then 3 * rb.input.length + 2 else 3 * rb.input.length

theorem Holds.cons {bytes : List α} {read chunk : List α} {rest : List (List α)} (h : Holds bytes ⟨read, chunk :: rest⟩) :
    Holds bytes ⟨read ++ chunk, rest⟩ where
  eq := by rw [← h.eq, List.flatten_cons, List.append_assoc]
  chunks := fun c hc => h.chunks c (List.mem_cons_of_mem chunk hc)

/-- A buffer no longer than the frame that starts the bytes is a prefix of it. -/
theorem prefix_of_holds {frame rest : List α} {rb : ReadBuffer α} (h : Holds (frame ++ rest) rb)
    (hlen : rb.read.length ≤ frame.length) : rb.read <+: frame :=
  List.prefix_of_prefix_length_le ⟨_, h.eq⟩ (List.prefix_append frame rest) hlen

/-- The poll step: the frame is taken off, or the loop fills. -/
theorem step_poll (hf : ReadsFrame f frame ret) {rest : List α} {rb : ReadBuffer α} (h : Holds (frame ++ rest) rb)
    (fuel : Nat) :
    (∃ rb', tryReadFrom f (fuel + 1) .poll rb = .ready ret rb' ∧ Holds rest rb') ∨
    (∃ len, rb.read.length < len ∧ tryReadFrom f (fuel + 1) .poll rb = tryReadFrom f fuel (.fill len) rb ∧
      Pending frame rest (.fill len) rb) := by
  by_cases hshort : rb.read.length < frame.length
  · obtain ⟨len, hgt, hle, hmore⟩ := hf.more rb.read (prefix_of_holds h (Nat.le_of_lt hshort)) hshort
    right
    refine ⟨len, hgt, ?_, h, ?_⟩
    · simp only [tryReadFrom, hmore]
    · rintro len' ⟨⟩
      exact hle
  · -- the whole frame is there
    obtain ⟨t, ht⟩ := List.prefix_of_prefix_length_le (List.prefix_append frame rest) ⟨_, h.eq⟩ (by omega)
    left
    refine ⟨⟨t, rb.input⟩, ?_, ⟨?_, h.chunks⟩⟩
    · simp only [tryReadFrom, ← ht, hf.done t]
    · have heq := h.eq
      rw [← ht, List.append_assoc] at heq
      exact List.append_cancel_left heq

/-- A fill that is not yet long enough has a chunk to read: the bytes to
come hold the rest of the frame. -/
theorem input_ne_nil_of_pending {frame rest : List α} {len : Nat} {rb : ReadBuffer α}
    (h : Pending frame rest (.fill len) rb) (hlen : ¬len ≤ rb.read.length) : rb.input ≠ [] := by
  intro hnil
  have hfits := h.fits len rfl
  have hbytes := congrArg List.length h.holds.eq
  rw [hnil, List.flatten_nil, List.append_nil, List.length_append] at hbytes
  omega

/-- The fill step: the loop polls again, or reads one more chunk. -/
theorem step_fill {frame rest : List α} {len : Nat} {rb : ReadBuffer α} (h : Pending frame rest (.fill len) rb)
    (fuel : Nat) :
    ∃ phase' rb', tryReadFrom f (fuel + 1) (.fill len) rb = tryReadFrom f fuel phase' rb' ∧
      Pending frame rest phase' rb' ∧ ticks phase' rb' < ticks (.fill len) rb := by
  by_cases hlen : len ≤ rb.read.length
  · refine ⟨.poll, rb, by simp only [tryReadFrom, if_pos hlen], ⟨h.holds, by simp⟩, ?_⟩
    simp only [ticks, if_pos hlen]
    omega
  · obtain ⟨read, input⟩ := rb
    cases input with
    | nil => exact absurd rfl (input_ne_nil_of_pending h hlen)
    | cons chunk more =>
      have hchunk : chunk.isEmpty = false := List.isEmpty_eq_false_iff.mpr (h.holds.chunks chunk List.mem_cons_self)
      refine ⟨.fill len, ⟨read ++ chunk, more⟩, ?_, ⟨h.holds.cons, h.fits⟩, ?_⟩
      · simp only [tryReadFrom, if_neg hlen, hchunk, Bool.false_eq_true, if_false]
      · simp only [ticks, if_neg hlen, List.length_cons]
        split <;> omega

/-- **Cancel safety.** From a pending state the loop reads the frame, or is
dropped with the frame and what follows still in the buffer and the socket. -/
theorem tryReadFrom_of_pending (hf : ReadsFrame f frame ret) {rest : List α} :
    ∀ fuel phase rb, Pending frame rest phase rb →
      (∃ rb', tryReadFrom f fuel phase rb = .ready ret rb' ∧ Holds rest rb') ∨
      (∃ rb', tryReadFrom f fuel phase rb = .dropped rb' ∧ Holds (frame ++ rest) rb') := by
  intro fuel
  induction fuel with
  | zero =>
    intro phase rb h
    exact .inr ⟨rb, rfl, h.holds⟩
  | succ fuel ih =>
    intro phase rb h
    cases phase with
    | poll =>
      rcases step_poll hf h.holds fuel with hready | ⟨len, -, hstep, hpending⟩
      · exact .inl hready
      · rw [hstep]
        exact ih _ _ hpending
    | fill len =>
      obtain ⟨phase', rb', hstep, hpending, -⟩ := step_fill (f := f) h fuel
      rw [hstep]
      exact ih _ _ hpending

/-- **Enough steps read the frame**: three for each chunk to come, and one. -/
theorem tryReadFrom_ready (hf : ReadsFrame f frame ret) {rest : List α} :
    ∀ fuel phase rb, Pending frame rest phase rb → ticks phase rb ≤ fuel →
      ∃ rb', tryReadFrom f fuel phase rb = .ready ret rb' ∧ Holds rest rb' := by
  intro fuel
  induction fuel with
  | zero =>
    intro phase rb h hticks
    exfalso
    cases phase with
    | poll => simp [ticks] at hticks
    | fill len =>
      simp only [ticks] at hticks
      split at hticks
      · omega
      · -- nothing left to read, yet the fill is not long enough
        exact input_ne_nil_of_pending h ‹_› (List.eq_nil_of_length_eq_zero (by omega))
  | succ fuel ih =>
    intro phase rb h hticks
    cases phase with
    | poll =>
      rcases step_poll hf h.holds fuel with hready | ⟨len, hgt, hstep, hpending⟩
      · exact hready
      · rw [hstep]
        refine ih _ _ hpending ?_
        simp only [ticks, if_neg (Nat.not_le.mpr hgt)]
        simp only [ticks] at hticks
        omega
    | fill len =>
      obtain ⟨phase', rb', hstep, hpending, hlt⟩ := step_fill (f := f) h fuel
      rw [hstep]
      exact ih _ _ hpending (by omega)

theorem tryRead_of_holds (hf : ReadsFrame f frame ret) {rest : List α} {rb : ReadBuffer α}
    (h : Holds (frame ++ rest) rb) (fuel : Nat) :
    (∃ rb', tryRead f fuel rb = .ready ret rb' ∧ Holds rest rb') ∨
    (∃ rb', tryRead f fuel rb = .dropped rb' ∧ Holds (frame ++ rest) rb') :=
  tryReadFrom_of_pending hf fuel .poll rb ⟨h, by simp⟩

theorem tryRead_ready (hf : ReadsFrame f frame ret) {rest : List α} {rb : ReadBuffer α}
    (h : Holds (frame ++ rest) rb) {fuel : Nat} (hfuel : 3 * rb.input.length + 1 ≤ fuel) :
    ∃ rb', tryRead f fuel rb = .ready ret rb' ∧ Holds rest rb' :=
  tryReadFrom_ready hf fuel .poll rb ⟨h, by simp⟩ hfuel

/-- `f` waits for bytes when the buffer is empty. -/
def WaitsOnEmpty (f : List α → Option (Except ε (ControlFlow ρ) × List α)) : Prop :=
  ∃ len, 0 < len ∧ f [] = some (.ok (.continue len), [])

theorem eq_nil_of_holds_nil {rb : ReadBuffer α} (h : Holds [] rb) : rb = ⟨[], []⟩ := by
  obtain ⟨hread, hflat⟩ := List.append_eq_nil_iff.mp h.eq
  obtain ⟨read, input⟩ := rb
  cases input with
  | nil => simp_all
  | cons chunk more =>
    have hchunk : chunk = [] := (List.flatten_eq_nil_iff.mp hflat) chunk List.mem_cons_self
    exact absurd hchunk (h.chunks chunk List.mem_cons_self)

/-- At the end of the stream a call ends on `UnexpectedEof` or is dropped,
and leaves the buffer empty. -/
theorem tryRead_of_holds_nil (hf : WaitsOnEmpty f) {rb : ReadBuffer α} (h : Holds [] rb) (fuel : Nat) :
    tryRead f fuel rb = .dropped rb ∨ ∃ len, tryRead f fuel rb = .error (.unexpectedEof len 0) rb := by
  obtain ⟨len, hpos, hwait⟩ := hf
  rw [eq_nil_of_holds_nil h]
  match fuel with
  | 0 => exact .inl rfl
  | 1 => exact .inl (by simp [tryRead, tryReadFrom, hwait])
  | fuel + 2 =>
    right
    refine ⟨len, ?_⟩
    simp [tryRead, tryReadFrom, hwait, Nat.not_le.mpr hpos]

/-! ## Sessions -/

theorem session_cons_of_buffer {fuel : Nat} {fuels : List Nat} {rb rb' : ReadBuffer α}
    (h : (tryRead f fuel rb).buffer = some rb') :
    session f (fuel :: fuels) rb = tryRead f fuel rb :: session f fuels rb' := by
  simp only [session, h]

/-- **Framing over a session.** On a stream of frames that `f` reads, every
session of calls, each dropped after any number of steps, returns a prefix of
the frames in order, with no panic and no error of the callback. -/
theorem session_frames (encode : ρ → List α) (hempty : WaitsOnEmpty f) :
    ∀ (fuels : List Nat) (frames : List ρ) (rb : ReadBuffer α), (∀ x ∈ frames, ReadsFrame f (encode x) x) →
      Holds (frames.flatMap encode) rb →
      (∃ k, (session f fuels rb).filterMap ReadOutcome.ret? = frames.take k) ∧
        ∀ o ∈ session f fuels rb, o.Benign := by
  intro fuels
  induction fuels with
  | nil => exact fun _ _ _ _ => ⟨⟨0, rfl⟩, by simp [session]⟩
  | cons fuel fuels ih =>
    intro frames rb hframes h
    cases frames with
    | nil =>
      -- the stream is over: the call reads nothing, and the next starts from the same buffer
      have hcall := tryRead_of_holds_nil hempty h fuel
      have hbuffer : (tryRead f fuel rb).buffer = some rb := by
        rcases hcall with hcall | ⟨len, hcall⟩ <;> rw [hcall] <;> rfl
      obtain ⟨⟨k, hk⟩, hbenign⟩ := ih [] rb hframes h
      rw [session_cons_of_buffer hbuffer]
      refine ⟨⟨k, ?_⟩, ?_⟩
      · rw [List.filterMap_cons_none (by rcases hcall with hcall | ⟨len, hcall⟩ <;> rw [hcall] <;> rfl), hk]
      · intro o ho
        rcases List.mem_cons.mp ho with rfl | ho
        · rcases hcall with hcall | ⟨len, hcall⟩ <;> rw [hcall] <;> trivial
        · exact hbenign o ho
    | cons x xs =>
      rw [List.flatMap_cons] at h
      rcases tryRead_of_holds (hframes x List.mem_cons_self) h fuel with ⟨rb', hcall, h'⟩ | ⟨rb', hcall, h'⟩
      · -- the call returns the first frame
        obtain ⟨⟨k, hk⟩, hbenign⟩ := ih xs rb' (fun y hy => hframes y (List.mem_cons_of_mem x hy)) h'
        rw [session_cons_of_buffer (by rw [hcall]; rfl), hcall]
        refine ⟨⟨k + 1, ?_⟩, ?_⟩
        · rw [List.filterMap_cons_some (show (ReadOutcome.ready x rb' : ReadOutcome ε ρ α).ret? = some x from rfl), hk,
            List.take_succ_cons]
        · intro o ho
          rcases List.mem_cons.mp ho with rfl | ho
          · trivial
          · exact hbenign o ho
      · -- dropped: the frames are all still to come
        rw [← List.flatMap_cons] at h'
        obtain ⟨⟨k, hk⟩, hbenign⟩ := ih (x :: xs) rb' hframes h'
        rw [session_cons_of_buffer (by rw [hcall]; rfl), hcall]
        refine ⟨⟨k, ?_⟩, ?_⟩
        · rw [List.filterMap_cons_none (show (ReadOutcome.dropped rb' : ReadOutcome ε ρ α).ret? = none from rfl), hk]
        · intro o ho
          rcases List.mem_cons.mp ho with rfl | ho
          · trivial
          · exact hbenign o ho

end Frames

end Sqlx
