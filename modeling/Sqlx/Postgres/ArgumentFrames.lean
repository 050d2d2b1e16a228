import Sqlx.Postgres.Arguments

/-!
# Postgres — what an argument buffer holds

The abstract side of `arguments.rs`. An encoder's run is described by what it
leaves after the point where it started (`Written`: bytes, and type holes and
patches at offsets into them), computed without a buffer by
`Encoder.output`. `Refines m o` says that the buffer program `m` appends
exactly `o`'s output when `o` succeeds, and, when `o` fails, fails the same
way having only appended: that is what lets `reset_to_snapshot` undo it.

Every encoder's run refines its output (`Encoder.run_refines`), so one `add`
either appends one frame or changes nothing (`PgArguments.add_of_frame`), and
a sequence of adds leaves the layout of the successful frames
(`PgArguments.addAll_holds`).
-/

namespace Sqlx.Postgres

open Wire

/-! ## What a run writes -/

/-- What a run of buffer operations leaves after the point where it started:
the bytes appended, and the type holes and patches at offsets into them. -/
structure Written where
  bytes : List UInt8
  holes : List (Nat × HoleKind)
  patches : List Nat
  deriving DecidableEq, Repr

namespace Written

/-- Nothing written. -/
def empty : Written := ⟨[], [], []⟩

/-- `w₁` then `w₂`: the offsets of `w₂` move past the bytes of `w₁`. -/
def append (w₁ w₂ : Written) : Written :=
  ⟨w₁.bytes ++ w₂.bytes,
    w₁.holes ++ w₂.holes.map fun h => (w₁.bytes.length + h.1, h.2),
    w₁.patches ++ w₂.patches.map (w₁.bytes.length + ·)⟩

instance : Append Written := ⟨append⟩

@[simp] theorem bytes_append (w₁ w₂ : Written) : (w₁ ++ w₂).bytes = w₁.bytes ++ w₂.bytes := rfl

@[simp] theorem holes_append (w₁ w₂ : Written) :
    (w₁ ++ w₂).holes = w₁.holes ++ w₂.holes.map fun h => (w₁.bytes.length + h.1, h.2) := rfl

@[simp] theorem patches_append (w₁ w₂ : Written) :
    (w₁ ++ w₂).patches = w₁.patches ++ w₂.patches.map (w₁.bytes.length + ·) := rfl

@[simp] theorem nil_append (w : Written) : (⟨[], [], []⟩ : Written) ++ w = w := by
  show append _ _ = _
  cases w
  simp [append]

/-- Two runs of plain bytes are one. -/
@[simp] theorem bytes_only_append (a b : List UInt8) :
    (⟨a, [], []⟩ : Written) ++ ⟨b, [], []⟩ = ⟨a ++ b, [], []⟩ := rfl

theorem append_assoc (w₁ w₂ w₃ : Written) : w₁ ++ w₂ ++ w₃ = w₁ ++ (w₂ ++ w₃) := by
  show append (append w₁ w₂) w₃ = append w₁ (append w₂ w₃)
  simp [append, Function.comp_def, Nat.add_assoc]

end Written

namespace PgArgumentBuffer

/-- `buf` after `w` was written at its end, during the `add` of argument number
`buf.count` (every patch records that index). -/
def write (buf : PgArgumentBuffer) (w : Written) : PgArgumentBuffer :=
  { buffer := buf.buffer ++ w.bytes
    count := buf.count
    patches := buf.patches ++ w.patches.map fun o => ⟨buf.buffer.length + o, buf.count⟩
    typeHoles := buf.typeHoles ++ w.holes.map fun h => (buf.buffer.length + h.1, h.2) }

@[simp] theorem buffer_write (buf : PgArgumentBuffer) (w : Written) :
    (buf.write w).buffer = buf.buffer ++ w.bytes := rfl

@[simp] theorem count_write (buf : PgArgumentBuffer) (w : Written) :
    (buf.write w).count = buf.count := rfl

@[simp] theorem write_empty (buf : PgArgumentBuffer) : buf.write .empty = buf := by
  simp [write, Written.empty]

/-- Writing twice is writing the concatenation. -/
theorem write_append (buf : PgArgumentBuffer) (w₁ w₂ : Written) :
    (buf.write w₁).write w₂ = buf.write (w₁ ++ w₂) := by
  simp [write, Function.comp_def, Nat.add_assoc]

/-- Truncating to a snapshot taken before a write undoes the write. -/
@[simp] theorem resetToSnapshot_write (buf : PgArgumentBuffer) (w : Written) :
    (buf.write w).resetToSnapshot buf.snapshot = buf := by
  simp [write, resetToSnapshot, snapshot]

/-- Filling in the four placeholder bytes of a frame header. -/
theorem write_overwrite_header (buf : PgArgumentBuffer) (w : Written) (header : List UInt8)
    (h : header.length = 4) :
    { buf.write (⟨beBytes 4 0, [], []⟩ ++ w) with
        buffer := overwrite (buf.write (⟨beBytes 4 0, [], []⟩ ++ w)).buffer buf.buffer.length
          header } =
      buf.write (⟨header, [], []⟩ ++ w) := by
  simp only [buffer_write, Written.bytes_append, ← List.append_assoc]
  rw [overwrite_placeholder _ _ _ _ (by simp [h])]
  simp [write, h]

end PgArgumentBuffer

/-! ## Refinement of buffer programs by their output -/

/-- `m` appends exactly what `o` describes when `o` succeeds; when `o` fails,
`m` fails with the same error having only appended to the buffer. -/
def Refines {α : Type} (m : BufferM α) : Except String (α × Written) → Prop
  | .ok (a, w) => ∀ buf, m.run buf = .ok a (buf.write w)
  | .error e => ∀ buf, ∃ w, m.run buf = .error e (buf.write w)

/-- The output `o` seen after `w` was written. -/
def after {α : Type} (w : Written) (o : Except String (α × Written)) :
    Except String (α × Written) :=
  o.map fun (a, w') => (a, w ++ w')

@[simp] theorem after_ok {α : Type} (w w' : Written) (a : α) :
    after w (.ok (a, w')) = .ok (a, w ++ w') := rfl

@[simp] theorem after_error {α : Type} (w : Written) (e : String) :
    after w (.error e : Except String (α × Written)) = .error e := rfl

theorem after_after {α : Type} (w₁ w₂ : Written) (o : Except String (α × Written)) :
    after w₁ (after w₂ o) = after (w₁ ++ w₂) o := by
  cases o with
  | error e => rfl
  | ok p => simp [after, Except.map, Written.append_assoc]

@[simp] theorem after_nil {α : Type} (o : Except String (α × Written)) :
    after ⟨[], [], []⟩ o = o := by
  cases o with
  | error e => rfl
  | ok p => simp [after, Except.map]

/-- A successful output seen after `w` was a successful output before. -/
theorem eq_ok_of_after_eq_ok {α : Type} {w : Written} {o : Except String (α × Written)}
    {r : α × Written} (h : after w o = .ok r) : ∃ r', o = .ok r' := by
  cases o with
  | error e => cases h
  | ok r' => exact ⟨r', rfl⟩

theorem refines_pure {α : Type} (a : α) : Refines (pure a) (.ok (a, .empty)) := by
  intro buf
  simp only [PgArgumentBuffer.write_empty]
  rfl

theorem refines_throw {α : Type} (e : String) : Refines (throw e : BufferM α) (.error e) :=
  fun buf => ⟨.empty, by simp only [PgArgumentBuffer.write_empty]; rfl⟩

theorem refines_extend (bytes : List UInt8) :
    Refines (PgArgumentBuffer.extend bytes) (.ok ((), ⟨bytes, [], []⟩)) := by
  intro buf
  simp [PgArgumentBuffer.write]
  rfl

theorem refines_patch : Refines PgArgumentBuffer.patch (.ok ((), ⟨[], [], [0]⟩)) := by
  intro buf
  simp [PgArgumentBuffer.write]
  rfl

theorem refines_pushHole (kind : HoleKind) :
    Refines (PgArgumentBuffer.pushHole kind) (.ok ((), ⟨beBytes 4 0, [(0, kind)], []⟩)) := by
  intro buf
  simp [PgArgumentBuffer.write]
  rfl

/-- Sequencing: the second program's output comes after the first's. -/
theorem Refines.bind {α β : Type} {m : BufferM α} {f : α → BufferM β}
    {o : Except String (α × Written)} {g : α → Except String (β × Written)}
    (hm : Refines m o) (hf : ∀ a, Refines (f a) (g a)) :
    Refines (m >>= f) (o.bind fun (a, w) => after w (g a)) := by
  cases o with
  | error e =>
    intro buf
    obtain ⟨w, hw⟩ := hm buf
    exact ⟨w, by simp only [EStateM.run_bind, hw]⟩
  | ok p =>
    obtain ⟨a, w⟩ := p
    show Refines (m >>= f) (after w (g a))
    have hg := hf a
    cases hga : g a with
    | error e =>
      rw [hga] at hg
      simp only [after, Except.map]
      intro buf
      obtain ⟨w', hw'⟩ := hg (buf.write w)
      exact ⟨w ++ w', by simp only [EStateM.run_bind, hm buf, hw', PgArgumentBuffer.write_append]⟩
    | ok q =>
      obtain ⟨b, w'⟩ := q
      rw [hga] at hg
      simp only [after, Except.map]
      intro buf
      simp only [EStateM.run_bind, hm buf, ← PgArgumentBuffer.write_append]
      exact hg (buf.write w)

/-! ## Frames -/

@[simp] theorem liftExcept_run_ok {α : Type} (a : α) (buf : PgArgumentBuffer) :
    (liftExcept (Except.ok a : Except String α) : BufferM α).run buf = .ok a buf := rfl

@[simp] theorem liftExcept_run_error {α : Type} (e : String) (buf : PgArgumentBuffer) :
    (liftExcept (Except.error e : Except String α) : BufferM α).run buf = .error e buf := rfl

@[simp] theorem except_pure {ε α : Type} (a : α) : (pure a : Except ε α) = Except.ok a := rfl

@[simp] theorem except_ok_bind {ε α β : Type} (a : α) (f : α → Except ε β) :
    (Except.ok a >>= f) = f a := rfl

@[simp] theorem except_error_bind {ε α β : Type} (e : ε) (f : α → Except ε β) :
    (Except.error e >>= f) = Except.error e := rfl

theorem valueSizeInt4Checked_ok {size : Nat} {len : Int}
    (h : valueSizeInt4Checked size = .ok len) : len = size ∧ size ≤ 2147483647 := by
  unfold valueSizeInt4Checked at h
  split at h
  · cases h
    exact ⟨rfl, ‹_›⟩
  · cases h

/-- One argument in the buffer: NULL, or a payload. -/
structure Frame where
  isNull : IsNull
  payload : Written

/-- The `i32` length prefix: `-1` for NULL, the payload's length otherwise. -/
def Frame.len (f : Frame) : Int :=
  match f.isNull with
  | .yes => -1
  | .no => f.payload.bytes.length

/-- The frame as `encode` leaves it: the length prefix, then the payload. -/
def Frame.written (f : Frame) : Written := ⟨i32ToBeBytes f.len, [], []⟩ ++ f.payload

/-- The checks `PgArgumentBuffer::encode` makes around what the value writes: the
size hint first, then the length of a non-NULL payload. -/
def frameOf (sizeHint : Nat) (out : Except String (IsNull × Written)) : Except String Frame :=
  match valueSizeInt4Checked sizeHint, out with
  | .error e, _ => .error e
  | .ok _, .error e => .error e
  | .ok _, .ok (.yes, w) => .ok ⟨.yes, w⟩
  | .ok _, .ok (.no, w) =>
    match valueSizeInt4Checked w.bytes.length with
    | .error e => .error e
    | .ok _ => .ok ⟨.no, w⟩

theorem encode_refines {value : BufferM IsNull} {out : Except String (IsNull × Written)}
    (hv : Refines value out) (sizeHint : Nat) :
    Refines (PgArgumentBuffer.encode sizeHint value)
      ((frameOf sizeHint out).map fun f => ((), f.written)) := by
  -- the buffer once the four placeholder bytes are reserved
  have hzero : ∀ buf : PgArgumentBuffer, { buf with buffer := buf.buffer ++ beBytes 4 0 } =
      buf.write ⟨beBytes 4 0, [], []⟩ := by
    intro buf
    simp [PgArgumentBuffer.write]
  cases hs : valueSizeInt4Checked sizeHint with
  | error e =>
    -- the size hint is rejected before anything is written
    have hf : frameOf sizeHint out = .error e := by simp only [frameOf, hs]
    rw [hf]
    intro buf
    exact ⟨.empty, by simp [PgArgumentBuffer.encode, hs]⟩
  | ok n =>
    cases out with
    | error e =>
      have hf : frameOf sizeHint (.error e) = .error e := by simp only [frameOf, hs]
      rw [hf]
      intro buf
      obtain ⟨w, hw⟩ := hv (buf.write ⟨beBytes 4 0, [], []⟩)
      refine ⟨⟨beBytes 4 0, [], []⟩ ++ w, ?_⟩
      simp [PgArgumentBuffer.encode, hs, PgArgumentBuffer.extend, hzero, hw,
        PgArgumentBuffer.write_append]
    | ok p =>
      obtain ⟨isNull, w⟩ := p
      cases isNull with
      | yes =>
        have hf : frameOf sizeHint (.ok (.yes, w)) = .ok ⟨.yes, w⟩ := by simp only [frameOf, hs]
        rw [hf]
        intro buf
        have hw := hv (buf.write ⟨beBytes 4 0, [], []⟩)
        rw [PgArgumentBuffer.write_append] at hw
        simp only [PgArgumentBuffer.encode, EStateM.run_bind, hs, liftExcept_run_ok,
          EStateM.run_get, PgArgumentBuffer.extend, EStateM.run_modify, hzero, hw,
          EStateM.run_pure]
        exact congrArg _ (PgArgumentBuffer.write_overwrite_header buf w _ (by simp))
      | no =>
        have hlen : ∀ buf : PgArgumentBuffer,
            (buf.write (⟨beBytes 4 0, [], []⟩ ++ w)).buffer.length - buf.buffer.length - 4 =
              w.bytes.length := by
          intro buf
          simp
        cases hl : valueSizeInt4Checked w.bytes.length with
        | error e =>
          -- the payload outgrew an `i32`: the frame stays half written
          have hf : frameOf sizeHint (.ok (.no, w)) = .error e := by simp only [frameOf, hs, hl]
          rw [hf]
          intro buf
          have hw := hv (buf.write ⟨beBytes 4 0, [], []⟩)
          rw [PgArgumentBuffer.write_append] at hw
          refine ⟨⟨beBytes 4 0, [], []⟩ ++ w, ?_⟩
          simp only [PgArgumentBuffer.encode, EStateM.run_bind, hs, liftExcept_run_ok,
            EStateM.run_get, PgArgumentBuffer.extend, EStateM.run_modify, hzero, hw, hlen, hl,
            liftExcept_run_error]
        | ok len =>
          obtain ⟨rfl, -⟩ := valueSizeInt4Checked_ok hl
          have hf : frameOf sizeHint (.ok (.no, w)) = .ok ⟨.no, w⟩ := by simp only [frameOf, hs, hl]
          rw [hf]
          intro buf
          have hw := hv (buf.write ⟨beBytes 4 0, [], []⟩)
          rw [PgArgumentBuffer.write_append] at hw
          simp only [PgArgumentBuffer.encode, EStateM.run_bind, hs, liftExcept_run_ok,
            EStateM.run_get, PgArgumentBuffer.extend, EStateM.run_modify, hzero, hw, hlen, hl]
          exact congrArg _ (PgArgumentBuffer.write_overwrite_header buf w _ (by simp))

/-- What an encoder writes, computed without a buffer. -/
def Encoder.output : Encoder → Except String (IsNull × Written)
  | .done isNull => .ok (isNull, .empty)
  | .fail error => .error error
  | .extend bytes next => after ⟨bytes, [], []⟩ next.output
  | .patch next => after ⟨[], [], [0]⟩ next.output
  | .patchTypeByName name next => after ⟨beBytes 4 0, [(0, .type name)], []⟩ next.output
  | .patchArrayType array next => after ⟨beBytes 4 0, [(0, .array array)], []⟩ next.output
  | .encode sizeHint value next =>
    (frameOf sizeHint value.output).bind fun f => after f.written next.output

/-- **Every encoder's run appends exactly its output**, and a failing run only
appends: by induction on the encoder, a nested `encode` by `encode_refines`. -/
theorem Encoder.run_refines : (e : Encoder) → Refines e.run e.output
  | .done isNull => refines_pure isNull
  | .fail error => refines_throw error
  | .extend bytes next => (refines_extend bytes).bind fun _ => run_refines next
  | .patch next => refines_patch.bind fun _ => run_refines next
  | .patchTypeByName name next => (refines_pushHole _).bind fun _ => run_refines next
  | .patchArrayType array next => (refines_pushHole _).bind fun _ => run_refines next
  | .encode sizeHint value next => by
    have h := (encode_refines (run_refines value) sizeHint).bind fun _ => run_refines next
    have hout : (((frameOf sizeHint value.output).map fun f => ((), f.written)).bind
        fun (a, w) => after w ((fun _ => next.output) a)) = (encode sizeHint value next).output := by
      simp only [Encoder.output]
      cases frameOf sizeHint value.output <;> rfl
    rwa [hout] at h

/-- An encoder that writes its bytes and succeeds, as the fixed-size `Encode`
impls do. -/
theorem Encoder.output_extend_done (bytes : List UInt8) :
    (Encoder.extend bytes (.done .no)).output = .ok (.no, ⟨bytes, [], []⟩) := by
  simp [Encoder.output, Written.empty]

end Sqlx.Postgres
