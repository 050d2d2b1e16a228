import Mathlib.Data.List.Induction
import Sqlx.Postgres.ArgumentFrames

/-!
# Postgres — `PgArguments::add`, call after call

One `add` either appends the value's frame and counts it, or leaves the whole
`PgArguments` as it was (`PgArguments.add_of_frame_ok`,
`PgArguments.add_of_frame_error`): the snapshot taken before encoding is
exactly what the failed run appended to. A run of adds therefore keeps the
invariant `PgArguments.Holds`: the buffer is the `layout` of one frame per
successful call, in call order. The facts the driver relies on (the length
prefixes, the type holes inside payloads, the patch indices) are read off the
layout.
-/

namespace Sqlx.Postgres

open Wire

/-! ## One call -/

/-- The frame `add` appends for a value, or the error it returns. -/
def Value.frame (v : Value) : Except String Frame := frameOf v.sizeHint v.encoder.output

/-- The documented contract of `Encode` (`IsNull::Yes`: "no data was written"),
for the value itself. -/
def Value.NullWritesNothing (v : Value) : Prop :=
  ∀ w, v.encoder.output = .ok (.yes, w) → w.bytes = []

/-- The bytes of a frame: the big-endian `i32` length, then the payload. -/
def Frame.bytes (f : Frame) : List UInt8 := i32ToBeBytes f.len ++ f.payload.bytes

@[simp] theorem Frame.bytes_written (f : Frame) : f.written.bytes = f.bytes := rfl

/-- The buffer with one more frame: written, and counted. -/
def PgArgumentBuffer.push (buf : PgArgumentBuffer) (f : Frame) : PgArgumentBuffer :=
  { buf.write f.written with count := buf.count + 1 }

theorem PgArguments.add_of_frame_ok {v : Value} {f : Frame} (h : v.frame = .ok f)
    (args : PgArguments) :
    (PgArguments.add v).run args =
      .ok () ⟨args.types ++ [v.produces.getD v.typeInfo], args.buffer.push f⟩ := by
  have hr := encode_refines (Encoder.run_refines v.encoder) v.sizeHint
  rw [show frameOf v.sizeHint v.encoder.output = v.frame from rfl, h] at hr
  have hrun : (PgArgumentBuffer.encode v.sizeHint v.encoder.run).run args.buffer =
      .ok () (args.buffer.write f.written) := hr args.buffer
  simp only [EStateM.run, PgArguments.add] at hrun ⊢
  rw [hrun]
  rfl

/-- A failed `add` leaves every field as it was before the call. -/
theorem PgArguments.add_of_frame_error {v : Value} {e : String} (h : v.frame = .error e)
    (args : PgArguments) :
    (PgArguments.add v).run args = .error e args := by
  have hr := encode_refines (Encoder.run_refines v.encoder) v.sizeHint
  rw [show frameOf v.sizeHint v.encoder.output = v.frame from rfl, h] at hr
  obtain ⟨w, hw⟩ := hr args.buffer
  simp only [EStateM.run, PgArguments.add] at hw ⊢
  rw [hw]
  simp

/-- Whatever the value, `add` succeeds exactly when the value has a frame, and
fails with the frame's error otherwise. -/
theorem PgArguments.add_result (v : Value) (args : PgArguments) :
    (match (PgArguments.add v).run args with
      | .ok () _ => Except.ok ()
      | .error e _ => .error e) = v.frame.map fun _ => () := by
  cases h : v.frame with
  | ok f => rw [PgArguments.add_of_frame_ok h]; rfl
  | error e => rw [PgArguments.add_of_frame_error h]; rfl

/-! ## Frames as `encode` writes them -/

/-- Every hole of `w` has its four bytes inside `w`. -/
def Written.HolesInside (w : Written) : Prop := ∀ h ∈ w.holes, h.1 + 4 ≤ w.bytes.length

theorem Written.HolesInside.append {w₁ w₂ : Written} (h₁ : w₁.HolesInside)
    (h₂ : w₂.HolesInside) : (w₁ ++ w₂).HolesInside := by
  intro h hh
  simp only [Written.holes_append, List.mem_append, List.mem_map] at hh
  simp only [Written.bytes_append, List.length_append]
  rcases hh with hh | ⟨h', hh', rfl⟩
  · have := h₁ h hh
    omega
  · have := h₂ h' hh'
    simp only
    omega

/-- A frame as `encode` leaves it. -/
structure Frame.WellFormed (f : Frame) : Prop where
  null_empty : f.isNull = .yes → f.payload.bytes = []
  len_fits : f.payload.bytes.length ≤ 2147483647
  holes_inside : f.payload.HolesInside

theorem Frame.WellFormed.written {f : Frame} (hf : f.WellFormed) : f.written.HolesInside :=
  Written.HolesInside.append (by simp [Written.HolesInside]) hf.holes_inside

theorem frameOf_ok {sizeHint : Nat} {out : Except String (IsNull × Written)} {f : Frame}
    (h : frameOf sizeHint out = .ok f) :
    ∃ n, valueSizeInt4Checked sizeHint = .ok n ∧ out = .ok (f.isNull, f.payload) ∧
      (f.isNull = .no → f.payload.bytes.length ≤ 2147483647) := by
  unfold frameOf at h
  split at h
  · cases h
  · cases h
  · cases h
    exact ⟨_, ‹_›, rfl, by simp⟩
  · split at h
    · cases h
    · cases h
      exact ⟨_, ‹_›, rfl, fun _ => (valueSizeInt4Checked_ok ‹_›).2⟩

/-- An encoder's holes lie inside what it writes. -/
theorem Encoder.output_holesInside : (e : Encoder) → ∀ {r w}, e.output = .ok (r, w) →
    w.HolesInside
  | .done _, r, w, h => by
    cases h
    simp [Written.HolesInside, Written.empty]
  | .fail _, _, _, h => by cases h
  | .extend bytes next, r, w, h => after_holesInside (by simp [Written.HolesInside])
      (output_holesInside next) h
  | .patch next, r, w, h => after_holesInside (by simp [Written.HolesInside])
      (output_holesInside next) h
  | .patchTypeByName name next, r, w, h => after_holesInside
      (by simp [Written.HolesInside]) (output_holesInside next) h
  | .patchArrayType array next, r, w, h => after_holesInside
      (by simp [Written.HolesInside]) (output_holesInside next) h
  | .encode sizeHint value next, r, w, h => by
    simp only [Encoder.output] at h
    cases hf : frameOf sizeHint value.output with
    | error e => rw [hf] at h; cases h
    | ok f =>
      rw [hf] at h
      obtain ⟨_, _, hout, _⟩ := frameOf_ok hf
      have hpayload : f.payload.HolesInside := output_holesInside value hout
      exact after_holesInside (Written.HolesInside.append (by simp [Written.HolesInside])
        hpayload) (output_holesInside next) h
where
  after_holesInside {w₀ : Written} {o : Except String (IsNull × Written)} {r w}
      (h₀ : w₀.HolesInside) (ho : ∀ {r w}, o = .ok (r, w) → w.HolesInside)
      (h : after w₀ o = .ok (r, w)) : w.HolesInside := by
    cases o with
    | error e => cases h
    | ok p =>
      cases h
      exact h₀.append (ho rfl)

/-- Under the `Encode` contract, every frame `add` appends is well formed. -/
theorem Value.frame_wellFormed {v : Value} (hv : v.NullWritesNothing) {f : Frame}
    (h : v.frame = .ok f) : f.WellFormed := by
  obtain ⟨_, _, hout, hfits⟩ := frameOf_ok h
  have hnull : f.isNull = .yes → f.payload.bytes = [] := fun hy => hv _ (hy ▸ hout)
  refine ⟨hnull, ?_, Encoder.output_holesInside _ hout⟩
  cases hn : f.isNull with
  | yes => simp [hnull hn]
  | no => exact hfits hn

/-! ## The layout of a run -/

/-- The buffer holding `frames`, added in order to an empty buffer. -/
def layout (frames : List Frame) : PgArgumentBuffer := frames.foldl PgArgumentBuffer.push .empty

theorem layout_concat (frames : List Frame) (f : Frame) :
    layout (frames ++ [f]) = (layout frames).push f := by
  simp [layout, List.foldl_append]

/-- Where frame `i` starts in the layout. -/
def frameStart (frames : List Frame) (i : Nat) : Nat :=
  ((frames.take i).map Frame.bytes).flatten.length

theorem count_layout (frames : List Frame) : (layout frames).count = frames.length := by
  induction frames using List.reverseRecOn with
  | nil => rfl
  | append_singleton frames f ih => simp [layout_concat, PgArgumentBuffer.push, ih]

theorem buffer_layout (frames : List Frame) :
    (layout frames).buffer = (frames.map Frame.bytes).flatten := by
  induction frames using List.reverseRecOn with
  | nil => rfl
  | append_singleton frames f ih => simp [layout_concat, PgArgumentBuffer.push, ih]

/-- Every patch belongs to one of the frames. -/
theorem patches_layout (frames : List Frame) :
    ∀ p ∈ (layout frames).patches, p.argIndex < frames.length := by
  induction frames using List.reverseRecOn with
  | nil => simp [layout, PgArgumentBuffer.empty]
  | append_singleton frames f ih =>
    intro p hp
    simp only [layout_concat, PgArgumentBuffer.push, PgArgumentBuffer.write, List.mem_append,
      List.mem_map] at hp
    rcases hp with hp | ⟨o, _, rfl⟩
    · have := ih p hp
      simp only [List.length_append, List.length_singleton]
      omega
    · simp [count_layout]

/-- Every type hole is a hole of one frame's payload, moved to where that
payload starts: after the frames before it and the frame's length prefix. -/
theorem holes_layout (frames : List Frame) :
    ∀ h ∈ (layout frames).typeHoles, ∃ i, ∃ hi : i < frames.length, ∃ o,
      (o, h.2) ∈ frames[i].payload.holes ∧ h.1 = frameStart frames i + 4 + o := by
  induction frames using List.reverseRecOn with
  | nil => simp [layout, PgArgumentBuffer.empty]
  | append_singleton frames f ih =>
    intro h hh
    simp only [layout_concat, PgArgumentBuffer.push, PgArgumentBuffer.write, List.mem_append,
      List.mem_map] at hh
    rcases hh with hh | ⟨h', hh', rfl⟩
    · -- a hole of an earlier frame stays where it was
      obtain ⟨i, hi, o, ho, heq⟩ := ih h hh
      refine ⟨i, by simp only [List.length_append]; omega, o, ?_, ?_⟩
      · rwa [List.getElem_append_left hi]
      · rw [heq, frameStart, frameStart, List.take_append_of_le_length hi.le]
    · -- a hole of the new frame: past the old layout and the new length prefix
      simp only [Frame.written, Written.holes_append, List.nil_append, List.mem_map,
        length_i32ToBeBytes] at hh'
      obtain ⟨⟨o, k⟩, ho, rfl⟩ := hh'
      refine ⟨frames.length, by simp, o, by simpa using ho, ?_⟩
      simp [frameStart, buffer_layout, Nat.add_assoc]

theorem frameStart_add_le {frames : List Frame} {i : Nat} (hi : i < frames.length) :
    frameStart frames i + frames[i].bytes.length ≤ (frames.map Frame.bytes).flatten.length := by
  have hsplit : frames = frames.take i ++ frames[i] :: frames.drop (i + 1) := by
    rw [List.getElem_cons_drop, List.take_append_drop]
  have htotal := congrArg (fun l : List Frame => (l.map Frame.bytes).flatten.length) hsplit
  simp only [List.map_append, List.map_cons, List.flatten_append, List.flatten_cons,
    List.length_append] at htotal
  unfold frameStart
  omega

/-! ## The run invariant -/

/-- What holds of every `PgArguments` built by `add`: its buffer is the layout of
its frames, one type per frame, each frame as `encode` writes it. -/
structure PgArguments.Holds (args : PgArguments) (frames : List Frame) : Prop where
  buffer_eq : args.buffer = layout frames
  types_length : args.types.length = frames.length
  wellFormed : ∀ f ∈ frames, f.WellFormed

theorem PgArguments.holds_empty : PgArguments.empty.Holds [] := ⟨rfl, rfl, by simp⟩

/-- The step: a successful `add` appends its frame to the layout. -/
theorem PgArguments.Holds.push {args : PgArguments} {frames : List Frame}
    (h : args.Holds frames) {f : Frame} (hf : f.WellFormed) (ty : PgTypeInfo) :
    PgArguments.Holds ⟨args.types ++ [ty], args.buffer.push f⟩ (frames ++ [f]) := by
  refine ⟨?_, ?_, ?_⟩
  · simp only [layout_concat, h.buffer_eq]
  · simp [h.types_length]
  · intro g hg
    rcases List.mem_append.mp hg with hg | hg
    · exact h.wellFormed g hg
    · rw [List.mem_singleton.mp hg]
      exact hf

/-- The results of a run: each call reports whether its value has a frame. -/
theorem PgArguments.addAll_results (vs : List Value) (args : PgArguments) :
    (PgArguments.addAll vs args).1 = vs.map fun v => v.frame.map fun _ => () := by
  induction vs generalizing args with
  | nil => rfl
  | cons v vs ih =>
    cases hf : v.frame with
    | ok f => simp [PgArguments.addAll, PgArguments.add_of_frame_ok hf, ih, hf]; rfl
    | error e => simp [PgArguments.addAll, PgArguments.add_of_frame_error hf, ih, hf]; rfl

/-- The run: the invariant holds after any sequence of adds, with one more frame
for every call that succeeded. -/
theorem PgArguments.addAll_holds (vs : List Value) (hvs : ∀ v ∈ vs, v.NullWritesNothing) :
    ∀ (args : PgArguments) (frames : List Frame), args.Holds frames →
      (PgArguments.addAll vs args).2.Holds (frames ++ vs.filterMap fun v => v.frame.toOption) := by
  induction vs with
  | nil => intro args frames h; simpa [PgArguments.addAll] using h
  | cons v vs ih =>
    intro args frames h
    have hv := hvs v (by simp)
    have hrest := ih fun w hw => hvs w (by simp [hw])
    cases hf : v.frame with
    | ok f =>
      have := hrest _ _ (h.push (Value.frame_wellFormed hv hf) (v.produces.getD v.typeInfo))
      simpa [PgArguments.addAll, PgArguments.add_of_frame_ok hf, hf, Except.toOption] using this
    | error e =>
      have := hrest _ _ h
      simpa [PgArguments.addAll, PgArguments.add_of_frame_error hf, hf, Except.toOption] using this

/-! ## What the driver relies on -/

/-- The shape of a well-formed frame: a non-negative `i32` length that is the
payload's, or `-1` and no payload for NULL. -/
theorem Frame.WellFormed.shape {f : Frame} (hf : f.WellFormed) :
    (f.isNull = .no ∧ f.len = f.payload.bytes.length ∧ f.len ≤ 2147483647) ∨
      (f.isNull = .yes ∧ f.len = -1 ∧ f.payload.bytes = []) := by
  cases hn : f.isNull with
  | no =>
    have := hf.len_fits
    left
    simp only [Frame.len, hn, true_and]
    omega
  | yes => exact .inr ⟨rfl, by simp [Frame.len, hn], hf.null_empty hn⟩

/-- Every type hole of a run's buffer is inside the payload of one of its frames. -/
theorem PgArguments.Holds.hole_inside {args : PgArguments} {frames : List Frame}
    (h : args.Holds frames) : ∀ hole ∈ args.buffer.typeHoles,
      hole.1 + 4 ≤ args.buffer.buffer.length ∧ ∃ i, ∃ hi : i < frames.length,
        frameStart frames i + 4 ≤ hole.1 ∧
          hole.1 + 4 ≤ frameStart frames i + 4 + frames[i].payload.bytes.length := by
  intro hole hhole
  rw [h.buffer_eq] at hhole ⊢
  obtain ⟨i, hi, o, ho, heq⟩ := holes_layout frames hole hhole
  have hin := (h.wellFormed _ (List.getElem_mem hi)).holes_inside _ ho
  have hend := frameStart_add_le hi
  simp only [Frame.bytes, List.length_append, length_i32ToBeBytes] at hend hin
  rw [buffer_layout]
  exact ⟨by omega, i, hi, by omega, by omega⟩

/-- **`PgArguments::add`, over any sequence of calls** from
`PgArguments::default()`. A failed call leaves every field as it was. Each call
succeeds exactly when its value has a frame, and the buffer is then the frames
of the successful calls in call order, each a big-endian `i32` length and
exactly that many payload bytes, or `-1` and no bytes for NULL; there are as
many frames as counted arguments and recorded types; every type hole has its
four bytes inside the payload of one frame, and every patch names an argument
that was added. -/
theorem PgArguments.add_sequence_frames :
    (∀ (v : Value) (args args' : PgArguments) (e : String),
      (PgArguments.add v).run args = .error e args' → args' = args) ∧
    ∀ vs : List Value, (∀ v ∈ vs, v.NullWritesNothing) →
      let run := PgArguments.addAll vs .empty
      let frames := vs.filterMap fun v => v.frame.toOption
      run.1 = vs.map (fun v => v.frame.map fun _ => ()) ∧
      run.2.buffer.count = run.1.countP Except.isOk ∧
      run.2.buffer.count = frames.length ∧
      run.2.types.length = frames.length ∧
      run.2.buffer.buffer = (frames.map fun f => i32ToBeBytes f.len ++ f.payload.bytes).flatten ∧
      (∀ f ∈ frames, (f.isNull = .no ∧ f.len = f.payload.bytes.length ∧ f.len ≤ 2147483647) ∨
        (f.isNull = .yes ∧ f.len = -1 ∧ f.payload.bytes = [])) ∧
      (∀ hole ∈ run.2.buffer.typeHoles, hole.1 + 4 ≤ run.2.buffer.buffer.length ∧
        ∃ i, ∃ hi : i < frames.length, frameStart frames i + 4 ≤ hole.1 ∧
          hole.1 + 4 ≤ frameStart frames i + 4 + frames[i].payload.bytes.length) ∧
      (∀ p ∈ run.2.buffer.patches, p.argIndex < run.2.buffer.count) := by
  refine ⟨?_, ?_⟩
  · intro v args args' e hadd
    cases hf : v.frame with
    | ok f => rw [PgArguments.add_of_frame_ok hf] at hadd; cases hadd
    | error e' =>
      rw [PgArguments.add_of_frame_error hf] at hadd
      cases hadd
      rfl
  · intro vs hvs
    have hh := PgArguments.addAll_holds vs hvs _ _ PgArguments.holds_empty
    rw [List.nil_append] at hh
    have hres := PgArguments.addAll_results vs PgArguments.empty
    have hcount : (PgArguments.addAll vs .empty).2.buffer.count =
        (vs.filterMap fun v => v.frame.toOption).length := by
      rw [hh.buffer_eq, count_layout]
    refine ⟨hres, ?_, hcount, hh.types_length, ?_, ?_, hh.hole_inside, ?_⟩
    · -- one counted argument for every call that returned `Ok`
      rw [hcount, hres, List.countP_map, List.length_filterMap_eq_countP]
      apply List.countP_congr
      intro v _
      cases hf : v.frame <;> simp [hf, Except.toOption, Except.isOk, Except.toBool, Except.map]
    · rw [hh.buffer_eq, buffer_layout]
      rfl
    · exact fun f hf => (hh.wellFormed f hf).shape
    · intro p hp
      rw [hcount]
      rw [hh.buffer_eq] at hp
      exact patches_layout _ p hp

/-- An `i32` argument (`Encode for i32`: its four big-endian bytes) and a NULL
one (`Encode for Option<T>` at `None`). -/
theorem add_sequence_frames_int4_null :
    (∀ v ∈ [(⟨none, .withOid 23, 4, .extend (i32ToBeBytes 7) (.done .no)⟩ : Value),
        ⟨none, .withOid 23, 4, .done .yes⟩], v.NullWritesNothing) ∧
      (PgArguments.addAll [⟨none, .withOid 23, 4, .extend (i32ToBeBytes 7) (.done .no)⟩,
        ⟨none, .withOid 23, 4, .done .yes⟩] .empty).2.buffer.buffer =
        i32ToBeBytes 4 ++ i32ToBeBytes 7 ++ i32ToBeBytes (-1) := by
  have hnull : ∀ v ∈ [(⟨none, .withOid 23, 4, .extend (i32ToBeBytes 7) (.done .no)⟩ : Value),
      ⟨none, .withOid 23, 4, .done .yes⟩], v.NullWritesNothing := by
    intro v hv
    simp only [List.mem_cons, List.not_mem_nil, or_false] at hv
    rcases hv with rfl | rfl
    · intro w hw
      cases hw
    · intro w hw
      cases hw
      rfl
  refine ⟨hnull, ?_⟩
  obtain ⟨-, -, -, -, hbuf, -⟩ := PgArguments.add_sequence_frames.2 _ hnull
  rw [hbuf]
  rfl

end Sqlx.Postgres
