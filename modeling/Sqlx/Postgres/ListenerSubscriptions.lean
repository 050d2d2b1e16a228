import Sqlx.Postgres.Listener

/-!
# Postgres — the channels of a `PgListener` against the user's

The user's program calls the listener's methods one after another, and goes
on after a call that fails. `ListenerCall.requested` is the set `C` of channels the
calls that succeeded ask for: `listen` and `listen_all` add, `unlisten`
removes one, `unlisten_all` clears. `Agrees` says the listener keeps to it:
its `Vec` holds the channels of `C`, each once up to its NUL and none that
the server refuses, and a live session listens to exactly those.

`agree_run`: every run of calls keeps `Agrees` when no call subscribes a
channel it already holds or one the server refuses (`Fresh`). Without that
precondition it fails: `listen` of a channel already there pushes it twice,
`unlisten` then removes one copy, and the next session listens to a channel
the user has given up (`unlisten_after_double_listen`).
-/

namespace Sqlx.Postgres

/-- A call of the user's program. -/
inductive ListenerCall where
  | listen (channel : List Char)
  | listenAll (channels : List (List Char))
  | unlisten (channel : List Char)
  | unlistenAll
  /-- `try_recv` when it finds the connection lost -/
  | tryRecvLost

namespace ListenerCall

/-- The method the call runs. -/
def run : ListenerCall → ListenerM Unit
  | .listen channel => PgListener.listen channel
  | .listenAll channels => PgListener.listenAll channels
  | .unlisten channel => PgListener.unlisten channel
  | .unlistenAll => PgListener.unlistenAll
  | .tryRecvLost => PgListener.tryRecvLost

/-- The channels the user asks for once the call has succeeded. -/
def requested : ListenerCall → Finset (List Char) → Finset (List Char)
  | .listen channel, C => insert channel C
  | .listenAll channels, C => C ∪ channels.toFinset
  | .unlisten channel, C => C.erase channel
  | .unlistenAll, _ => ∅
  | .tryRecvLost, C => C

/-- The listener and `C` after the call: `C` moves only when the call succeeds. -/
def step (call : ListenerCall) (p : PgListener × Finset (List Char)) : PgListener × Finset (List Char) :=
  match call.run.run p.1 with
  | .ok () l => (l, call.requested p.2)
  | .error _ l => (l, p.2)

/-- A run of calls. -/
def steps (calls : List ListenerCall) (p : PgListener × Finset (List Char)) : PgListener × Finset (List Char) :=
  calls.foldl (fun p call => call.step p) p

variable {l l' : PgListener} {C : Finset (List Char)}

theorem step_of_ok (call : ListenerCall) (h : call.run.run l = .ok () l') : call.step (l, C) = (l', call.requested C) := by
  simp only [step, h]

theorem step_of_error (call : ListenerCall) {e : String} (h : call.run.run l = .error e l') : call.step (l, C) = (l', C) := by
  simp only [step, h]

end ListenerCall

section Erase

variable {α β : Type} [DecidableEq α] [DecidableEq β] {f : α → β} {xs : List α}

theorem toFinset_erase_of_nodup [BEq α] [LawfulBEq α] (hnodup : xs.Nodup) (a : α) : (xs.erase a).toFinset = xs.toFinset.erase a := by
  ext x
  simp [hnodup.mem_erase_iff]

/-- Erasing `a` and then taking images is taking images and then erasing
`f a`, when no other element has the image of `a`. -/
theorem image_erase_of_nodup_map (hnodup : (xs.map f).Nodup) {a : α} (ha : a ∈ xs ∨ f a ∉ xs.map f) :
    (xs.toFinset.erase a).image f = (xs.toFinset.image f).erase (f a) := by
  ext y
  simp only [Finset.mem_image, Finset.mem_erase, List.mem_toFinset]
  constructor
  · rintro ⟨x, ⟨hxa, hx⟩, rfl⟩
    refine ⟨fun hfx => ?_, x, hx, rfl⟩
    rcases ha with ha | ha
    · exact hxa (List.inj_on_of_nodup_map hnodup hx ha hfx)
    · exact ha (hfx ▸ List.mem_map_of_mem hx)
  · rintro ⟨hya, x, hx, rfl⟩
    exact ⟨x, ⟨fun hxa => hya (hxa ▸ rfl), hx⟩, rfl⟩

end Erase

/-- The listener keeps to `C`. -/
structure Agrees (l : PgListener) (C : Finset (List Char)) : Prop where
  channels_eq : l.channels.toFinset = C
  nodup : (l.channels.map truncateAtNul).Nodup
  ne_nil : ∀ chan ∈ l.channels, truncateAtNul chan ≠ []
  session_eq : ∀ session ∈ l.connection, session = C.image truncateAtNul

/-- The calls that keep `Agrees`: none subscribes a name that is already
there up to its NUL, `listen_all` no name the server refuses, and `unlisten`
of a name not in the `Vec` is of none whose truncation is. -/
def ListenerCall.Fresh (l : PgListener) : ListenerCall → Prop
  | .listen channel => truncateAtNul channel ∉ l.channels.map truncateAtNul
  | .listenAll channels => ((l.channels ++ channels).map truncateAtNul).Nodup ∧ ∀ chan ∈ channels, truncateAtNul chan ≠ []
  | .unlisten channel => channel ∈ l.channels ∨ truncateAtNul channel ∉ l.channels.map truncateAtNul
  | .unlistenAll => True
  | .tryRecvLost => True

/-- Each call `Fresh` in the state it starts from. -/
def ListenerCall.FreshAlong : PgListener × Finset (List Char) → List ListenerCall → Prop
  | _, [] => True
  | p, call :: calls => call.Fresh p.1 ∧ FreshAlong (call.step p) calls

namespace Agrees

variable {l : PgListener} {C : Finset (List Char)}

/-- `PgListener::connect`: a session that listens to nothing, and no channel. -/
theorem init (eagerReconnect : Bool) : Agrees ⟨some ∅, [], eagerReconnect⟩ ∅ where
  channels_eq := rfl
  nodup := List.nodup_nil
  ne_nil := by simp
  session_eq := by simp

theorem run_connectIfNeeded (h : Agrees l C) :
    PgListener.connectIfNeeded.run l = .ok () { l with connection := some (C.image truncateAtNul) } := by
  obtain ⟨session, hrun, hcase⟩ := PgListener.run_connectIfNeeded h.ne_nil
  rcases hcase with hc | ⟨-, hsession⟩
  · rwa [← h.session_eq session hc]
  · rwa [hsession, h.channels_eq] at hrun

/-- `listen`: on the session `connect_if_needed` leaves, `LISTEN` fails only
for a name the server refuses; then the channel is pushed. -/
theorem run_listen (h : Agrees l C) (channel : List Char) :
    (PgListener.listen channel).run l =
      if truncateAtNul channel = [] then
        .error "error returned from database" { l with connection := some (C.image truncateAtNul) }
      else
        .ok () ⟨some (insert (truncateAtNul channel) (C.image truncateAtNul)), l.channels ++ [channel],
          l.eagerReconnect⟩ := by
  rw [PgListener.listen, EStateM.run_bind_of_ok h.run_connectIfNeeded]
  by_cases hempty : truncateAtNul channel = []
  · have hx : runSimpleQuery (listenQuery channel) (C.image truncateAtNul) = none := by rw [runSimpleQuery_listenQuery, if_pos hempty]
    rw [EStateM.run_bind_of_error (PgListener.run_executeOnConnection_of_error rfl hx), if_pos hempty]
  · have hx : runSimpleQuery (listenQuery channel) (C.image truncateAtNul) =
        some (insert (truncateAtNul channel) (C.image truncateAtNul)) := by
      rw [runSimpleQuery_listenQuery, if_neg hempty]
    rw [EStateM.run_bind_of_ok (PgListener.run_executeOnConnection_of_ok rfl hx), if_neg hempty]
    rfl

/-- `listen_all` of names the server accepts: the `Vec` is extended, and the
session, whether it was there or is made for the extended `Vec`, listens to
the new names too. -/
theorem run_listenAll (h : Agrees l C) {channels : List (List Char)}
    (hne : ∀ chan ∈ channels, truncateAtNul chan ≠ []) :
    (PgListener.listenAll channels).run l =
      .ok () ⟨some ((C ∪ channels.toFinset).image truncateAtNul), l.channels ++ channels, l.eagerReconnect⟩ := by
  obtain ⟨connection, vec, eagerReconnect⟩ := l
  have hne' : ∀ chan ∈ vec ++ channels, truncateAtNul chan ≠ [] := by
    intro chan hchan
    rcases List.mem_append.mp hchan with hchan | hchan
    · exact h.ne_nil chan hchan
    · exact hne chan hchan
  obtain ⟨session, hrun, hcase⟩ := @PgListener.run_connectIfNeeded ⟨connection, vec ++ channels, eagerReconnect⟩ hne'
  -- the session was there and listens to `C`, or was made for `C` and the new names
  have hsession : session ∪ channels.toFinset.image truncateAtNul = (C ∪ channels.toFinset).image truncateAtNul := by
    rw [Finset.image_union]
    rcases hcase with hc | ⟨-, hc⟩
    · rw [h.session_eq session hc]
    · rw [hc, List.toFinset_append, Finset.image_union, h.channels_eq, Finset.union_assoc, Finset.union_self]
  have hx : runSimpleQuery (buildListenAllQuery channels) session = some (session ∪ channels.toFinset.image truncateAtNul) := by
    rw [runSimpleQuery_buildListenAllQuery, if_pos hne]
  have hquery : buildListenAllQuery ((vec ++ channels).drop vec.length) = buildListenAllQuery channels := by
    rw [List.drop_left]
  simp only [PgListener.listenAll, EStateM.run_bind, EStateM.run_get, EStateM.run_modify, hquery, hrun]
  rw [PgListener.run_executeOnConnection_of_ok rfl hx, hsession]

/-! ### One call -/

theorem listen_step (h : Agrees l C) {channel : List Char}
    (hfresh : truncateAtNul channel ∉ l.channels.map truncateAtNul) :
    Agrees ((ListenerCall.listen channel).step (l, C)).1 ((ListenerCall.listen channel).step (l, C)).2 := by
  have hrun := h.run_listen channel
  by_cases hempty : truncateAtNul channel = []
  · -- the server refuses the name: only the session `connect_if_needed` made is new
    rw [if_pos hempty] at hrun
    rw [ListenerCall.step_of_error (.listen channel) hrun]
    exact ⟨h.channels_eq, h.nodup, h.ne_nil, by simp⟩
  · rw [if_neg hempty] at hrun
    rw [ListenerCall.step_of_ok (.listen channel) hrun]
    constructor
    · ext x
      simp [ListenerCall.requested, ← h.channels_eq]
    · rw [List.map_append, List.nodup_append]
      refine ⟨h.nodup, List.nodup_singleton _, ?_⟩
      intro a ha b hb hab
      rw [List.map_singleton, List.mem_singleton] at hb
      exact hfresh (hb ▸ hab ▸ ha)
    · intro chan hchan
      rcases List.mem_append.mp hchan with hchan | hchan
      · exact h.ne_nil chan hchan
      · rwa [List.mem_singleton.mp hchan]
    · intro session hsession
      rw [Option.mem_some_iff] at hsession
      rw [← hsession, ListenerCall.requested, Finset.image_insert]

theorem listenAll_step (h : Agrees l C) {channels : List (List Char)}
    (hnodup : ((l.channels ++ channels).map truncateAtNul).Nodup) (hne : ∀ chan ∈ channels, truncateAtNul chan ≠ []) :
    Agrees ((ListenerCall.listenAll channels).step (l, C)).1 ((ListenerCall.listenAll channels).step (l, C)).2 := by
  rw [ListenerCall.step_of_ok (.listenAll channels) (h.run_listenAll hne)]
  constructor
  · rw [List.toFinset_append, h.channels_eq, ListenerCall.requested]
  · exact hnodup
  · intro chan hchan
    rcases List.mem_append.mp hchan with hchan | hchan
    · exact h.ne_nil chan hchan
    · exact hne chan hchan
  · intro session hsession
    rw [Option.mem_some_iff] at hsession
    rw [← hsession, ListenerCall.requested]

theorem unlisten_step (h : Agrees l C) {channel : List Char}
    (hfresh : channel ∈ l.channels ∨ truncateAtNul channel ∉ l.channels.map truncateAtNul) :
    Agrees ((ListenerCall.unlisten channel).step (l, C)).1 ((ListenerCall.unlisten channel).step (l, C)).2 := by
  have hrun := PgListener.run_unlisten (l := l) channel
  by_cases hfail : l.connection ≠ none ∧ truncateAtNul channel = []
  · rw [if_pos hfail] at hrun
    rw [ListenerCall.step_of_error (.unlisten channel) hrun]
    exact h
  · rw [if_neg hfail] at hrun
    rw [ListenerCall.step_of_ok (.unlisten channel) hrun]
    have hvec : l.channels.Nodup := h.nodup.of_map truncateAtNul
    constructor
    · show (l.channels.erase channel).toFinset = C.erase channel
      rw [toFinset_erase_of_nodup hvec, h.channels_eq]
    · exact h.nodup.sublist (List.erase_sublist.map truncateAtNul)
    · intro chan hchan
      exact h.ne_nil chan (List.mem_of_mem_erase hchan)
    · -- the server erases the truncation, the `Vec` the one channel that has it
      intro session hsession
      obtain ⟨old, hold, rfl⟩ := Option.mem_map.mp hsession
      rw [h.session_eq old hold, ListenerCall.requested, ← h.channels_eq, image_erase_of_nodup_map h.nodup hfresh]

/-- `unlisten_all` brings back agreement from any state: it clears the `Vec`,
`C` and the session. -/
theorem unlistenAll_step (l : PgListener) (C : Finset (List Char)) :
    Agrees ((ListenerCall.unlistenAll).step (l, C)).1 ((ListenerCall.unlistenAll).step (l, C)).2 := by
  rw [ListenerCall.step_of_ok .unlistenAll PgListener.run_unlistenAll]
  refine ⟨rfl, List.nodup_nil, by simp, ?_⟩
  intro session hsession
  obtain ⟨-, -, rfl⟩ := Option.mem_map.mp hsession
  rw [ListenerCall.requested, Finset.image_empty]

theorem tryRecvLost_step (h : Agrees l C) :
    Agrees ((ListenerCall.tryRecvLost).step (l, C)).1 ((ListenerCall.tryRecvLost).step (l, C)).2 := by
  rw [ListenerCall.step_of_ok .tryRecvLost (PgListener.run_tryRecvLost h.ne_nil)]
  refine ⟨h.channels_eq, h.nodup, h.ne_nil, ?_⟩
  intro session hsession
  cases he : l.eagerReconnect with
  | false => simp [he] at hsession
  | true =>
    -- the new session is the one `connect_if_needed` made for the `Vec`
    simp only [he, if_true, Option.mem_some_iff] at hsession
    rw [← hsession, h.channels_eq, ListenerCall.requested]

end Agrees

/-- **One call keeps the listener to `C`.** -/
theorem agree_step {l : PgListener} {C : Finset (List Char)} (h : Agrees l C) {call : ListenerCall} (hfresh : call.Fresh l) :
    Agrees (call.step (l, C)).1 (call.step (l, C)).2 := by
  cases call with
  | listen channel => exact h.listen_step hfresh
  | listenAll channels => exact h.listenAll_step hfresh.1 hfresh.2
  | unlisten channel => exact h.unlisten_step hfresh
  | unlistenAll => exact Agrees.unlistenAll_step l C
  | tryRecvLost => exact h.tryRecvLost_step

/-- **Every run keeps the listener to `C`**, when each of its calls is `Fresh`:
after each call a live session listens to exactly `C`, and a session made
again listens to it too (`run_connectIfNeeded`). -/
theorem agree_run (calls : List ListenerCall) {p : PgListener × Finset (List Char)} (h : Agrees p.1 p.2)
    (hfresh : ListenerCall.FreshAlong p calls) : Agrees (ListenerCall.steps calls p).1 (ListenerCall.steps calls p).2 := by
  induction calls generalizing p with
  | nil => exact h
  | cons call calls ih =>
    obtain ⟨hcall, hrest⟩ := hfresh
    exact ih (agree_step h hcall) hrest

/-- Listening twice to one channel and then unlistening it: every call
returns `Ok` and the user holds no channel, yet the `Vec` still holds it, and
the session `try_recv` makes after the connection is lost listens to it. -/
theorem unlisten_after_double_listen :
    ([ListenerCall.listen ['a'], .listen ['a'], .unlisten ['a'], .tryRecvLost].forM ListenerCall.run).run
        ⟨some ∅, [], true⟩ = .ok () ⟨some {['a']}, [['a']], true⟩ ∧
      [ListenerCall.listen ['a'], .listen ['a'], .unlisten ['a'], .tryRecvLost].foldl
        (fun C call => call.requested C) ∅ = ∅ := by
  constructor
  · rfl
  · decide

end Sqlx.Postgres
