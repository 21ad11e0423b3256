/-
The tasks of a webrtc-rs connection are a relay.

The invariant of the simulation is that a task works with the first context of its out
track, the one it has taken out under the lock; so all tasks of one kind write under one
SSRC.  A task that ends before it reads, or at a failing `read_rtp`, has nothing in its
hand.
-/
import WebrtcEchoes.WebrtcRs.Echo
import WebrtcEchoes.Proofs.Rtp

namespace WebrtcEchoes.WebrtcRs.Echo

open Rtp

/-- A task, seen as the loop of a relay. -/
def Task.relay (t : Task) : Relay.Loop Kind Packet := ⟨outTrack t.track.mimeType, t.hand⟩

def State.relay (s : State) : Relay.State Kind Packet := ⟨s.tasks.map Task.relay, s.written⟩

/-- The step of the relay that answers an event. -/
def Event.relay : Event → Option (Relay.Event Kind Packet)
  | .onTrack track => some (.start (outTrack track.mimeType))
  | .lock _ => none
  | .read k (some rtp) => some (.read k rtp)
  | .read _ none => none
  | .write k true => some (.write k)
  | .write _ false => none

/-- The write of a packet in hand succeeds: there is a stream, and it reports no error. -/
def Writes (s : State) (e : Event) (_ : State) : Prop :=
  ∀ k ok track c rtp, e = .write k ok → s.tasks[k]? = some ⟨track, .holding c rtp⟩ →
    c.writeStream = true ∧ ok = true

/-- The packets that task `k` has read. -/
def readBy (k : Nat) (es : List Event) : List Packet := Relay.readBy k (es.filterMap Event.relay)

/-- The SSRC of an out track: that of its first context. -/
def ssrcOf (ctx : Contexts) (kind : Kind) : UInt32 :=
  ((ctx kind).head?.map TrackLocalContext.ssrc).getD 0

/-! ### What a step can do -/

theorem step_lock {ctx : Contexts} {s s' : State} {k : Nat} (h : step ctx s (.lock k) = some s') :
    ∃ track, s.tasks[k]? = some ⟨track, .lock⟩ ∧
      s' = s.moved k track (.locked (ctx track.kind).head?) := by
  simp only [step, lock] at h
  split at h
  · rename_i track hk
    rw [outTrack_mimeType] at h
    exact ⟨track, hk, (Option.some.inj h).symm⟩
  · simp at h

theorem step_read {ctx : Contexts} {s s' : State} {k : Nat} {result : Option Packet}
    (h : step ctx s (.read k result) = some s') :
    ∃ track c, s.tasks[k]? = some ⟨track, .reading c⟩ ∧
      s' = s.moved k track (.received c result) := by
  simp only [step, read] at h
  split at h
  · rename_i track c hk
    exact ⟨track, c, hk, (Option.some.inj h).symm⟩
  · simp at h

theorem step_write {ctx : Contexts} {s s' : State} {k : Nat} {ok : Bool}
    (h : step ctx s (.write k ok) = some s') :
    ∃ track c rtp, s.tasks[k]? = some ⟨track, .holding c rtp⟩ ∧
      s' =
        if c.writeStream ∧ ok then
          { s.moved k track (.reading c) with
            written := s.written ++ [⟨k, track.kind, rtp.withSSRC c.ssrc⟩] }
        else s.moved k track .ended := by
  simp only [step, write] at h
  split at h
  · rename_i track c rtp hk
    refine ⟨track, c, rtp, hk, ?_⟩
    rw [outTrack_mimeType] at h
    split at h
    · rename_i hok
      rw [if_pos hok]
      exact (Option.some.inj h).symm
    · rename_i hok
      rw [if_neg hok]
      exact (Option.some.inj h).symm
  · simp at h

/-! ### The simulation -/

/-- The context a task works with. -/
def Phase.ctx : Phase → Option TrackLocalContext
  | .reading c => some c
  | .holding c _ => some c
  | _ => none

/-- The tasks work with the first context of their out track. -/
def Bound (ctx : Contexts) (s : State) : Prop :=
  ∀ t ∈ s.tasks, ∀ c, t.phase.ctx = some c → (ctx t.track.kind).head? = some c

/-- A task that goes on with a context of its own, or with none. -/
theorem Bound.moved {ctx : Contexts} {s : State} (h : Bound ctx s) (k : Nat) {track : RemoteTrack}
    {phase : Phase} (hphase : ∀ c, phase.ctx = some c → (ctx track.kind).head? = some c) :
    Bound ctx (s.moved k track phase) := by
  intro t ht
  rcases List.mem_or_eq_of_mem_set ht with ht | rfl
  · exact h t ht
  · exact hphase

theorem Bound.of_getElem? {ctx : Contexts} {s : State} (h : Bound ctx s) {k : Nat} {t : Task}
    (hk : s.tasks[k]? = some t) : ∀ c, t.phase.ctx = some c → (ctx t.track.kind).head? = some c :=
  h t (List.mem_of_getElem? hk)

/-- A task that moves on with the same hand is not noticed by the relay. -/
theorem relay_moved {s : State} {k : Nat} {track : RemoteTrack} {phase phase' : Phase}
    (hk : s.tasks[k]? = some ⟨track, phase⟩)
    (hhand : Task.hand ⟨track, phase'⟩ = Task.hand ⟨track, phase⟩) :
    s.relay = (s.moved k track phase').relay := by
  have hview : Task.relay ⟨track, phase'⟩ = Task.relay ⟨track, phase⟩ := by
    simp only [Task.relay, hhand]
  have hsame := Relay.map_set_view hk hview
  simp only [State.relay, State.moved, hsame]

theorem bound_step {ctx : Contexts} {s s' : State} {e : Event} (hb : Bound ctx s)
    (h : step ctx s e = some s') : Bound ctx s' := by
  cases e with
  | onTrack track =>
      obtain rfl := Option.some.inj h
      intro t ht
      rcases List.mem_append.mp ht with ht | ht
      · exact hb t ht
      · obtain rfl : t = ⟨track, .lock⟩ := by simpa using ht
        simp [Phase.ctx]
  | lock k =>
      obtain ⟨track, hk, rfl⟩ := step_lock h
      refine hb.moved k ?_
      cases (ctx track.kind).head? <;> simp [Phase.locked, Phase.ctx]
  | read k result =>
      obtain ⟨track, c, hk, rfl⟩ := step_read h
      have hctx := hb.of_getElem? hk
      cases result with
      | none => exact hb.moved k (by simp [Phase.received, Phase.ctx])
      | some rtp => exact hb.moved k hctx
  | write k ok =>
      obtain ⟨track, c, rtp, hk, rfl⟩ := step_write h
      have hctx := hb.of_getElem? hk
      split
      · exact hb.moved k hctx
      · exact hb.moved k (by simp [Phase.ctx])

theorem bound_of_run {ctx : Contexts} :
    ∀ es s, (connection ctx).run es = some s → Bound ctx s :=
  Machine.run_induction (P := fun _ s => Bound ctx s) (fun t ht => by simp [connection] at ht)
    fun _ _ _ _ _ hb hse => bound_step hb hse

/-- **One step of the tasks is one step of the relay, or none.** -/
theorem step_simulates {ctx : Contexts} {s s' : State} {e : Event} (hb : Bound ctx s)
    (h : step ctx s e = some s') (hwrites : Writes s e s') :
    (Relay.machine (forward (ssrcOf ctx))).Answers (fun s t => t = s.relay) s' s.relay
      e.relay := by
  cases e with
  | onTrack track =>
      obtain rfl := Option.some.inj h
      exact ⟨_, rfl, by simp [State.relay, Task.relay, Task.hand]⟩
  | lock k =>
      obtain ⟨track, hk, rfl⟩ := step_lock h
      refine relay_moved hk ?_
      cases (ctx track.kind).head? <;> rfl
  | read k result =>
      obtain ⟨track, c, hk, rfl⟩ := step_read h
      cases result with
      | none => exact relay_moved hk rfl
      | some rtp => exact ⟨_, Relay.step_read_view (forward (ssrcOf ctx)) hk rfl rfl, rfl⟩
  | write k ok =>
      obtain ⟨track, c, rtp, hk, rfl⟩ := step_write h
      obtain ⟨hstream, rfl⟩ := hwrites k ok track c rtp rfl hk
      have hhead : (ctx track.kind).head? = some c := hb.of_getElem? hk c rfl
      have hssrc : ssrcOf ctx track.kind = c.ssrc := by simp [ssrcOf, hhead]
      rw [if_pos ⟨hstream, rfl⟩]
      refine ⟨_, Relay.step_write_view (forward (ssrcOf ctx)) hk rfl
        (show Task.relay ⟨track, .reading c⟩ = _ from rfl), ?_⟩
      simp [State.relay, State.moved, forward, hssrc]

/-- **The connection is echoed along every run without a failing write.** -/
theorem echoed_of_run {ctx : Contexts} {es : List Event} {s : State}
    (h : (connection ctx).run es = some s) (hwrites : (connection ctx).Each Writes es) :
    Echoed (ssrcOf ctx) (s.tasks.map Task.track) (readBy · es)
      (fun k => s.tasks[k]?.bind Task.hand) s.written := by
  have hsim := Machine.run_of_simulation (Relay.machine (forward (ssrcOf ctx)))
    (R := fun s t => t = s.relay ∧ Bound ctx s) Event.relay
    ⟨rfl, bound_of_run [] _ rfl⟩ ?_ es s h hwrites
  · obtain ⟨t, ht, rfl, -⟩ := hsim
    exact echoed_of_relayed (fun l => outTrack_mimeType l.track) (Relay.relayed_of_run _ _ ht)
  · rintro s t e s' ⟨rfl, hb⟩ hse hw
    exact Machine.Answers.mono (step_simulates hb hse hw)
      fun t ht => ⟨ht, bound_step hb hse⟩

/-- The packet in the hand of a task can be written next, if its out track has a stream. -/
def CanWrite (ctx : Contexts) (s : State) : Prop :=
  ∀ k track c rtp, s.tasks[k]? = some ⟨track, .holding c rtp⟩ → c.writeStream = true →
    ∃ s', (connection ctx).step s (.write k true) = some s' ∧
      s'.written = s.written ++ [⟨k, track.kind, rtp.withSSRC (ssrcOf ctx track.kind)⟩]

theorem canWrite_of_run {ctx : Contexts} {es : List Event} {s : State}
    (h : (connection ctx).run es = some s) : CanWrite ctx s := by
  intro k track c rtp hk hstream
  have hhead : (ctx track.kind).head? = some c := (bound_of_run es s h).of_getElem? hk c rfl
  have hssrc : ssrcOf ctx track.kind = c.ssrc := by simp [ssrcOf, hhead]
  refine ⟨_, by simp [connection, step, write, hk, hstream]; rfl, ?_⟩
  rw [hssrc]

/-- Where every context has a stream, a write fails only by reporting an error. -/
theorem writes_of_streams {ctx : Contexts} (hctx : ∀ kind, ∀ c ∈ ctx kind, c.writeStream = true)
    {es : List Event} (hes : ∀ e ∈ es, ∀ k, e ≠ .write k false) :
    (connection ctx).Each Writes es := by
  rintro pre e post s s' rfl hs - k ok track c rtp rfl hk
  have hhead : (ctx track.kind).head? = some c := (bound_of_run pre s hs).of_getElem? hk c rfl
  refine ⟨hctx track.kind c (List.mem_of_head? hhead), ?_⟩
  cases ok with
  | true => rfl
  | false => exact absurd rfl (hes _ (by simp) k)

end WebrtcEchoes.WebrtcRs.Echo
