/-
The loops of a pion connection are a relay.

As long as no `WriteRTP` fails, every step of the loops is a step of a relay with the same
packets in hand and the same packets written, or one that the relay does not notice: a
loop that returns at the end of its stream has nothing in its hand.
-/
import WebrtcEchoes.Pion.Echo
import WebrtcEchoes.Proofs.Rtp

namespace WebrtcEchoes.Pion.Echo

open Rtp

/-- A loop, seen as the loop of a relay. -/
def Loop.relay (l : Loop) : Relay.Loop Kind Packet := ⟨outTrack l.track.mimeType, l.hand⟩

def State.relay (s : State) : Relay.State Kind Packet := ⟨s.loops.map Loop.relay, s.written⟩

/-- The step of the relay that answers an event. -/
def Event.relay : Event → Option (Relay.Event Kind Packet)
  | .onTrack track => some (.start (outTrack track.mimeType))
  | .read k (.packet rtp) => some (.read k rtp)
  | .read _ _ => none
  | .write k true => some (.write k)
  | .write _ false => none

/-- No `WriteRTP` returns an error. -/
def Writes (_ : State) (e : Event) (_ : State) : Prop := ∀ k, e ≠ .write k false

/-- The packets that loop `k` has read. -/
def readBy (k : Nat) (es : List Event) : List Packet := Relay.readBy k (es.filterMap Event.relay)

theorem step_read {ssrc : Kind → UInt32} {s s' : State} {k : Nat} {result : ReadRTP}
    (h : step ssrc s (.read k result) = some s') :
    s.fatal = none ∧ ∃ track, s.loops[k]? = some ⟨track, .reading⟩ ∧
      s' = s.received k track result := by
  simp only [step] at h
  split at h
  · simp at h
  · rename_i hf
    refine ⟨by simpa using hf, ?_⟩
    simp only [read] at h
    split at h
    · rename_i track hk
      exact ⟨track, hk, (Option.some.inj h).symm⟩
    · simp at h

theorem step_write {ssrc : Kind → UInt32} {s s' : State} {k : Nat} {ok : Bool}
    (h : step ssrc s (.write k ok) = some s') :
    s.fatal = none ∧ ∃ track rtp, s.loops[k]? = some ⟨track, .holding rtp⟩ ∧
      s' =
        if ok then
          { s.moved k track .reading with
            written := s.written ++ [⟨k, track.kind, rtp.withSSRC (ssrc track.kind)⟩] }
        else { s with fatal := some .writeRTP } := by
  simp only [step] at h
  split at h
  · simp at h
  · rename_i hf
    refine ⟨by simpa using hf, ?_⟩
    simp only [write] at h
    split at h
    · rename_i track rtp hk
      refine ⟨track, rtp, hk, ?_⟩
      rw [outTrack_mimeType] at h
      cases ok with
      | true => exact (Option.some.inj h).symm
      | false => exact (Option.some.inj h).symm
    · simp at h

/-- **One step of the loops is one step of the relay, or none.** -/
theorem step_simulates {ssrc : Kind → UInt32} {s s' : State} {e : Event}
    (h : step ssrc s e = some s') (hwrites : Writes s e s') :
    (Relay.machine (forward ssrc)).Answers (fun s t => t = s.relay) s' s.relay e.relay := by
  cases e with
  | onTrack track =>
      simp only [step] at h
      split at h
      · simp at h
      · obtain rfl := Option.some.inj h
        exact ⟨_, rfl, by simp [State.relay, onTrack, Loop.relay, Loop.hand]⟩
  | read k result =>
      obtain ⟨-, track, hk, rfl⟩ := step_read h
      cases result with
      | packet rtp => exact ⟨_, Relay.step_read_view (forward ssrc) hk rfl rfl, rfl⟩
      | eof =>
          show s.relay = (s.moved k track .returned).relay
          have hsame : (s.loops.set k ⟨track, .returned⟩).map Loop.relay = s.loops.map Loop.relay :=
            Relay.map_set_view hk rfl
          simp only [State.relay, State.moved, hsame]
      | error => rfl
  | write k ok =>
      obtain ⟨-, track, rtp, hk, rfl⟩ := step_write h
      cases ok with
      | true =>
          have hreading : Loop.relay ⟨track, .reading⟩ = ⟨outTrack track.mimeType, none⟩ := rfl
          refine ⟨_, Relay.step_write_view (forward ssrc) hk rfl hreading, ?_⟩
          simp [State.relay, State.moved, forward]
      | false => exact absurd rfl (hwrites k)

/-! ### The loops that are there -/

/-- The track that an event reports. -/
def Event.track : Event → Option RemoteTrack
  | .onTrack track => some track
  | _ => none

/-- Every track that was reported has its loop, and a loop has returned only at the end of its
stream. -/
structure Served (es : List Event) (s : State) : Prop where
  loops : s.loops.map Loop.track = es.filterMap Event.track
  returned : ∀ k track, s.loops[k]? = some ⟨track, .returned⟩ → .read k .eof ∈ es

/-- A loop that moves on to another phase than its end. -/
theorem Served.moved {es : List Event} {s : State} (h : Served es s) {k : Nat}
    {track : RemoteTrack} {phase phase' : Phase} (hk : s.loops[k]? = some ⟨track, phase⟩)
    {e : Event} (hend : phase' = .returned → e = .read k .eof) (hnone : e.track = none) :
    Served (es ++ [e]) (s.moved k track phase') := by
  refine ⟨?_, ?_⟩
  · show (s.loops.set k ⟨track, phase'⟩).map Loop.track = _
    have hsame : (s.loops.set k ⟨track, phase'⟩).map Loop.track = s.loops.map Loop.track :=
      Relay.map_set_view hk rfl
    rw [hsame, h.loops]
    simp [hnone]
  · intro j track' hj
    by_cases hjk : j = k
    · subst hjk
      obtain ⟨-, hphase⟩ : track = track' ∧ phase' = .returned := by
        have hlt := (List.getElem?_eq_some_iff.mp hk).1
        simpa [State.moved, hlt] using hj
      simp [hend hphase]
    · have hold : s.loops[j]? = some ⟨track', .returned⟩ := by
        simpa [State.moved, List.getElem?_set_ne (Ne.symm hjk)] using hj
      exact List.mem_append_left _ (h.returned j track' hold)

theorem served_of_run {ssrc : Kind → UInt32} :
    ∀ es s, (connection ssrc).run es = some s → Served es s := by
  refine Machine.run_induction ⟨rfl, by simp [connection]⟩ ?_
  intro es s e s' _ ih h
  cases e with
  | onTrack track =>
      simp only [connection, step] at h
      split at h
      · simp at h
      · obtain rfl := Option.some.inj h
        refine ⟨by simp [onTrack, ih.loops, Event.track], fun k track' hk => ?_⟩
        rcases Nat.lt_or_ge k s.loops.length with hlt | hge
        · rw [onTrack, List.getElem?_append_left hlt] at hk
          exact List.mem_append_left _ (ih.returned k track' hk)
        · have hmem := List.mem_of_getElem? ((List.getElem?_append_right hge).symm.trans hk)
          simp at hmem
  | read k result =>
      have hread : step ssrc s (.read k result) = some s' := h
      obtain ⟨-, track, hk, rfl⟩ := step_read hread
      cases result with
      | packet rtp => exact ih.moved hk (by simp) rfl
      | eof => exact ih.moved hk (fun _ => rfl) rfl
      | error => exact ⟨by simp [State.received, ih.loops, Event.track],
          fun j track' hj => List.mem_append_left _ (ih.returned j track' hj)⟩
  | write k ok =>
      have hwrite : step ssrc s (.write k ok) = some s' := h
      obtain ⟨-, track, rtp, hk, rfl⟩ := step_write hwrite
      cases ok with
      | true =>
          have hmoved : Served (es ++ [.write k true]) (s.moved k track .reading) :=
            ih.moved hk (by simp) rfl
          exact ⟨hmoved.loops, hmoved.returned⟩
      | false => exact ⟨by simp [ih.loops, Event.track],
          fun j track' hj => List.mem_append_left _ (ih.returned j track' hj)⟩

/-! ### The packet in hand -/

/-- As long as no call has ended the process, the packet in the hand of a loop can be written
next. -/
def CanWrite (ssrc : Kind → UInt32) (s : State) : Prop :=
  s.fatal = none → ∀ k l rtp, s.loops[k]? = some l → l.hand = some rtp →
    ∃ s', (connection ssrc).step s (.write k true) = some s' ∧
      s'.written = s.written ++ [⟨k, l.track.kind, rtp.withSSRC (ssrc l.track.kind)⟩]

theorem canWrite (ssrc : Kind → UInt32) (s : State) : CanWrite ssrc s := by
  rintro hf k ⟨track, phase⟩ rtp hk hhand
  cases phase with
  | holding rtp' =>
      obtain rfl : rtp' = rtp := by simpa [Loop.hand] using hhand
      exact ⟨_, by simp [connection, step, hf, write, hk]; rfl, rfl⟩
  | _ => simp [Loop.hand] at hhand

/-! ### The relay in a run -/

/-- **The connection is echoed along every run without a failing write.** -/
theorem echoed_of_run {ssrc : Kind → UInt32} {es : List Event} {s : State}
    (h : (connection ssrc).run es = some s) (hwrites : (connection ssrc).Each Writes es) :
    Echoed ssrc (s.loops.map Loop.track) (readBy · es)
      (fun k => s.loops[k]?.bind Loop.hand) s.written := by
  obtain ⟨t, ht, rfl⟩ := Machine.run_of_simulation (Relay.machine (forward ssrc))
    (R := fun s t => t = s.relay) Event.relay rfl
    (fun s t e s' hR hse hw => by subst hR; exact step_simulates hse hw) es s h hwrites
  exact echoed_of_relayed (fun l => outTrack_mimeType l.track) (Relay.relayed_of_run _ _ ht)

end WebrtcEchoes.Pion.Echo
