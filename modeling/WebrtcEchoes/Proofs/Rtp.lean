/-
What it means that a connection is echoed.

`Echoed` speaks about the remote tracks of a connection, the packets read from each of
them and the packets written, and so about no server in particular.  A server whose loops
are a relay echoes.
-/
import WebrtcEchoes.Lib.Relay
import WebrtcEchoes.Rtp

namespace WebrtcEchoes.Rtp

/-- The packets of every remote track are echoed. -/
structure Echoed (ssrc : Kind → UInt32) (tracks : List RemoteTrack) (reads : Nat → List Packet)
    (hands : Nat → Option Packet) (written : List (Relay.Write Kind Packet)) : Prop where
  /-- What was read from a track was written, in the same order and with the SSRC of the
  out track, but for the packet that is still in hand. -/
  inOrder : ∀ k track, tracks[k]? = some track →
    Relay.writtenBy k written ++ (hands k).toList.map (·.withSSRC (ssrc track.kind)) =
      (reads k).map (·.withSSRC (ssrc track.kind))
  /-- It was written to the out track of the same kind. -/
  sameKind : ∀ w ∈ written, ∃ track, tracks[w.loop]? = some track ∧ w.route = track.kind
  /-- The packets under one SSRC come from tracks of one kind. -/
  oneKind : Function.Injective ssrc → ∀ w ∈ written, ∀ v ∈ written,
    w.item.header.ssrc = v.item.header.ssrc → w.route = v.route
  /-- They come from one track, where there is at most one track of each kind. -/
  oneTrack : Function.Injective ssrc → (tracks.map RemoteTrack.kind).Nodup →
    ∀ w ∈ written, ∀ v ∈ written,
      w.item.header.ssrc = v.item.header.ssrc → w.loop = v.loop

/-- The packets under one SSRC come from one remote track. -/
def Unmixed (written : List (Relay.Write Kind Packet)) : Prop :=
  ∀ w ∈ written, ∀ v ∈ written, w.item.header.ssrc = v.item.header.ssrc → w.loop = v.loop

instance (written : List (Relay.Write Kind Packet)) : Decidable (Unmixed written) :=
  inferInstanceAs (Decidable (∀ w ∈ written, ∀ v ∈ written, _))

/-- What an out track does to a packet. -/
def forward (ssrc : Kind → UInt32) (kind : Kind) (p : Packet) : Packet := p.withSSRC (ssrc kind)

theorem forward_ssrc (ssrc : Kind → UInt32) (kind : Kind) (p : Packet) :
    (forward ssrc kind p).header.ssrc = ssrc kind := rfl

/-- **A relay of the loops of a connection echoes it.** -/
theorem echoed_of_relayed {L : Type} {ssrc : Kind → UInt32} {view : L → Relay.Loop Kind Packet}
    {track : L → RemoteTrack} (hview : ∀ l, (view l).route = (track l).kind) {ls : List L}
    {es : List (Relay.Event Kind Packet)} {written : List (Relay.Write Kind Packet)}
    (h : Relay.Relayed (forward ssrc) es ⟨ls.map view, written⟩) :
    Echoed ssrc (ls.map track) (fun k => Relay.readBy k es)
      (fun k => ls[k]?.bind fun l => (view l).hand) written := by
  refine ⟨?_, ?_, ?_, ?_⟩
  · intro k t ht
    obtain ⟨l, hl, rfl⟩ : ∃ l, ls[k]? = some l ∧ track l = t := by simpa using ht
    have horder := h.inOrder k (view l) (by simp [hl])
    simp only [hl, Option.bind_some, ← hview l]
    rw [← Option.toList_map]
    exact horder
  · intro w hw
    obtain ⟨l, hl, hroute⟩ : ∃ l, ls[w.loop]? = some l ∧ (view l).route = w.route := by
      simpa using h.routed w hw
    exact ⟨track l, by simp [hl], by rw [← hroute, hview]⟩
  · intro hinj w hw v hv heq
    exact h.route_eq (fun p => p.header.ssrc) (forward_ssrc ssrc) hinj hw hv heq
  · intro hinj hnd w hw v hv heq
    have hroutes : (ls.map view).map Relay.Loop.route = (ls.map track).map RemoteTrack.kind := by
      simp [Function.comp_def, hview]
    exact h.loop_eq (by rw [hroutes]; exact hnd) hw hv
      (h.route_eq (fun p => p.header.ssrc) (forward_ssrc ssrc) hinj hw hv heq)

end WebrtcEchoes.Rtp
