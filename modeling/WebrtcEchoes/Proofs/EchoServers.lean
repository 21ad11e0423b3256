/-
The pion and the webrtc-rs server echo RTP packets in the same way.

A connection has one out track for audio and one for video, whatever the peer sends.  The
packets of every remote track are written in order, once and with their SSRC replaced, to
the out track of the same kind; remote tracks of different kinds are never mixed, and
those of the same kind always are.
-/
import WebrtcEchoes.Proofs.Pion.Echo
import WebrtcEchoes.Proofs.WebrtcRs.Echo

namespace WebrtcEchoes.EchoServers

open Rtp

/--
**Both servers echo every connection, as long as no write fails.**

However many remote tracks there are and however their packets interleave, what was read
from a track is what was written for it, but for the packet in hand, which can be written
next; it goes to the out track of the same kind, and what is written under one SSRC comes
from tracks of one kind, and from one track where the peer sends no two of a kind.
-/
theorem servers_echo :
    (∀ (ssrc : Kind → UInt32) (es : List Pion.Echo.Event) (s : Pion.Echo.State),
      (Pion.Echo.connection ssrc).run es = some s →
      (Pion.Echo.connection ssrc).Each Pion.Echo.Writes es →
      Echoed ssrc (s.loops.map Pion.Echo.Loop.track) (Pion.Echo.readBy · es)
        (fun k => s.loops[k]?.bind Pion.Echo.Loop.hand) s.written ∧
      Pion.Echo.CanWrite ssrc s) ∧
    (∀ (ctx : WebrtcRs.Echo.Contexts) (es : List WebrtcRs.Echo.Event) (s : WebrtcRs.Echo.State),
      (WebrtcRs.Echo.connection ctx).run es = some s →
      (WebrtcRs.Echo.connection ctx).Each WebrtcRs.Echo.Writes es →
      Echoed (WebrtcRs.Echo.ssrcOf ctx) (s.tasks.map WebrtcRs.Echo.Task.track)
        (WebrtcRs.Echo.readBy · es) (fun k => s.tasks[k]?.bind WebrtcRs.Echo.Task.hand)
        s.written ∧
      WebrtcRs.Echo.CanWrite ctx s) :=
  ⟨fun ssrc _ s h hw => ⟨Pion.Echo.echoed_of_run h hw, Pion.Echo.canWrite ssrc s⟩,
    fun _ _ _ h hw => ⟨WebrtcRs.Echo.echoed_of_run h hw, WebrtcRs.Echo.canWrite_of_run h⟩⟩

/-- Audio is sent under 1 and video under 2. -/
def oneAndTwo : Kind → UInt32
  | .audio => 1
  | .video => 2

theorem oneAndTwo_injective : Function.Injective oneAndTwo := by
  intro a b
  cases a <;> cases b <;> decide

def opus : RemoteTrack := ⟨.audio, "opus".toList⟩

def vp8 : RemoteTrack := ⟨.video, "VP8".toList⟩

/-- A packet of one byte. -/
def packet (ssrc : UInt32) (byte : UInt8) : Packet :=
  ⟨⟨2, false, false, 96, 0, 0, ssrc, [], none⟩, [byte]⟩

/-- Two remote tracks, each of which sends a packet. -/
def pionTracks (a b : RemoteTrack) : List Pion.Echo.Event :=
  [.onTrack a, .onTrack b, .read 0 (.packet (packet 10 0)), .read 1 (.packet (packet 11 1)),
    .write 1 true, .write 0 true]

def webrtcRsTracks (a b : RemoteTrack) : List WebrtcRs.Echo.Event :=
  [.onTrack a, .onTrack b, .lock 0, .lock 1, .read 0 (some (packet 10 0)),
    .read 1 (some (packet 11 1)), .write 1 true, .write 0 true]

theorem pionTracks_writes (ssrc : Kind → UInt32) (a b : RemoteTrack) :
    (Pion.Echo.connection ssrc).Each Pion.Echo.Writes (pionTracks a b) := by
  rintro pre e post s s' he - - k rfl
  have hmem : Pion.Echo.Event.write k false ∈ pionTracks a b := by rw [he]; simp
  simp [pionTracks] at hmem

theorem webrtcRsTracks_writes (ssrc : Kind → UInt32) (a b : RemoteTrack) :
    (WebrtcRs.Echo.connection fun kind => [⟨ssrc kind, true⟩]).Each WebrtcRs.Echo.Writes
      (webrtcRsTracks a b) := by
  refine WebrtcRs.Echo.writes_of_streams (by simp) ?_
  rintro e he k rfl
  simp [webrtcRsTracks] at he

/-- An audio and a video track: the packets under one SSRC come from one of them. -/
theorem servers_echo_audio_and_video :
    (∃ s, (Pion.Echo.connection oneAndTwo).run (pionTracks opus vp8) = some s ∧
      s.written.length = 2 ∧ Unmixed s.written) ∧
    (∃ s, (WebrtcRs.Echo.connection fun kind => [⟨oneAndTwo kind, true⟩]).run
        (webrtcRsTracks opus vp8) = some s ∧ s.written.length = 2 ∧ Unmixed s.written) := by
  refine ⟨⟨_, rfl, by decide, ?_⟩, ⟨_, rfl, by decide, ?_⟩⟩
  · exact (servers_echo.1 oneAndTwo _ _ rfl (pionTracks_writes oneAndTwo opus vp8)).1.oneTrack
      oneAndTwo_injective (by decide)
  · exact (servers_echo.2 _ _ _ rfl (webrtcRsTracks_writes oneAndTwo opus vp8)).1.oneTrack
      oneAndTwo_injective (by decide)

/-- Two audio tracks: no call fails, and both servers mix them under one SSRC. -/
theorem two_audio_tracks_mixed :
    (∃ s, (Pion.Echo.connection oneAndTwo).run (pionTracks opus opus) = some s ∧
      (Pion.Echo.connection oneAndTwo).Each Pion.Echo.Writes (pionTracks opus opus) ∧
      ¬ Unmixed s.written) ∧
    (∃ s, (WebrtcRs.Echo.connection fun kind => [⟨oneAndTwo kind, true⟩]).run
        (webrtcRsTracks opus opus) = some s ∧
      (WebrtcRs.Echo.connection fun kind => [⟨oneAndTwo kind, true⟩]).Each WebrtcRs.Echo.Writes
        (webrtcRsTracks opus opus) ∧
      ¬ Unmixed s.written) := by
  refine ⟨⟨_, rfl, pionTracks_writes _ _ _, by decide⟩, ⟨_, rfl, webrtcRsTracks_writes _ _ _, ?_⟩⟩
  decide

end WebrtcEchoes.EchoServers
