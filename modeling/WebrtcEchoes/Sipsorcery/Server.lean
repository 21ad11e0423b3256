/-
`Offer` and `GotOffer` of the sipsorcery server, `sipsorcery/server/Program.cs`.

`GotOffer` returns null when the remote description is not accepted, and `Offer` does
nothing with a null.  Everything else that goes wrong on the way is an exception.
-/
import WebrtcEchoes.EmbedIO

namespace WebrtcEchoes.Sipsorcery.Server

open EmbedIO

/-- `SetDescriptionResultEnum` -/
inductive SetDescriptionResult
  | ok
  | refused (reason : String)
  deriving DecidableEq, Repr

/-- `SDPMediaTypesEnum` -/
inductive SDPMediaType
  | audio | video | application
  deriving DecidableEq, Repr

/-- What the action is handed by the libraries; `none` and `false` are exceptions, except
where it says otherwise. -/
structure Library where
  getRequestData : RequestData
  /-- `new RTCPeerConnection()` and the candidates of the preset addresses. -/
  newPeerConnection : Bool
  /-- The media of `SDP.ParseSDPDescription`. -/
  parseSDPDescription : Option String → Option (List SDPMediaType)
  addTrack : SDPMediaType → Bool
  setRemoteDescription : RTCSessionDescriptionInit → Option SetDescriptionResult
  createAnswer : Bool
  setLocalDescription : Bool
  /-- `pc.localDescription.sdp.ToString()` -/
  localSdp : Option String
  serializeAsync : Bool

/-- A track is added for each kind that the offer has. -/
def addTracks (lib : Library) (media : List SDPMediaType) : Bool :=
  (.audio ∉ media ∨ lib.addTrack .audio) ∧ (.video ∉ media ∨ lib.addTrack .video)

/-- What comes before the remote description is set; false is an exception. -/
def prepare (lib : Library) (offer : RTCSessionDescriptionInit) : Bool :=
  lib.newPeerConnection &&
    match lib.parseSDPDescription offer.sdp with
    | none => false
    | some media => addTracks lib media

/-- `GotOffer`: `none` is an exception, and `some false` the null that stands for a failure. -/
def gotOffer (lib : Library) (offer : RTCSessionDescriptionInit) : Option Bool :=
  if ¬ prepare lib offer then none
  else
    match lib.setRemoteDescription offer with
    | none => none
    | some .ok => if lib.createAnswer ∧ lib.setLocalDescription then some true else none
    | some (.refused _) => some false

/-- `new Timer(...)` with a due time in milliseconds, as an `int`, accepts it. -/
def newTimer (pcTimeout : Int32) : Bool := pcTimeout = 0 ∨ -1 ≤ pcTimeout * 1000

/-- `Offer` -/
def offer (lib : Library) (pcTimeout : Int32) : Ended :=
  match lib.getRequestData.offer? with
  | none => ⟨none, true⟩
  | some offer =>
      match gotOffer lib offer with
      | none => ⟨none, true⟩
      | some false => ⟨none, false⟩
      | some true =>
          match lib.localSdp with
          | none => ⟨none, true⟩
          | some sdp =>
              if ¬ lib.serializeAsync then ⟨none, true⟩
              else ⟨some (answer (some sdp)), ¬ newTimer pcTimeout⟩

end WebrtcEchoes.Sipsorcery.Server
