/-
`PcFactory::CreatePeerConnection`, as one call sees it.

What the WebRTC library answers and how the wait for the signaling thread ends are
parameters; `Libwebrtc/Handoff.lean` has the two threads that decide the latter.
Every exit of the function is here: three for the factory and the track, one for the
offer's SDP, the timeout, the missing local description, the answer, and the exceptions
of the string and JSON operations in between.
-/
import WebrtcEchoes.Libwebrtc.Json

namespace WebrtcEchoes.Libwebrtc

/-- How the wait for `isReady` ends: in its timeout, or with the local description that
the peer connection has by then. -/
inductive Wait
  | timedOut
  | ready (localDescription : Option Bytes)
  deriving DecidableEq, Repr

/-- What the libraries answer to the calls made for one request. -/
structure Library where
  /-- `nlohmann::json::parse`, `none` where it throws. -/
  parse : Bytes → Option Json
  /-- `CreatePeerConnectionOrError` is ok. -/
  createPeerConnectionOrError : Bool
  /-- `CreateAudioTrack` returns a track. -/
  createAudioTrack : Bool
  /-- `AddTrack` is ok. -/
  addTrack : Bool
  /-- `CreateSessionDescription` returns a description for this SDP. -/
  createSessionDescription : Bytes → Bool
  /-- `SetRemoteDescription` reports success to its observer, which only logs a failure. -/
  setRemoteDescription : Bool
  wait : Wait

/-- The factory, by the number of peer connections in `_peerConnections`. -/
structure PcFactory where
  peerConnections : Nat
  deriving DecidableEq, Repr

/-- `answerJson.dump()`.  The members of the object come in the order of their keys. -/
def dumpAnswer (answerSdp : Bytes) : Except Exn String :=
  (dumpEscaped answerSdp).map fun sdp =>
    "\x7b\"sdp\":\"" ++ sdp ++ "\",\"type\":\"answer\"\x7d"

/-- What follows the wait. -/
def afterWait : Wait → Except Exn String
  | .timedOut => .ok ""
  | .ready none => .ok "Failed to set local description."
  | .ready (some answerSdp) => dumpAnswer answerSdp

/-- What follows `_peerConnections.push_back(pc)`. -/
def applyOffer (lib : Library) (offerJson : Json) : Except Exn String := do
  let sdp ← (← offerJson.subscript "sdp").toStdString
  if lib.createSessionDescription sdp then afterWait lib.wait else return "error"

/-- `PcFactory::CreatePeerConnection` -/
def createPeerConnection (lib : Library) (self : PcFactory) (buffer : Bytes) (length : Int) :
    PcFactory × Except Exn String :=
  -- a negative length is converted to a `size_t` beyond `max_size`
  if length < 0 then (self, .error .lengthError)
  else
    match lib.parse (buffer.take length.toNat) with
    | none => (self, .error .parseError)
    | some offerJson =>
        if ¬ lib.createPeerConnectionOrError then (self, .ok "error")
        else if ¬ lib.createAudioTrack then (self, .ok "error")
        else if ¬ lib.addTrack then (self, .ok "error")
        else ({ peerConnections := self.peerConnections + 1 }, applyOffer lib offerJson)

end WebrtcEchoes.Libwebrtc
