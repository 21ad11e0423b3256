/-
The state enumerations of the WebRTC peer connection interface.

Every implementation reports the same states to its callbacks, under the names of
its own language; the clients and servers of the repository react to a few of them
and print the rest.
-/
namespace WebrtcEchoes

/-- `RTCPeerConnectionState`, what a connection-state callback is handed. -/
inductive PeerConnectionState
  | new | connecting | connected | disconnected | failed | closed
  deriving DecidableEq, Repr

/-- `RTCIceConnectionState`, what an ICE-state callback is handed. -/
inductive ICEConnectionState
  | new | checking | connected | completed | disconnected | failed | closed
  deriving DecidableEq, Repr

end WebrtcEchoes
