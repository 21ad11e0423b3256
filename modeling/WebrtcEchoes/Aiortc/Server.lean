/-
The connection registry of the aiortc server, `aiortc/server.py`.

Everything runs on one event loop, so a coroutine is interrupted at its awaits only, and
a step takes one coroutine from one await to the next.  The number of a connection is the
number of the request that creates it.  `on_shutdown` closes the connections it finds and
waits for that before it clears the set; `asyncio.gather` hands on the first exception and
leaves the other closings running.
-/
import WebrtcEchoes.Lib.Machine
import WebrtcEchoes.PeerStates

namespace WebrtcEchoes.Aiortc.Server

abbrev PeerConnection := Nat

/-- The await at which a handler is suspended, or how it ended. -/
inductive Handler
  | json | setRemoteDescription | createAnswer | setLocalDescription
  | responded | raised
  deriving DecidableEq, Repr

/-- Where `on_shutdown` is. -/
inductive Shutdown
  | notStarted
  /-- `await asyncio.gather(*coros)` -/
  | gathering
  | completed
  | raised
  deriving DecidableEq, Repr

structure State where
  handlers : Nat → Handler
  pcs : List PeerConnection
  /-- The callbacks suspended at `await pc.close()`, by their connection. -/
  callbacks : List PeerConnection
  shutdown : Shutdown
  /-- The connections of `coros`. -/
  coros : List PeerConnection
  /-- Those whose `close` has not ended. -/
  pending : List PeerConnection
  /-- Some `close` of `coros` has raised. -/
  gatherRaised : Bool
  /-- Ghost: the connections ever added to `pcs`. -/
  added : List PeerConnection
  /-- Ghost: the connections that were taken out of `pcs`. -/
  removed : List PeerConnection
  /-- Ghost: the connections of which a `close` has returned. -/
  closed : List PeerConnection

inductive Event
  /-- A handler goes on; `ok` is false where it raises before its next await. -/
  | handler (i : Nat) (ok : Bool)
  /-- The callback of a connection is called. -/
  | iceConnectionStateChange (i : PeerConnection) (state : ICEConnectionState)
  /-- `pc.close()` of a callback ends. -/
  | closeEnded (i : PeerConnection) (ok : Bool)
  /-- `on_shutdown` is called. -/
  | onShutdown
  /-- `pc.close()` of `coros` ends. -/
  | gathered (i : PeerConnection) (ok : Bool)
  /-- `on_shutdown` is resumed. -/
  | resume
  deriving DecidableEq, Repr

def State.moved (s : State) (i : Nat) (handler : Handler) : State :=
  { s with handlers := Function.update s.handlers i handler }

/-- `offer`, from one await to the next. -/
def offer (s : State) (i : Nat) (ok : Bool) : Option State :=
  match s.handlers i with
  -- the body and its two members, then `RTCPeerConnection()` and `pcs.add(pc)`
  | .json =>
      if ok then
        some { s.moved i .setRemoteDescription with pcs := s.pcs ++ [i], added := s.added ++ [i] }
      else some (s.moved i .raised)
  | .setRemoteDescription => some (s.moved i (if ok then .createAnswer else .raised))
  | .createAnswer => some (s.moved i (if ok then .setLocalDescription else .raised))
  | .setLocalDescription => some (s.moved i (if ok then .responded else .raised))
  | .responded | .raised => none

/-- `on_iceconnectionstatechange`, up to its await. -/
def onIceConnectionStateChange (s : State) (i : PeerConnection) (state : ICEConnectionState) :
    State :=
  if state = .failed then { s with callbacks := s.callbacks ++ [i] } else s

/-- What a callback does behind its await. -/
def closeEnded (s : State) (i : PeerConnection) (ok : Bool) : State :=
  if ok then
    { s with
      callbacks := s.callbacks.erase i
      pcs := s.pcs.filter (· ≠ i)
      removed := s.removed ++ s.pcs.filter (· = i)
      closed := s.closed ++ [i] }
  else { s with callbacks := s.callbacks.erase i }

/-- `on_shutdown`, up to its await; to gather nothing does not suspend. -/
def onShutdown (s : State) : State :=
  if s.pcs = [] then { s with shutdown := .completed }
  else { s with shutdown := .gathering, coros := s.pcs, pending := s.pcs }

def gathered (s : State) (i : PeerConnection) (ok : Bool) : State :=
  if ok then { s with pending := s.pending.erase i, closed := s.closed ++ [i] }
  else { s with pending := s.pending.erase i, gatherRaised := true }

/-- `on_shutdown` behind its await. -/
def resume (s : State) : Option State :=
  if s.shutdown = .gathering then
    if s.gatherRaised then some { s with shutdown := .raised }
    else if s.pending = [] then
      some { s with shutdown := .completed, pcs := [], removed := s.removed ++ s.pcs }
    else none
  else none

/-- Only a connection that was created calls back, and `on_shutdown` is called once. -/
def step (s : State) : Event → Option State
  | .handler i ok => offer s i ok
  | .iceConnectionStateChange i state =>
      if i ∈ s.added then some (onIceConnectionStateChange s i state) else none
  | .closeEnded i ok => if i ∈ s.callbacks then some (closeEnded s i ok) else none
  | .onShutdown => if s.shutdown = .notStarted then some (onShutdown s) else none
  | .gathered i ok => if i ∈ s.pending then some (gathered s i ok) else none
  | .resume => resume s

def server : Machine State Event where
  init :=
    { handlers := fun _ => .json
      pcs := []
      callbacks := []
      shutdown := .notStarted
      coros := []
      pending := []
      gatherRaised := false
      added := []
      removed := []
      closed := [] }
  step := step

end WebrtcEchoes.Aiortc.Server
