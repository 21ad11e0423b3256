/-
The process of the pion server, `pion/main.go`: all its clients at once.

Every request runs `offer` in a goroutine of its own and every connection has its echo
loops, and they share the registry and the process.  `log.Fatal` ends the process
whichever goroutine calls it, and so does a panic in a callback.  A call of a request is a
step, so requests, callbacks and loops interleave in any way; what a call returns is the
choice of the environment, so a body that cannot be decoded is a `decode` that fails.

A connection is named by the request that creates it.  The callbacks that only print are
left out.
-/
import WebrtcEchoes.Pion.Echo
import WebrtcEchoes.Pion.Server
import Mathlib.Logic.Function.Basic

namespace WebrtcEchoes.Pion.Process

open Rtp

/-- The calls of `offer`. -/
inductive Call
  | decode | newPeerConnection
  /-- `pcs = append(pcs, pc)` under the lock -/
  | register
  | onICEConnectionStateChange
  | addAudioTrack | addVideoTrack
  | onTrack
  | setRemoteDescription | createAnswer | setLocalDescription
  | marshal | write
  deriving DecidableEq, Repr

def offer : List Call :=
  [.decode, .newPeerConnection, .register, .onICEConnectionStateChange, .addAudioTrack,
    .addVideoTrack, .onTrack, .setRemoteDescription, .createAnswer, .setLocalDescription,
    .marshal, .write]

/-- The call returns an error, which `offer` hands to `log.Fatal`. -/
def Call.fallible : Call → Bool
  | .register | .onICEConnectionStateChange | .onTrack => false
  | _ => true

structure Request where
  /-- The calls still to be made. -/
  todo : List Call
  /-- The connection, once it is registered. -/
  pc : Option Server.PeerConnection
  deriving DecidableEq, Repr

/-- Where `log.Fatal` was called. -/
inductive Fatal
  | offer (call : Call)
  /-- `pc.Close` in the callback -/
  | close
  | echo (call : Echo.Fatal)
  deriving DecidableEq, Repr

structure State where
  requests : Nat → Request
  registry : Server.State
  /-- The loops of the connection of each request. -/
  echo : Nat → Echo.State
  /-- The requests whose response was written. -/
  responses : List Nat
  /-- What ended the process, unless it was the panic of the registry. -/
  fatal : Option Fatal

inductive Event
  /-- The next call of a request; `ok` is false where it returns an error. -/
  | call (i : Nat) (ok : Bool)
  /-- The ICE callback of a connection is called; `closed` is false where `pc.Close` returns
  an error to it. -/
  | iceConnectionStateChange (i : Nat) (state : ICEConnectionState) (closed : Bool)
  /-- A remote track of a connection arrives, or one of its loops moves on. -/
  | echo (i : Nat) (event : Echo.Event)
  deriving DecidableEq, Repr

/-- The process has ended. -/
def State.stopped (s : State) : Prop := s.fatal ≠ none ∨ s.registry.panicked ≠ none

instance (s : State) : Decidable s.stopped := inferInstanceAs (Decidable (_ ∨ _))

/-- The request has made its next call. -/
def State.called (s : State) (i : Nat) (call : Call) (rest : List Call) : State :=
  { s with
    requests := Function.update s.requests i ⟨rest, (s.requests i).pc⟩
    responses := if call = .write then s.responses ++ [i] else s.responses }

/-- The request registers its connection, as `Server.offer` does it. -/
def State.registered (s : State) (i : Nat) (rest : List Call) : State :=
  { s with
    requests := Function.update s.requests i ⟨rest, some s.registry.created⟩
    registry := Server.offer s.registry }

def callStep (s : State) (i : Nat) (ok : Bool) : Option State :=
  match (s.requests i).todo with
  | [] => none
  | call :: rest =>
      if ok = false then
        if call.fallible then some { s with fatal := some (.offer call) } else none
      else if call = .register then some (s.registered i rest)
      else some (s.called i call rest)

/-- The callback: the registry's own, with a `pc.Close` that may fail. -/
def iceStep (s : State) (i : Nat) (state : ICEConnectionState) (closed : Bool) : Option State :=
  if .onICEConnectionStateChange ∈ (s.requests i).todo then none
  else
    (s.requests i).pc.map fun pc =>
      if state = .failed ∧ pc ∈ s.registry.pcs ∧ closed = false then
        { s with fatal := some .close }
      else { s with registry := Server.onICEConnectionStateChange pc state s.registry }

def echoStep (ssrc : Nat → Kind → UInt32) (s : State) (i : Nat) (e : Echo.Event) : Option State :=
  if .onTrack ∈ (s.requests i).todo then none
  else
    (Echo.step (ssrc i) (s.echo i) e).map fun t =>
      { s with echo := Function.update s.echo i t, fatal := t.fatal.map Fatal.echo }

def step (ssrc : Nat → Kind → UInt32) (s : State) (e : Event) : Option State :=
  if s.stopped then none
  else
    match e with
    | .call i ok => callStep s i ok
    | .iceConnectionStateChange i state closed => iceStep s i state closed
    | .echo i e => echoStep ssrc s i e

/-- The server, where `ssrc i` are the SSRCs of the out tracks of the connection of `i`. -/
def process (ssrc : Nat → Kind → UInt32) : Machine State Event where
  init :=
    { requests := fun _ => ⟨offer, none⟩
      registry := Server.server.init
      echo := fun i => (Echo.connection (ssrc i)).init
      responses := []
      fatal := none }
  step := step ssrc

end WebrtcEchoes.Pion.Process
