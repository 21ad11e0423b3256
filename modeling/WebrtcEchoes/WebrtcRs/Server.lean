/-
The connection registry of the webrtc-rs server, `webrtc-rs/server/src/main.rs`.

`process_offer` pushes the connection it creates onto `PEER_CONNECTIONS_MUTEX` and goes on
to negotiate without the lock.  The callback it installs spawns a task for every `Failed`,
and the task closes and removes the connection while it holds the lock, across the await
of `close`.  Requests and tasks run on several threads, so every call is a step of its
own.  The number of a connection is the number of the request that creates it.

A handler ends early where a call panics, and where it is dropped at an await because its
client went away.  The guard of a `tokio` mutex is released in both cases.
-/
import WebrtcEchoes.Lib.Machine
import WebrtcEchoes.PeerStates

namespace WebrtcEchoes.WebrtcRs.Server

abbrev PeerConnection := Nat

/-- The calls of `process_offer`. -/
inductive Call
  | readBody | parseOffer | registerDefaults | newPeerConnection
  /-- The block around `pcs.push`; its end drops the guard. -/
  | lock | push | unlock
  | onIceConnectionStateChange
  | addAudioTrack | addVideoTrack
  | setRemoteDescription | createAnswer | setLocalDescription | localDescription
  | respond
  deriving DecidableEq, Repr

def processOffer : List Call :=
  [.readBody, .parseOffer, .registerDefaults, .newPeerConnection, .lock, .push, .unlock,
    .onIceConnectionStateChange, .addAudioTrack, .addVideoTrack, .setRemoteDescription,
    .createAnswer, .setLocalDescription, .localDescription, .respond]

/-- The handler may end at this call. -/
def Call.fallible : Call → Bool
  | .push | .unlock | .onIceConnectionStateChange => false
  | _ => true

/-- The handler of a request. -/
structure Handler where
  /-- The calls still to be made. -/
  todo : List Call
  /-- It ended at the first of them. -/
  failed : Bool
  deriving DecidableEq, Repr

/-- Where a task is that was spawned for a failed connection. -/
inductive Phase
  /-- `PEER_CONNECTIONS_MUTEX.lock().await` -/
  | lock
  /-- `for pc in &*pcs`, with the connections still to come. -/
  | scan (rest : List PeerConnection)
  /-- `pc.close().await` -/
  | close (pc : PeerConnection) (rest : List PeerConnection)
  /-- `pcs.retain` is done and the guard is about to be dropped. -/
  | unlock
  | done
  deriving DecidableEq, Repr

structure Task (Id : Type) where
  /-- `stats_id2` -/
  statsId : Id
  phase : Phase
  deriving DecidableEq, Repr

inductive Party
  | handler (i : Nat)
  | task (k : Nat)
  deriving DecidableEq, Repr

structure State (Id : Type) where
  handlers : Nat → Handler
  tasks : List (Task Id)
  /-- Who holds the mutex. -/
  mutex : Option Party
  /-- What the mutex guards. -/
  pcs : List PeerConnection
  /-- Ghost: the connections pushed, in this order. -/
  pushed : List PeerConnection
  /-- Ghost: the connections that `retain` dropped. -/
  removed : List PeerConnection
  /-- Ghost: the connections for which `Failed` was reported. -/
  failed : List PeerConnection
  /-- Ghost: the calls of `close`. -/
  closed : List PeerConnection

inductive Event
  /-- The next call of a handler; `ok` is false where it ends the handler. -/
  | handler (i : Nat) (ok : Bool)
  /-- The callback of a connection is called. -/
  | iceConnectionStateChange (i : Nat) (state : ICEConnectionState)
  /-- The next step of a task; `ok` is what `close` reports. -/
  | task (k : Nat) (ok : Bool)
  deriving DecidableEq, Repr

variable {Id : Type} [DecidableEq Id] (statsId : PeerConnection → Id)

/-- The handler has made its next call. -/
def State.called (s : State Id) (i : Nat) (rest : List Call) : State Id :=
  { s with handlers := Function.update s.handlers i ⟨rest, false⟩ }

def handlerStep (s : State Id) (i : Nat) (ok : Bool) : Option (State Id) :=
  if (s.handlers i).failed then none
  else
    match (s.handlers i).todo with
    | [] => none
    | call :: rest =>
        if ok = false then
          if call.fallible then
            some { s with handlers := Function.update s.handlers i ⟨call :: rest, true⟩ }
          else none
        else
          match call with
          | .lock =>
              if s.mutex = none then some { s.called i rest with mutex := some (.handler i) }
              else none
          | .push => some { s.called i rest with pcs := s.pcs ++ [i], pushed := s.pushed ++ [i] }
          | .unlock => some { s.called i rest with mutex := none }
          | _ => some (s.called i rest)

/-- The callback of `on_ice_connection_state_change`. -/
def onIceConnectionStateChange (s : State Id) (i : PeerConnection) (state : ICEConnectionState) :
    State Id :=
  if state = .failed then
    { s with tasks := s.tasks ++ [⟨statsId i, .lock⟩], failed := s.failed ++ [i] }
  else s

/-- A task moves on. -/
def State.moved (s : State Id) (k : Nat) (task : Task Id) (phase : Phase) : State Id :=
  { s with tasks := s.tasks.set k { task with phase := phase } }

/-- One step of the task spawned for a failed connection. -/
def taskStep (s : State Id) (k : Nat) (task : Task Id) : Option (State Id) :=
  match task.phase with
  | .lock =>
      if s.mutex = none then some { s.moved k task (.scan s.pcs) with mutex := some (.task k) }
      else none
  | .scan [] =>
      some { s.moved k task .unlock with
        pcs := s.pcs.filter fun x => statsId x ≠ task.statsId
        removed := s.removed ++ s.pcs.filter fun x => statsId x = task.statsId }
  | .scan (pc :: rest) =>
      if statsId pc = task.statsId then
        some { s.moved k task (.close pc rest) with closed := s.closed ++ [pc] }
      else some (s.moved k task (.scan rest))
  -- an error is printed, and the loop goes on
  | .close _ rest => some (s.moved k task (.scan rest))
  | .unlock => some { s.moved k task .done with mutex := none }
  | .done => none

/-- A connection calls back from the moment on that its callback is set. -/
def step (s : State Id) : Event → Option (State Id)
  | .handler i ok => handlerStep s i ok
  | .iceConnectionStateChange i state =>
      if .onIceConnectionStateChange ∈ (s.handlers i).todo then none
      else some (onIceConnectionStateChange statsId s i state)
  | .task k _ => (s.tasks[k]?).bind (taskStep statsId s k)

def server : Machine (State Id) Event where
  init :=
    { handlers := fun _ => ⟨processOffer, false⟩
      tasks := []
      mutex := none
      pcs := []
      pushed := []
      removed := []
      failed := []
      closed := [] }
  step := step statsId

end WebrtcEchoes.WebrtcRs.Server
