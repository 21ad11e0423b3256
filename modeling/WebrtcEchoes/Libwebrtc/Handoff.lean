/-
The hand-off between the HTTP thread and the signaling thread in
`PcFactory::CreatePeerConnection`, from `PostTask` on.

The posted lambda and the `CreateSdpObserver` of `PcObserver.h` hold references to five
locals of the call, so the frame of the call is part of the state: it is live until the
call returns, and `strays` records what the signaling thread touched after that.  The
mutex, the flag and the wait are those of the source; `wait_for` re-acquires the mutex
before it looks at the flag, and gives up only when the flag is still down then.

The peer connection follows the W3C rules.  The two operations run in the order they
were issued, a failed one changes nothing, and the argument-less `SetLocalDescription`
makes an offer in the stable state and an answer once a remote offer is applied.
-/
import WebrtcEchoes.Lib.Machine
import WebrtcEchoes.Libwebrtc.PcFactory

namespace WebrtcEchoes.Libwebrtc

/-! ### The peer connection -/

/-- A local description, with the offer that an answer answers. -/
inductive Description
  | offer (sdp : Bytes)
  | answer (remoteOffer sdp : Bytes)
  deriving DecidableEq, Repr

/-- `ToString` -/
def Description.toSdp : Description → Bytes
  | .offer sdp => sdp
  | .answer _ sdp => sdp

inductive SignalingState
  | stable
  | haveLocalOffer
  | haveRemoteOffer (offer : Bytes)
  deriving DecidableEq, Repr

structure PeerConnection where
  signalingState : SignalingState
  remoteDescription : Option Bytes
  localDescription : Option Description
  deriving DecidableEq, Repr

namespace PeerConnection

def fresh : PeerConnection := ⟨.stable, none, none⟩

/-- `SetRemoteDescription` of an offer, when it completes. -/
def setRemoteDescription (pc : PeerConnection) (offer : Bytes) (ok : Bool) : PeerConnection :=
  if ok then
    { pc with signalingState := .haveRemoteOffer offer, remoteDescription := some offer }
  else pc

/-- `SetLocalDescription` without a description, when it completes: `none` is an error, and
`some sdp` the text of the description it created. -/
def setLocalDescription (pc : PeerConnection) : Option Bytes → PeerConnection
  | none => pc
  | some sdp =>
      match pc.signalingState with
      | .haveRemoteOffer offer =>
          { pc with signalingState := .stable, localDescription := some (.answer offer sdp) }
      | _ => { pc with signalingState := .haveLocalOffer, localDescription := some (.offer sdp) }

end PeerConnection

/-! ### The two threads -/

/-- The locals of the call that the signaling thread uses. -/
inductive Local
  | pc | remoteOffer | mtx | cv | isReady
  deriving DecidableEq, Repr

inductive Thread
  | http | signaling
  deriving DecidableEq, Repr

/-- What the HTTP thread does next. -/
inductive Http
  | postTask
  /-- `std::unique_lock<std::mutex> lck(mtx)` -/
  | lock
  /-- `if (!isReady)` -/
  | test
  /-- Blocked in `cv.wait_for`, without the mutex. -/
  | waiting
  /-- `pc->local_description()` and what follows. -/
  | describe
  | returned (wait : Wait)
  deriving DecidableEq, Repr

/-- What the posted task does next. -/
inductive Task
  | notPosted | setRemoteDescription | setLocalDescription | finished
  deriving DecidableEq, Repr

/-- What `OnSetLocalDescriptionComplete` does next. -/
inductive Observer
  | notCalled | lock | setReady | notify | unlock | done
  deriving DecidableEq, Repr

/-- An asynchronous operation of the peer connection. -/
inductive Operation (α : Type)
  | notIssued
  | pending
  | done (result : α)
  deriving DecidableEq, Repr

structure Handoff where
  http : Http
  task : Task
  setRemote : Operation Bool
  setLocal : Operation (Option Bytes)
  observer : Observer
  /-- The thread that holds the mutex. -/
  mtx : Option Thread
  isReady : Bool
  pc : PeerConnection
  /-- The locals the signaling thread has used after the call returned. -/
  strays : List Local
  deriving DecidableEq, Repr

namespace Handoff

/-- Who moves. -/
inductive Event
  /-- The HTTP thread; `timedOut` says whether the three seconds are over when it wakes. -/
  | http (timedOut : Bool)
  | task
  /-- `SetRemoteDescription` completes and reports to its observer. -/
  | remoteComplete (ok : Bool)
  /-- `SetLocalDescription` completes; its observer is to be called. -/
  | localComplete (result : Option Bytes)
  | observer
  deriving DecidableEq, Repr

/-- The call has returned. -/
def Http.isReturned : Http → Bool
  | .returned _ => true
  | _ => false

/-- The signaling thread uses some locals of the call. -/
def touch (s : Handoff) (locals : List Local) : Handoff :=
  { s with strays := if Http.isReturned s.http then s.strays ++ locals else s.strays }

def httpStep (s : Handoff) (timedOut : Bool) : Option Handoff :=
  match s.http with
  | .postTask => some { s with http := .lock, task := .setRemoteDescription }
  | .lock =>
      if s.mtx = none then some { s with http := .test, mtx := some .http } else none
  | .test =>
      if s.isReady then some { s with http := .describe }
      else some { s with http := .waiting, mtx := none }
  | .waiting =>
      if s.mtx ≠ none then none
      else if s.isReady then some { s with http := .describe, mtx := some .http }
      else if timedOut then some { s with http := .returned .timedOut }
      else some s
  | .describe =>
      some { s with
        http := .returned (.ready (s.pc.localDescription.map Description.toSdp))
        mtx := none }
  | .returned _ => none

def taskStep (s : Handoff) : Option Handoff :=
  match s.task with
  | .setRemoteDescription =>
      some { s.touch [.pc, .remoteOffer] with task := .setLocalDescription, setRemote := .pending }
  | .setLocalDescription =>
      some { s.touch [.pc] with task := .finished, setLocal := .pending }
  | _ => none

def observerStep (s : Handoff) : Option Handoff :=
  match s.observer with
  | .lock =>
      -- only a live mutex makes the thread wait
      if ¬ Http.isReturned s.http ∧ s.mtx ≠ none then none
      else some { s.touch [.mtx] with observer := .setReady, mtx := some .signaling }
  | .setReady => some { s.touch [.isReady] with observer := .notify, isReady := true }
  | .notify => some { s.touch [.cv] with observer := .unlock }
  | .unlock => some { s.touch [.mtx] with observer := .done, mtx := none }
  | _ => none

def step (offer : Bytes) (s : Handoff) : Event → Option Handoff
  | .http timedOut => httpStep s timedOut
  | .task => taskStep s
  | .remoteComplete ok =>
      if s.setRemote = .pending then
        some { s with setRemote := .done ok, pc := s.pc.setRemoteDescription offer ok }
      else none
  | .localComplete result =>
      match s.setRemote, s.setLocal with
      | .done _, .pending =>
          some { s with
            setLocal := .done result
            pc := s.pc.setLocalDescription result
            observer := .lock }
      | _, _ => none
  | .observer => observerStep s

/-- The hand-off for one remote offer. -/
def machine (offer : Bytes) : Machine Handoff Event where
  init :=
    { http := .postTask, task := .notPosted, setRemote := .notIssued, setLocal := .notIssued
      observer := .notCalled, mtx := none, isReady := false, pc := .fresh, strays := [] }
  step := step offer

/-- The call has returned and the signaling thread has nothing left to do for it. -/
def settled (s : Handoff) : Option Wait :=
  match s.http, s.observer with
  | .returned wait, .done => some wait
  | _, _ => none

/-- The local description with which the call returned after its observer had reported. -/
def reported (s : Handoff) : Option (Option Bytes) :=
  match s.http with
  | .returned (.ready localDescription) => some localDescription
  | _ => none

end Handoff

end WebrtcEchoes.Libwebrtc
