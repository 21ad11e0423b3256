/-
The browser client, `html/index.html`.

`pc`, `isClosed` and `isOfferSent` are globals, and every start makes a new connection.
The connections are numbered in that order, so `pc` is always the last one.  A step is one
turn of the event loop: a click, an event, a timer, or the continuation of a call that was
awaited.  What the page hands to the browser comes back as such a turn at any later time
or never: the calls of `start`, the timer it sets, and the response to a POST.

The browser follows the W3C rules.  A description is set only on the connection that
created it, and not on a closed one, and a connection gathers once it has a local
description.  An answer is set on an open connection that has made an offer and has no
answer yet, and it waits for a `setLocalDescription` that is under way; anywhere else the
call is rejected, and the page does nothing about that.
-/
import WebrtcEchoes.Lib.Machine

namespace WebrtcEchoes.Html.Index

/-- `RTCIceGatheringState` -/
inductive GatheringState
  | new | gathering | complete
  deriving DecidableEq, Repr

/-- A connection, as far as the page looks at it. -/
structure Peer where
  /-- `localDescription` is not null. -/
  localDescription : Bool
  /-- An answer was set on it. -/
  remoteDescription : Bool
  iceGatheringState : GatheringState
  /-- `close` was called. -/
  closed : Bool
  /-- The timer that `start` set for it has expired. -/
  timedOut : Bool
  deriving DecidableEq, Repr

def Peer.fresh : Peer := ⟨false, false, .new, false, false⟩

/-- Its own gathering has completed, or its own timer has expired. -/
def Peer.ready (p : Peer) : Prop := p.iceGatheringState = .complete ∨ p.timedOut = true

/-- `setRemoteDescription` sets an answer on it. -/
def Peer.TakesAnswer (p : Peer) : Prop :=
  p.localDescription = true ∧ p.remoteDescription = false ∧ p.closed = false

instance (p : Peer) : Decidable p.TakesAnswer := by
  unfold Peer.TakesAnswer
  infer_instance

/-- The await of a `start` that has not come to its end. -/
inductive Start
  /-- `await closePeer()` -/
  | closePeer
  /-- `await pc.createOffer()` of the connection that this `start` has made. -/
  | createOffer (own : Nat)
  /-- `await pc.setLocalDescription(offer)` of what is `pc` by then. -/
  | setLocalDescription (own target : Nat)
  deriving DecidableEq, Repr

/-- What comes back from a POST. -/
inductive Response
  /-- The fetch fails, or the body is not JSON. -/
  | rejected
  | null
  | answer
  deriving DecidableEq, Repr

structure State where
  peers : Nat → Peer
  /-- How many connections were made. -/
  created : Nat
  isClosed : Bool
  isOfferSent : Bool
  starts : List Start
  /-- The timers that have not expired, by the connection they were set for. -/
  timers : List Nat
  /-- The requests without a response, by the connection whose description was posted. -/
  fetches : List Nat
  /-- The answers that wait for a `setLocalDescription`, by the connection they are to be set
  on and the one they were obtained for. -/
  answers : List (Nat × Nat)
  /-- Ghost: the connections posted, as they were then. -/
  posts : List (Nat × Peer)
  /-- Ghost: the connections an answer was set on, with the one it was obtained for. -/
  applied : List (Nat × Nat)

/-- The global `pc`, once it is there. -/
def State.pc (s : State) : Nat := s.created - 1

def State.modify (s : State) (i : Nat) (f : Peer → Peer) : State :=
  { s with peers := Function.update s.peers i (f (s.peers i)) }

inductive Event
  /-- The button Start. -/
  | start
  /-- The button Close. -/
  | closePeer
  /-- A `start` goes on behind its await; `ok` is false where the call was rejected. -/
  | resume (k : Nat) (ok : Bool)
  /-- `onicegatheringstatechange` of a connection. -/
  | gathering (i : Nat) (state : GatheringState)
  | timer (i : Nat)
  | response (i : Nat) (response : Response)
  deriving DecidableEq, Repr

/-- `closePeer`, up to its await. -/
def closePeer (s : State) : State :=
  { s.modify s.pc (fun p => { p with closed := true }) with isClosed := true }

/-- `start` from `isOfferSent = false` to `await pc.createOffer()`. -/
def makePeer (s : State) : State :=
  { s with
    isOfferSent := false
    isClosed := false
    peers := Function.update s.peers s.created .fresh
    created := s.created + 1
    starts := s.starts ++ [.createOffer s.created] }

/-- `start`, up to its first await. -/
def start (s : State) : State :=
  if s.isClosed then makePeer s
  else { closePeer s with starts := s.starts ++ [.closePeer] }

/-- `sendOffer`, up to its await. -/
def sendOffer (s : State) : State :=
  if s.isOfferSent then s
  else
    { s with
      isOfferSent := true
      fetches := s.fetches ++ [s.pc]
      posts := s.posts ++ [(s.pc, s.peers s.pc)] }

/-- The browser comes to set an answer on a connection. -/
def setAnswer (s : State) (j i : Nat) : State :=
  if (s.peers j).TakesAnswer then
    { s.modify j (fun p => { p with remoteDescription := true }) with
      applied := s.applied ++ [(j, i)] }
  else s

/-- `pc.setRemoteDescription(answer)` -/
def setRemoteDescription (s : State) (i : Nat) : State :=
  if .setLocalDescription s.pc s.pc ∈ s.starts then
    { s with answers := s.answers ++ [(s.pc, i)] }
  else setAnswer s s.pc i

/-- The first of the answers that have waited is set, and leaves no place for another. -/
def setWaiting (s : State) (j : Nat) : State :=
  match s.answers.find? fun a => a.1 = j with
  | none => s
  | some a => setAnswer s j a.2

/-- `sendOffer`, behind its await. -/
def gotAnswer (s : State) (i : Nat) : Response → State
  | .rejected => s
  | .null => s.modify s.pc fun p => { p with closed := true }
  | .answer => setRemoteDescription s i

/-- A `start` goes on. -/
def resume (s : State) (k : Nat) (ok : Bool) : Option State :=
  let rest := { s with starts := s.starts.eraseIdx k }
  match s.starts[k]? with
  | none => none
  | some .closePeer => if ok then some (makePeer rest) else none
  | some (.createOffer own) =>
      if ok then some { rest with starts := rest.starts ++ [.setLocalDescription own s.pc] }
      else some rest
  | some (.setLocalDescription own target) =>
      if ok then
        if own = target ∧ (s.peers target).closed = false then
          some (setWaiting { rest.modify own (fun p => { p with localDescription := true }) with
            timers := s.timers ++ [own] } own)
        else none
      else some rest

def step (s : State) : Event → Option State
  | .start => some (start s)
  | .closePeer =>
      -- `pc?.close()`
      some (if s.created = 0 then { s with isClosed := true } else closePeer s)
  | .resume k ok => resume s k ok
  | .gathering i state =>
      if i < s.created ∧ (s.peers i).localDescription = true then
        let s := s.modify i fun p => { p with iceGatheringState := state }
        some (if (s.peers s.pc).iceGatheringState = .complete then sendOffer s else s)
      else none
  | .timer i =>
      if i ∈ s.timers then
        some (sendOffer { s.modify i (fun p => { p with timedOut := true }) with
          timers := s.timers.erase i })
      else none
  | .response i response =>
      if i ∈ s.fetches then some (gotAnswer { s with fetches := s.fetches.erase i } i response)
      else none

def page : Machine State Event where
  init :=
    { peers := fun _ => .fresh
      created := 0
      isClosed := true
      isOfferSent := false
      starts := []
      timers := []
      fetches := []
      answers := []
      posts := []
      applied := [] }
  step := step

end WebrtcEchoes.Html.Index
