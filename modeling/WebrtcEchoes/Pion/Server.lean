/-
The connection registry of the pion server, `pion/main.go`.

`offer` appends every connection it creates to the global slice `pcs`, and the
callback it installs takes the connection out again once ICE reports `Failed`.  Both
run under `pcsLock`, so each is one step.  A slice is modelled by the list of its
elements: only the one global header `pcs` is ever read, so the backing array that
`append` writes into cannot be observed.

The callback deletes from `pcs` inside `for i := range pcs`.  Go evaluates the
length of the range expression once, at loop entry, while `pcs[i]` in the body reads
the global slice as it is by then; an index past its end is a run-time panic, and a
panic in a callback ends the process.  `pc.Close` is taken to succeed.
-/
import WebrtcEchoes.Lib.Machine
import WebrtcEchoes.PeerStates

namespace WebrtcEchoes.Pion.Server

/-- A `*webrtc.PeerConnection`.  Pointers are only compared, so a number stands for one. -/
abbrev PeerConnection := Nat

/-- The run-time panic of an index expression, with the index and the slice's length. -/
inductive GoPanic
  | indexOutOfRange (index length : Nat)
  deriving DecidableEq, Repr

/-- `append(pcs[:i], pcs[i+1:]...)` -/
def removeAt (pcs : List PeerConnection) (i : Nat) : List PeerConnection :=
  pcs.take i ++ pcs.drop (i + 1)

/-- The body of the loop, for the indices that are still to come. -/
def closeLoop (pc : PeerConnection) :
    List Nat → List PeerConnection → Except GoPanic (List PeerConnection)
  | [], pcs => .ok pcs
  | i :: rest, pcs =>
      match pcs[i]? with
      | none => .error (.indexOutOfRange i pcs.length)
      | some p => if p = pc then closeLoop pc rest (removeAt pcs i) else closeLoop pc rest pcs

/-- `for i := range pcs { if pcs[i] == pc { ... } }` -/
def closeFailed (pc : PeerConnection) (pcs : List PeerConnection) :
    Except GoPanic (List PeerConnection) :=
  closeLoop pc (List.range pcs.length) pcs

/-- The globals of the server. -/
structure State where
  /-- The registry. -/
  pcs : List PeerConnection
  /-- How many connections were created; the next one is this number. -/
  created : Nat
  /-- Ghost: the connections for which `Failed` was reported. -/
  failed : List PeerConnection
  /-- The panic that ended the process, if one did. -/
  panicked : Option GoPanic
  deriving DecidableEq, Repr

/-- What happens to the registry. -/
inductive Event
  /-- An offer request creates and registers a connection. -/
  | offer
  /-- `OnICEConnectionStateChange` of a connection is called. -/
  | iceConnectionStateChange (pc : PeerConnection) (state : ICEConnectionState)
  deriving DecidableEq, Repr

/-- `pcs = append(pcs, pc)` for a fresh connection. -/
def offer (s : State) : State :=
  { s with pcs := s.pcs ++ [s.created], created := s.created + 1 }

/-- The callback installed by `offer`. -/
def onICEConnectionStateChange (pc : PeerConnection) (state : ICEConnectionState)
    (s : State) : State :=
  if state = .failed then
    match closeFailed pc s.pcs with
    | .ok pcs => { s with pcs := pcs, failed := pc :: s.failed }
    | .error p => { s with failed := pc :: s.failed, panicked := some p }
  else s

/-- One request or one callback of a live server; only a created connection calls back. -/
def step (s : State) : Event → Option State
  | .offer => if s.panicked.isSome then none else some (offer s)
  | .iceConnectionStateChange pc state =>
      if s.panicked.isSome ∨ s.created ≤ pc then none
      else some (onICEConnectionStateChange pc state s)

/-- The server from `pcs = []*webrtc.PeerConnection{}` on. -/
def server : Machine State Event where
  init := { pcs := [], created := 0, failed := [], panicked := none }
  step := step

end WebrtcEchoes.Pion.Server
