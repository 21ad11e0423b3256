/-
The process of the sipsorcery test client, `Main` in `sipsorcery/client/Program.cs`,
once the handlers of the connection and of its channel are set.

`Main` posts the offer and only then lets `OnClosed` set `testComplete`.  It starts the
connection, waits for `testComplete` or the timeout, closes the connection if nobody
else has, waits a second more in that case and returns the flag.  The handlers run on
other threads all the while, and `OnClosed` is raised by the first `Close` only.

An exception that leaves `Main` ends the process by a signal, which the container
reports as status 134.
-/
import WebrtcEchoes.Sipsorcery.Timeouts
import WebrtcEchoes.Sipsorcery.Client
import WebrtcEchoes.Lib.Machine

namespace WebrtcEchoes.Sipsorcery.Process

open Client (TestType)

structure Setup where
  testType : TestType
  /-- `Crypto.GetRandomString(5)` -/
  pseudo : String
  pcTimeout : Int32
  deriving DecidableEq, Repr

/-- Where `Main` is. -/
inductive Phase
  /-- In front of `pc.OnClosed += testComplete.Set`. -/
  | posting
  | starting
  | waiting
  /-- `Task.Delay(1000)` -/
  | delaying
  deriving DecidableEq, Repr

structure State where
  phase : Phase
  vars : Client.State
  exited : Option Nat
  deriving DecidableEq, Repr

inductive Label
  | onopen
  | onmessage (proto : MessageKind) (data : List UInt8)
  | onconnectionstatechange (state : PeerConnectionState)
  /-- The response was read and its answer, if there is one, handed to the connection. -/
  | answered
  | started
  /-- An `await` in front of the wait throws. -/
  | thrown
  /-- `testComplete.Wait` returns true. -/
  | released
  | timeout
  /-- `testComplete.Wait` does not accept its argument. -/
  | outOfRange
  | delayed
  deriving DecidableEq, Repr

/-- The status of a process that ends by `SIGABRT`. -/
def aborted : Nat := 134

/-- `pc.Close`, with what `OnClosed` does. -/
def close (phase : Phase) (vars : Client.State) : Client.State :=
  if vars.closed then vars
  else { vars with closed := true, testComplete := vars.testComplete || phase ≠ .posting }

/-- The states that make the handler close the connection. -/
def Lost (state : PeerConnectionState) : Prop := state = .disconnected ∨ state = .failed

instance (state : PeerConnectionState) : Decidable (Lost state) :=
  inferInstanceAs (Decidable (_ ∨ _))

def onConnectionStateChange (testType : TestType) (phase : Phase) (state : PeerConnectionState)
    (vars : Client.State) : Client.State :=
  if Lost state then close phase vars
  else if state = .connected ∧ testType = .peerConnection then
    { vars with success := true, testComplete := true }
  else vars

/-- What follows the wait. -/
def leave (s : State) : State :=
  if s.vars.closed then { s with exited := some s.vars.result }
  else { s with phase := .delaying, vars := close .waiting s.vars }

/-- One step of a process that is still running. -/
def step (setup : Setup) (s : State) (l : Label) : Option State :=
  if s.exited.isSome then none
  else
    match l with
    | .onopen => some s
    | .onmessage _ data =>
        some { s with vars := Client.onMessage setup.testType setup.pseudo data s.vars }
    | .onconnectionstatechange state =>
        some { s with vars := onConnectionStateChange setup.testType s.phase state s.vars }
    | .answered => if s.phase = .posting then some { s with phase := .starting } else none
    | .started => if s.phase = .starting then some { s with phase := .waiting } else none
    | .thrown =>
        if s.phase = .posting ∨ s.phase = .starting then some { s with exited := some aborted }
        else none
    | .released =>
        if s.phase = .waiting ∧ Timeouts.wait setup.pcTimeout ≠ .throws ∧ s.vars.testComplete then
          some (leave s)
        else none
    | .timeout =>
        match Timeouts.wait setup.pcTimeout with
        | .after _ =>
            if s.phase = .waiting ∧ s.vars.testComplete = false then some (leave s) else none
        | _ => none
    | .outOfRange =>
        if s.phase = .waiting ∧ Timeouts.wait setup.pcTimeout = .throws then
          some { s with exited := some aborted }
        else none
    | .delayed =>
        if s.phase = .delaying then some { s with exited := some s.vars.result } else none

def process (setup : Setup) : Machine State Label where
  init :=
    { phase := .posting
      vars := { success := false, testComplete := false, closed := false }
      exited := none }
  step := step setup

/-- The event of the handlers that a label is. -/
def Label.event : Label → Option Client.Event
  | .onmessage _ data => some (.message data)
  | .onconnectionstatechange state => some (.connectionStateChange state)
  | _ => none

end WebrtcEchoes.Sipsorcery.Process
