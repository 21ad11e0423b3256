/-
The process of the werift test client, `werift/client.ts`.

The program has one thread.  When a callback has settled the promise, the continuation
that calls `process.exit` runs before any other callback.  An `await` of the executor
that fails outside the POST is a rejection that nobody handles, and node ends the process
with status 1 for it.
-/
import WebrtcEchoes.Werift.Client
import WebrtcEchoes.Lib.Machine

namespace WebrtcEchoes.Werift.Process

open Client (TestType Settled)

structure Setup where
  testType : TestType
  /-- `Math.random().toString().slice(2, 7)` -/
  pseudo : String
  deriving DecidableEq, Repr

structure State where
  settled : Settled
  exited : Option Nat
  deriving DecidableEq, Repr

inductive Label
  /-- `dc.onopen` -/
  | onopen
  | callback (event : Client.Event)
  | unhandledRejection
  deriving DecidableEq, Repr

/-- One step of a process that is still running. -/
def step (setup : Setup) (s : State) (l : Label) : Option State :=
  if s.exited.isSome then none
  else
    match l with
    | .onopen => if setup.testType = .dataChannelEcho then some s else none
    | .callback event =>
        let settled := Client.handle setup.testType setup.pseudo s.settled event
        some { settled := settled, exited := Client.exitStatus settled }
    | .unhandledRejection => some { s with exited := some 1 }

def process (setup : Setup) : Machine State Label where
  init := { settled := none, exited := none }
  step := step setup

end WebrtcEchoes.Werift.Process
