/-
The option `--timeout` of the sipsorcery programs, `sipsorcery/client/Program.cs` and
`sipsorcery/server/Program.cs`.

Both programs have the option in seconds, with the help text "Set to 0 for no timeout.",
and multiply it by 1000 in an `int`, unchecked.  The client passes the product to
`ManualResetEventSlim.Wait` and the server to a `Timer`, and both take -1 for "without
limit" and throw for any other negative number.

The server reads the option from any command line.  The client takes a single word for the
URL, `--timeout=0` too, and waits for as long as it does without the option.
-/
import WebrtcEchoes.Sipsorcery.Client
import WebrtcEchoes.Sipsorcery.Server

namespace WebrtcEchoes.Sipsorcery.Timeouts

/-- What becomes of a number of milliseconds. -/
inductive Delay
  | unlimited
  | after (milliseconds : Nat)
  /-- `ArgumentOutOfRangeException` -/
  | throws
  deriving DecidableEq, Repr

/-- `Timeout.Infinite` is -1. -/
def delay (milliseconds : Int32) : Delay :=
  if milliseconds = -1 then .unlimited
  else if milliseconds < -1 then .throws
  else .after milliseconds.toInt.toNat

/-- `testComplete.Wait(pcTimeout * 1000)` of the client. -/
def wait (pcTimeout : Int32) : Delay := delay (pcTimeout * 1000)

/-- The close timer of the server; `none` where it arms none. -/
def closeTimer (pcTimeout : Int32) : Option Delay :=
  if pcTimeout ≠ 0 then some (delay (pcTimeout * 1000)) else none

/-! ### The command lines -/

/-- How long the client waits. -/
def clientWait (parseArguments : List (List Char) → Option Client.Options)
    (args : List (List Char)) : Delay :=
  wait (Client.settings parseArguments args).pcTimeout

/-- `pcTimeout` of the server, where the parser gives the value of the option; `none` where it
reports errors. -/
def serverTimeout (parseArguments : List (List Char) → Option Int32)
    (args : List (List Char)) : Int32 :=
  match parseArguments args with
  | some testTimeoutSeconds => testTimeoutSeconds
  | none => 10

/-- The close timer of the connections of the server. -/
def serverTimer (parseArguments : List (List Char) → Option Int32) (args : List (List Char)) :
    Option Delay :=
  closeTimer (serverTimeout parseArguments args)

end WebrtcEchoes.Sipsorcery.Timeouts
