/-
How the test clients are started: `client.sh` and `client-datachannel.sh` of the
libdatachannel, sipsorcery and werift images.

Both scripts pass `$1` on without quotes, so the shell splits it at blanks; the second one
adds `-t 1`.  Each client then has its own way with the words: libdatachannel takes a URL
that comes first, sipsorcery one that comes alone, and werift one that comes alone as well.
The parsers behind the other two, CommandLineParser and yargs, are known by what they bind.
-/
import WebrtcEchoes.Libdatachannel.Arguments
import WebrtcEchoes.Sipsorcery.Client
import WebrtcEchoes.Werift.Client

namespace WebrtcEchoes.Launch

open Libdatachannel.Arguments (Word frontEnd)
open Libdatachannel.Client (Test)

/-! ### The scripts -/

def isBlank (c : Char) : Bool := c = ' ' || c = '\t' || c = '\n'

/-- The pieces of a word between its blanks. -/
def pieces : Word → List Word
  | [] => [[]]
  | c :: rest =>
      if isBlank c then [] :: pieces rest
      else
        match pieces rest with
        | [] => [[c]]
        | piece :: more => (c :: piece) :: more

/-- An unquoted `$1`. -/
def fieldSplit (arg : Word) : List Word := (pieces arg).filter fun piece => piece ≠ []

/-- The names of the two options. -/
def dashS : Word := "-s".toList

def dashT : Word := "-t".toList

/-- The number that selects a test. -/
def testWord : Test → Word
  | .peerConnection => "0".toList
  | .dataChannel => "1".toList

/-- The arguments that `client.sh` gives to its program. -/
def clientSh (arg : Word) : List Word := fieldSplit arg

/-- The arguments that `client-datachannel.sh` gives to its program. -/
def clientDatachannelSh (arg : Word) : List Word :=
  fieldSplit arg ++ [dashT, testWord .dataChannel]

/-- The three ways to start a client. -/
inductive Start
  /-- `client.sh u` -/
  | url
  /-- `client.sh "-s u -t 1"` -/
  | options
  /-- `client-datachannel.sh u` -/
  | dataChannel
  deriving DecidableEq, Repr

def Start.args (u : Word) : Start → List Word
  | .url => clientSh u
  | .options => clientSh ("-s ".toList ++ u ++ " -t 1".toList)
  | .dataChannel => clientDatachannelSh u

/-- The test that is meant. -/
def Start.test : Start → Test
  | .url => .peerConnection
  | .options => .dataChannel
  | .dataChannel => .dataChannel

/-! ### The parsers -/

/-- A part of a command line. -/
inductive Item
  | s (url : Word)
  | t (test : Test)
  | positional (word : Word)
  deriving DecidableEq, Repr

def Item.words : Item → List Word
  | .s url => [dashS, url]
  | .t test => [dashT, testWord test]
  | .positional word => [word]

def Item.url? : Item → Option Word
  | .s url => some url
  | _ => none

def Item.test? : Item → Option Test
  | .t test => some test
  | _ => none

/-- A word of the line that is no name of an option. -/
def Item.word? : Item → Option Word
  | .s url => some url
  | .t _ => none
  | .positional word => some word

/-- No option is given twice, and no other word is empty or looks like an option. -/
structure Proper (items : List Item) : Prop where
  url_once : (items.filterMap Item.url?).length ≤ 1
  test_once : (items.filterMap Item.test?).length ≤ 1
  word : ∀ word ∈ items.filterMap Item.word?, word ≠ [] ∧ word.head? ≠ some '-'

def sipsorceryTest : Test → Sipsorcery.Client.TestType
  | .peerConnection => .peerConnection
  | .dataChannel => .dataChannelEcho

def weriftTest : Test → Werift.Client.TestType
  | .peerConnection => .peerConnection
  | .dataChannel => .dataChannelEcho

/-- The libraries that the clients parse their arguments with: both bind `-s` and `-t` and
leave a positional word out of the named options. -/
structure Parsers where
  /-- What `atoi` makes of a number out of range. -/
  overflow : Int → Int
  parseArguments : List Word → Option Sipsorcery.Client.Options
  yargs : Werift.Client.Args → List Word → Option Werift.Client.Args
  parseArguments_binds : ∀ items, Proper items →
    ∃ o, parseArguments (items.flatMap Item.words) = some o ∧
      o.serverUrl =
        some ((items.filterMap Item.url?).head?.getD Sipsorcery.Client.defaultEchoServerUrl) ∧
      o.testType = sipsorceryTest ((items.filterMap Item.test?).head?.getD .peerConnection)
  yargs_binds : ∀ defaults items, Proper items →
    yargs defaults (items.flatMap Item.words) =
      some ⟨(items.filterMap Item.url?).head?.getD defaults.s,
        ((items.filterMap Item.test?).head?.map weriftTest).getD defaults.t⟩

/-! ### The clients -/

inductive Client
  | libdatachannel | sipsorcery | werift
  deriving DecidableEq, Repr

/-- Where the offer is posted to. -/
inductive Target
  | url (url : Word)
  /-- `http::Client cl(server)` and `cl.Post(path, ...)` -/
  | serverPath (server path : Word)
  deriving DecidableEq, Repr

structure Run where
  test : Test
  target : Target
  deriving DecidableEq, Repr

/-- The test of a `TestType`. -/
def sipsorceryTestOf : Sipsorcery.Client.TestType → Test
  | .peerConnection => .peerConnection
  | .dataChannelEcho => .dataChannel

def weriftTestOf : Werift.Client.TestType → Test
  | .peerConnection => .peerConnection
  | .dataChannelEcho => .dataChannel

/-- `process.argv` of the werift client, whose script runs `node` with a module. -/
def processArgv (args : List Word) : List Word := "node".toList :: "client.ts".toList :: args

/-- What a client does with its arguments; `none` where it does not get to an offer. -/
def launch (p : Parsers) : Client → List Word → Option Run
  | .libdatachannel, args =>
      match frontEnd "/app/client" p.overflow args with
      | .accepted a => some ⟨a.test, .serverPath a.server a.path⟩
      | _ => none
  | .sipsorcery, args =>
      let settings := Sipsorcery.Client.settings p.parseArguments args
      some ⟨sipsorceryTestOf settings.testType, .url settings.echoServerUrl⟩
  | .werift, args =>
      (Werift.Client.args p.yargs (processArgv args)).map fun args =>
        ⟨weriftTestOf args.t, .url args.s⟩

end WebrtcEchoes.Launch
