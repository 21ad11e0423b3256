/-
The arguments of the libdatachannel test client, `libdatachannel/client.cpp`, up to the
server and the path that its HTTP request uses.

A word of the command line is the list of its characters.  `atoi` is that of the standard
library: leading blanks, one sign and then digits, and 0 where there are none; what it
returns for a number outside the range of `int` is left open by the standard.
-/
import WebrtcEchoes.Libdatachannel.Client

namespace WebrtcEchoes.Libdatachannel.Arguments

open Client

abbrev Word := List Char

/-! ### Numbers -/

/-- `isspace` in the C locale. -/
def isSpace (c : Char) : Bool :=
  c = ' ' || c = '\t' || c = '\n' || c = '\x0b' || c = '\x0c' || c = '\r'

def digitsValue (digits : Word) : Nat := digits.foldl (fun n c => 10 * n + (c.toNat - 48)) 0

/-- The number at the beginning of a word. -/
def leadingNumber (s : Word) : Int :=
  match s.dropWhile isSpace with
  | '-' :: rest => -(digitsValue (rest.takeWhile Char.isDigit))
  | '+' :: rest => digitsValue (rest.takeWhile Char.isDigit)
  | rest => digitsValue (rest.takeWhile Char.isDigit)

/-- The range of `int`. -/
def inRange (n : Int) : Bool := -2147483648 ≤ n && n ≤ 2147483647

/-- `std::atoi`, where `overflow` is what it makes of a number out of range. -/
def atoi (overflow : Int → Int) (s : Word) : Int :=
  if inRange (leadingNumber s) then leadingNumber s else overflow (leadingNumber s)

/-! ### The loop over the arguments -/

/-- The two variables that the loop sets. -/
structure Options where
  test : Int
  url : Word
  deriving DecidableEq, Repr

def defaultUrl : Word := "http://localhost:8080/offer".toList

inductive Parsed
  /-- The text printed for `-h`; `main` returns 0. -/
  | usage (text : String)
  /-- The `what` of a `std::invalid_argument`. -/
  | throws (what : String)
  | options (o : Options)
  deriving DecidableEq, Repr

def usageText (argv0 : String) : String :=
  "Usage: " ++ argv0 ++ "[URL|<options>]\n" ++
    "Options:\n" ++
    "\t-h,\t\tShow this help message\n" ++
    "\t-t NUMBER\tSpecify the test number (default 0)\n" ++
    "\t-s URL\t\tSpecify the server URL (default http://localhost:8080/offer)\n\n"

section

variable (argv0 : String) (overflow : Int → Int)

/-- The loop from `argv[i]` on. -/
def parseFrom (i : Nat) (o : Options) : List Word → Parsed
  | [] => .options o
  | ('-' :: option) :: rest =>
      if option = ['h'] then .usage (usageText argv0)
      else if option = ['t'] then
        match rest with
        | [] => .throws "Missing argument for option \"t\""
        | number :: rest => parseFrom (i + 2) { o with test := atoi overflow number } rest
      else if option = ['s'] then
        match rest with
        | [] => .throws "Missing argument for option \"s\""
        | url :: rest => parseFrom (i + 2) { o with url := url } rest
      else .throws ("Unknown option \"" ++ String.ofList option ++ "\"")
  | arg :: rest =>
      if 1 < i then .throws ("Unexpected positional argument \"" ++ String.ofList arg ++ "\"")
      else parseFrom (i + 1) { o with url := arg } rest

def parse (args : List Word) : Parsed := parseFrom argv0 overflow 1 ⟨0, defaultUrl⟩ args

end

/-! ### The URL -/

/-- `std::string::find_last_of`, `none` for `npos`. -/
def findLastOf (c : Char) : Word → Option Nat
  | [] => none
  | x :: rest =>
      match findLastOf c rest with
      | some i => some (i + 1)
      | none => if x = c then some 0 else none

/-- What `main` goes on with. -/
structure Accepted where
  test : Test
  url : Word
  server : Word
  path : Word
  deriving DecidableEq, Repr

inductive Outcome
  | usage (text : String)
  | throws (what : String)
  | accepted (a : Accepted)
  deriving DecidableEq, Repr

/-- `test`, where it is valid. -/
def testOf (test : Int) : Option Test :=
  if test = 0 then some .peerConnection else if test = 1 then some .dataChannel else none

/-- The two checks after the loop, and the split of the URL. -/
def check (o : Options) : Outcome :=
  match testOf o.test with
  | none => .throws "Invalid test number"
  | some test =>
      match findLastOf '/' o.url with
      | none => .throws "Invalid URL"
      | some separator =>
          .accepted ⟨test, o.url, o.url.take separator, o.url.drop separator⟩

/-- `main` up to the split of the URL. -/
def frontEnd (argv0 : String) (overflow : Int → Int) (args : List Word) : Outcome :=
  match parse argv0 overflow args with
  | .usage text => .usage text
  | .throws what => .throws what
  | .options o => check o

end WebrtcEchoes.Libdatachannel.Arguments
