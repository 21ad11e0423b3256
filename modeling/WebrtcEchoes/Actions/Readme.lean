/-
The README update of the two workflows.

Each workflow prints the new contents of its section from a results file and replaces
the old section of `README.md` by an awk program of three rules.  The section begins
behind the line of its own heading and ends in front of the line of the next heading.
The two programs differ in these two headings only.

awk reads the file record by record and prints each time with a line break.  What the
value of `-v new_content="$new_content"` becomes before the program sees it is left to
the awk: it processes the escape sequences in it, and implementations differ in those
the standard leaves open.  All of them keep a value without a backslash.
-/
import Mathlib.Data.List.Infix
import WebrtcEchoes.Lib.Lines

namespace WebrtcEchoes.Readme

open WebrtcEchoes.Lines

abbrev Text := List Char

/-- An awk, by what it makes of a value assigned with `-v`. -/
structure Awk where
  assign : Text → Text
  assign_plain : ∀ value, '\\' ∉ value → assign value = value

/-- A pattern without special characters matches a line that contains it. -/
def lineMatches (pattern : String) (line : Text) : Bool := decide (pattern.toList <:+: line)

/-- The two patterns of an awk program, without the slashes. -/
structure Program where
  start : String
  stop : String

/-- The program with `in_section` as it is, as what it prints for the remaining lines. -/
def Program.prints (p : Program) (newContent : Text) : Bool → List Text → List Text
  | _, [] => []
  | inSection, line :: rest =>
      -- `{ in_section = 1; print; print new_content; next }`
      if lineMatches p.start line then line :: newContent :: p.prints newContent true rest
      -- `{ in_section = 0; print; next }`
      else if lineMatches p.stop line then line :: p.prints newContent false rest
      -- `!in_section { print }`
      else if inSection then p.prints newContent true rest
      else line :: p.prints newContent false rest

/-- The file that takes the place of `README.md`. -/
def Program.update (p : Program) (awk : Awk) (newContent readme : Text) : Text :=
  terminate '\n' (p.prints (awk.assign newContent) false (records '\n' readme))

def peerConnectionHeading : String := "## Peer Connection Test Results"

def dataChannelHeading : String := "## Data Channel Echo Test Results"

def getStartedHeading : String := "## Get Started"

/-- The program in `peerconnection-test.yml`. -/
def peerConnectionProgram : Program where
  start := peerConnectionHeading
  stop := dataChannelHeading

/-- The program in `datachannel_echo-test.yml`. -/
def dataChannelProgram : Program where
  start := dataChannelHeading
  stop := getStartedHeading

end WebrtcEchoes.Readme
