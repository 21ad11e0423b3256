/-
The collating script, `test/collate-results.py`.

The script reads one JSON object from its input, whose keys name a server and a
client and whose values are exit statuses as text, and prints a markdown table with
a badge for every pair.  Rows and columns are the names that occur in the keys.

A Python dictionary is an `AList`: a list of entries with distinct keys.  Where the
script goes through a dictionary it goes through the entries in order.  Python
compares strings by their code points, which is the order on `String`.
-/
import Mathlib.Data.List.AList
import Mathlib.Data.String.Basic

namespace WebrtcEchoes.Collate

/-- A Python dictionary with string keys. -/
abbrev Dict (β : Type) := AList fun _ : String => β

/-- An entry of a dictionary of strings. -/
abbrev Entry := Sigma fun _ : String => String

/-- `ValueError` of an unpacking assignment, with the number of values there were. -/
inductive PyError
  | valueError (values : Nat)
  deriving DecidableEq, Repr

/-- The keys the script expects, `result_<server>_<client>`. -/
def resultKey (server client : String) : String := "result_" ++ server ++ "_" ++ client

/-- `key.split("_")` -/
def splitKey (key : String) : List String := (key.toList.splitOn '_').map String.ofList

/-- The variables of the first loop. -/
structure Collected where
  resultsDict : Dict (Dict String)
  serverKeys : List String
  clientKeys : List String

/-- `results_dict[server]`, which is an empty dictionary at first. -/
def Collected.results (acc : Collected) (server : String) : Dict String :=
  (acc.resultsDict.lookup server).getD ∅

/-- `if k not in keys: keys.append(k)` -/
def addKey (keys : List String) (k : String) : List String :=
  if k ∈ keys then keys else keys ++ [k]

/-- The body of the first loop. -/
def record (acc : Collected) (entry : Entry) : Except PyError Collected :=
  match (splitKey entry.1).tail with
  | [server, client] =>
      .ok
        { resultsDict :=
            acc.resultsDict.insert server ((acc.results server).insert client entry.2)
          serverKeys := addKey acc.serverKeys server
          clientKeys := addKey acc.clientKeys client }
  | values => .error (.valueError values.length)

/-- The first loop. -/
def collect (results : Dict String) : Except PyError Collected :=
  results.entries.foldlM record { resultsDict := ∅, serverKeys := [], clientKeys := [] }

inductive Badge
  | green | red
  deriving DecidableEq, Repr

/-- The badge of a cell: green for the value `0`, red for another or for none. -/
def badge (acc : Collected) (server client : String) : Badge :=
  match (acc.results server).lookup client with
  | some value => if value = "0" then .green else .red
  | none => .red

/-- What the table shows: the column headers, and for each row its name and badges. -/
structure Table where
  clientKeys : List String
  rows : List (String × List Badge)
  deriving DecidableEq, Repr

/-- `keys.sort()` -/
def sortKeys (keys : List String) : List String := keys.mergeSort fun a b => decide (a ≤ b)

/-- The second loop, as the table it prints. -/
def Collected.table (acc : Collected) : Table where
  clientKeys := sortKeys acc.clientKeys
  rows :=
    (sortKeys acc.serverKeys).map fun server =>
      (server, (sortKeys acc.clientKeys).map (badge acc server))

/-- The script, from the parsed input to the table. -/
def collate (results : Dict String) : Except PyError Table :=
  (collect results).map Collected.table

/-! ### Reading a table -/

/-- The row headers. -/
def Table.serverKeys (t : Table) : List String := t.rows.map Prod.fst

/-- The badge in a row and a column, if the table has both. -/
def Table.cell (t : Table) (server client : String) : Option Badge :=
  (t.rows.lookup server).bind fun cells => (t.clientKeys.zip cells).lookup client

/-! ### What is printed -/

def Badge.url : Badge → String
  | .green => "https://img.shields.io/badge/-✔-green"
  | .red => "https://img.shields.io/badge/-✘-red"

/-- The markdown image of a badge. -/
def Badge.resultChar (b : Badge) : String := "![" ++ b.url ++ "](" ++ b.url ++ ")"

/-- The format specification `: <12`. -/
def ljust12 (s : String) : String := s ++ String.ofList (List.replicate (12 - s.length) ' ')

def Table.headerLine (t : Table) : String :=
  "| " ++ ljust12 "Server" ++ " | " ++ " | ".intercalate t.clientKeys ++ " |"

def Table.ruleLine (t : Table) : String :=
  "|--------|" ++ "|".intercalate (List.replicate t.clientKeys.length "--------") ++ "|"

def rowLine (row : String × List Badge) : String :=
  "| " ++ ljust12 row.1 ++ " " ++
    String.join (row.2.map fun b => "| " ++ b.resultChar ++ " ") ++ "|"

/-- The lines of the table, after the line with the time of the run. -/
def Table.lines (t : Table) (now : String) : List String :=
  ["Test run at " ++ now, "", t.headerLine, t.ruleLine] ++ t.rows.map rowLine

/-- The whole script: its input is the parsed JSON object, or the parser's message; its
result is what it prints and its exit status.  An uncaught exception is status 1. -/
def main (input : Except String (Dict String)) (now : String) : List String × Nat :=
  match input with
  | .error e => (["Failed to parse JSON: " ++ e], 1)
  | .ok results =>
      match collate results with
      | .error _ => ([], 1)
      | .ok t => (t.lines now, 0)

end WebrtcEchoes.Collate
