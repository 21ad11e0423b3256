/-
What a run of a workflow leaves in the repository.

Behind the jobs of its matrix each workflow has the job `collate`.  It prints the table
into a results file, replaces the section of `README.md` by the contents of that file
and, unless a pull request has started the workflow, commits both files and pushes them.

The steps are run by `bash -e`, so that nothing is pushed when the script fails.  A run
starts from what the run before it has pushed; what `git pull --rebase` makes of a run
that starts from an older state is left out.
-/
import WebrtcEchoes.Actions.Workflow
import WebrtcEchoes.Actions.Readme
import Mathlib.Logic.Function.Basic
import Mathlib.Data.List.DropRight

namespace WebrtcEchoes.Actions

open WebrtcEchoes.Lines
open WebrtcEchoes.Readme (Text Awk Program peerConnectionProgram dataChannelProgram)

/-- The two workflows. -/
inductive Test
  | peerConnection
  | dataChannelEcho
  deriving DecidableEq, Repr

def Test.workflow : Test → Workflow
  | .peerConnection => peerConnectionTest
  | .dataChannelEcho => dataChannelEchoTest

def Test.program : Test → Program
  | .peerConnection => peerConnectionProgram
  | .dataChannelEcho => dataChannelProgram

/-- `datetime.now()` as it is printed. -/
structure Timestamp where
  text : String
  chars : ∀ c ∈ text.toList, c.isDigit = true ∨ c ∈ ['-', ' ', ':', '.']

/-- The files of the repository that a run commits. -/
structure Repo where
  readme : Text
  /-- `PeerConnection_test_results.md` and `DataChannel_Echo_test_results.md` -/
  testResults : Test → Text

/-- A run of a workflow. -/
structure Run where
  test : Test
  jobs : MatrixRun test.workflow
  now : Timestamp
  /-- `github.event_name == 'pull_request'` -/
  pullRequest : Bool

/-- What a script puts into a file when it prints these lines. -/
def printed (lines : List String) : Text := terminate '\n' (lines.map String.toList)

/-- `$(<file)`, which drops the line breaks at the end of the file. -/
def readFile (file : Text) : Text := file.rdropWhile fun c => c = '\n'

/-- The steps of the job `collate` in front of the commit. -/
def Run.collate (awk : Awk) (r : Run) (repo : Repo) : Repo :=
  match Collate.main (.ok r.jobs.outputs) r.now.text with
  | (lines, 0) =>
      let results := printed lines
      { readme := r.test.program.update awk (readFile results) repo.readme
        testResults := Function.update repo.testResults r.test results }
  | (_, _ + 1) => repo

/-- The job `collate`, as what the repository is behind it. -/
def Run.push (awk : Awk) (repo : Repo) (r : Run) : Repo :=
  if r.pullRequest then repo else r.collate awk repo

/-- The repository after some runs. -/
def pushes (awk : Awk) (repo : Repo) (runs : List Run) : Repo := runs.foldl (Run.push awk) repo

end WebrtcEchoes.Actions
