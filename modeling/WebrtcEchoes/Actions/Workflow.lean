/-
The interoperability workflows, `.github/workflows/peerconnection-test.yml` and
`datachannel_echo-test.yml`.

Both run one job for every pair of a server and a client of their matrix.  The first
step of a job runs the client and records its exit status as the output
`TEST_RESULT`; the second step turns that into an output named after the pair; the
job declares a fixed list of outputs, each an expression over the outputs of the
second step; and the outputs of all jobs together are what the collating script
reads.

Of GitHub Actions the model uses this: a `run` script is run by `bash -e`, so the
lines after a command that fails are not executed; an output that a step did not set
evaluates to the empty string; an output that evaluates to the empty string is not
published; and the outputs of the jobs of a matrix are merged by name as the jobs
finish, a later value overriding an earlier one.
-/
import WebrtcEchoes.Actions.Collate

namespace WebrtcEchoes.Actions

open WebrtcEchoes.Collate (Dict Table PyError collate resultKey)

/-- What the two workflow files have in common.  An output `(name, source)` is declared
as `name: ${{ steps.set-output.outputs.source }}`. -/
structure Workflow where
  server : List String
  client : List String
  outputs : List (String × String)

/-- The pairs of the matrix. -/
def Workflow.matrix (w : Workflow) : List (String × String) :=
  w.server.flatMap fun s => w.client.map fun c => (s, c)

/-! ### One job -/

/-- The step `check_connection`.  Under `bash -e` the script ends at `docker run` when
that fails, in front of `result=$?`. -/
def checkConnection (exitStatus : Nat) : List (String × String) :=
  if exitStatus ≠ 0 then [] else [("TEST_RESULT", toString exitStatus)]

/-- An output of a step, as an expression sees it. -/
def outputOf (outputs : List (String × String)) (name : String) : String :=
  (outputs.lookup name).getD ""

/-- The step `set-output`, whose output is `result_${{ matrix.server }}_${{ matrix.client }}`. -/
def setOutput (pair : String × String) (checked : List (String × String)) :
    List (String × String) :=
  [(resultKey pair.1 pair.2, outputOf checked "TEST_RESULT")]

/-- The declared outputs of the job of a pair, evaluated. -/
def Workflow.jobOutputs (w : Workflow) (pair : String × String) (exitStatus : Nat) :
    List (String × String) :=
  w.outputs.map fun (name, source) =>
    (name, outputOf (setOutput pair (checkConnection exitStatus)) source)

/-! ### All jobs -/

/-- Merge the outputs of one more job. -/
def publish (published : Dict String) (outputs : List (String × String)) : Dict String :=
  outputs.foldl (fun acc (name, value) => if value = "" then acc else acc.insert name value)
    published

/-- A run of the jobs: how each client ended, and the order in which the jobs finish. -/
structure MatrixRun (w : Workflow) where
  /-- The exit status of `docker run` in the job of a pair. -/
  exitStatus : String × String → Nat
  finished : List (String × String)
  perm : finished.Perm w.matrix

/-- `needs.interoptests.outputs` -/
def MatrixRun.outputs {w : Workflow} (r : MatrixRun w) : Dict String :=
  r.finished.foldl (fun acc pair => publish acc (w.jobOutputs pair (r.exitStatus pair))) ∅

/-- The table that the `collate` job prints. -/
def MatrixRun.table {w : Workflow} (r : MatrixRun w) : Except PyError Table := collate r.outputs

/-! ### The two workflow files -/

/-- `peerconnection-test.yml` -/
def peerConnectionTest : Workflow where
  server :=
    ["sipsorcery", "aiortc", "werift", "pion", "libdatachannel", "gstreamer", "libwebrtc",
      "kurento", "janus", "webrtc-rs"]
  client := ["sipsorcery", "aiortc", "werift", "pion", "libdatachannel", "webrtc-rs"]
  outputs :=
    [ ("result_sipsorcery_sipsorcery", "result_sipsorcery_sipsorcery"),
      ("result_sipsorcery_aiortc", "result_sipsorcery_aiortc"),
      ("result_sipsorcery_werift", "result_sipsorcery_werift"),
      ("result_sipsorcery_pion", "result_sipsorcery_pion"),
      ("result_sipsorcery_libdatachannel", "result_sipsorcery_libdatachannel"),
      ("result_sipsorcery_webrtc-rs", "result_sipsorcery_webrtc-rs"),
      ("result_aiortc_sipsorcery", "result_aiortc_sipsorcery"),
      ("result_aiortc_aiortc", "result_aiortc_aiortc"),
      ("result_aiortc_werift", "result_aiortc_werift"),
      ("result_aiortc_pion", "result_aiortc_pion"),
      ("result_aiortc_libdatachannel", "result_aiortc_libdatachannel"),
      ("result_aiortc_webrtc-rs", "result_aiortc_webrtc-rs"),
      ("result_werift_sipsorcery", "result_werift_sipsorcery"),
      ("result_werift_aiortc", "result_werift_aiortc"),
      ("result_werift_werift", "result_werift_werift"),
      ("result_werift_pion", "result_werift_pion"),
      ("result_werift_libdatachannel", "result_werift_libdatachannel"),
      ("result_werift_webrtc-rs", "result_werift_webrtc-rs"),
      ("result_pion_sipsorcery", "result_pion_sipsorcery"),
      ("result_pion_aiortc", "result_pion_aiortc"),
      ("result_pion_werift", "result_pion_werift"),
      ("result_pion_pion", "result_pion_pion"),
      ("result_pion_libdatachannel", "result_pion_libdatachannel"),
      ("result_pion_webrtc-rs", "result_pion_webrtc-rs"),
      ("result_libdatachannel_sipsorcery", "result_libdatachannel_sipsorcery"),
      ("result_libdatachannel_aiortc", "result_libdatachannel_aiortc"),
      ("result_libdatachannel_werift", "result_libdatachannel_werift"),
      ("result_libdatachannel_pion", "result_libdatachannel_pion"),
      ("result_libdatachannel_libdatachannel", "result_libdatachannel_libdatachannel"),
      ("result_libdatachannel_webrtc-rs", "result_libdatachannel_webrtc-rs"),
      ("result_gstreamer_sipsorcery", "result_gstreamer_sipsorcery"),
      ("result_gstreamer_aiortc", "result_gstreamer_aiortc"),
      ("result_gstreamer_werift", "result_gstreamer_werift"),
      ("result_gstreamer_pion", "result_gstreamer_pion"),
      ("result_gstreamer_libdatachannel", "result_gstreamer_libdatachannel"),
      ("result_gstreamer_webrtc-rs", "result_gstreamer_webrtc-rs"),
      ("result_libwebrtc_sipsorcery", "result_libwebrtc_sipsorcery"),
      ("result_libwebrtc_aiortc", "result_libwebrtc_aiortc"),
      ("result_libwebrtc_werift", "result_libwebrtc_werift"),
      ("result_libwebrtc_pion", "result_libwebrtc_pion"),
      ("result_libwebrtc_libdatachannel", "result_libwebrtc_libdatachannel"),
      ("result_libwebrtc_webrtc-rs", "result_libwebrtc_webrtc-rs"),
      ("result_kurento_sipsorcery", "result_kurento_sipsorcery"),
      ("result_kurento_aiortc", "result_kurento_aiortc"),
      ("result_kurento_werift", "result_kurento_werift"),
      ("result_kurento_pion", "result_kurento_pion"),
      ("result_kurento_libdatachannel", "result_kurento_libdatachannel"),
      ("result_kurento_webrtc-rs", "result_kurento_webrtc-rs"),
      ("result_janus_sipsorcery", "result_janus_sipsorcery"),
      ("result_janus_aiortc", "result_janus_aiortc"),
      ("result_janus_werift", "result_janus_werift"),
      ("result_janus_pion", "result_janus_pion"),
      ("result_janus_libdatachannel", "result_janus_libdatachannel"),
      ("result_janus_webrtc-rs", "result_janus_webrtc-rs"),
      ("result_webrtc-rs_sipsorcery", "result_janus_sipsorcery"),
      ("result_webrtc-rs_aiortc", "result_janus_aiortc"),
      ("result_webrtc-rs_werift", "result_janus_werift"),
      ("result_webrtc-rs_pion", "result_janus_pion"),
      ("result_webrtc-rs_libdatachannel", "result_janus_libdatachannel"),
      ("result_webrtc-rs_webrtc-rs", "result_janus_webrtc-rs") ]

/-- `datachannel_echo-test.yml` -/
def dataChannelEchoTest : Workflow where
  server := ["libdatachannel", "sipsorcery", "werift"]
  client := ["libdatachannel", "sipsorcery", "werift"]
  outputs :=
    [ ("result_libdatachannel_libdatachannel", "result_libdatachannel_libdatachannel"),
      ("result_libdatachannel_sipsorcery", "result_libdatachannel_sipsorcery"),
      ("result_libdatachannel_werift", "result_libdatachannel_werift"),
      ("result_sipsorcery_libdatachannel", "result_sipsorcery_libdatachannel"),
      ("result_sipsorcery_sipsorcery", "result_sipsorcery_sipsorcery"),
      ("result_sipsorcery_werift", "result_sipsorcery_werift"),
      ("result_werift_libdatachannel", "result_werift_libdatachannel"),
      ("result_werift_sipsorcery", "result_werift_sipsorcery"),
      ("result_werift_werift", "result_werift_werift") ]

end WebrtcEchoes.Actions
