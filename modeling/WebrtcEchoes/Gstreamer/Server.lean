/-
The negotiation of one offer in `gstreamer-webrtc-echo.c`, from `set_offer` on.

Two parties ask the webrtcbin for an answer: the HTTP handler, which waits for the one it
sends, and `on_offer_set`, whose answer `on_answer_created` sets as local description.  The
webrtcbin executes the requests one at a time, in the order they were emitted.  What the
handler or a callback does next is read off the promises made so far; a change function runs
some time after its promise has ended.

A promise ends without a reply when it is expired or interrupted, and a reply may be without
the field `answer`.  `gst_structure_get` then leaves the variable as it was, and neither
`answer` of the source was ever written, so the program has no meaning from there on.
-/
import WebrtcEchoes.Lib.Machine

namespace WebrtcEchoes.Gstreamer.Server

/-- Who emitted a `create-answer`. -/
inductive Asker
  | handler | onOfferSet
  deriving DecidableEq, Repr

/-- What a `create-answer` promise ends with. -/
inductive Reply (δ : Type)
  | answer (answer : δ)
  /-- Replied, with no field `answer`. -/
  | noAnswer
  /-- `gst_promise_wait` is not `GST_PROMISE_RESULT_REPLIED`. -/
  | notReplied
  deriving DecidableEq, Repr

inductive Promise (ρ : Type)
  | notMade
  /-- The request is in the task queue. -/
  | pending
  /-- The request has been executed; nobody has acted on it yet. -/
  | ended (result : ρ)
  /-- The change function, or the waiting handler, has taken the result. -/
  | taken (result : ρ)
  deriving DecidableEq, Repr

/-- The task queue of the webrtcbin. -/
inductive Task (δ : Type)
  | setRemoteDescription
  | createAnswer (asker : Asker)
  | setLocalDescription (answer : δ)
  deriving DecidableEq, Repr

inductive Process
  | running
  /-- A `g_assert` has failed. -/
  | aborted
  /-- A variable that was never written has been read. -/
  | undefined
  deriving DecidableEq, Repr

/-- What `evhttp_send_reply` sends: 200 with the text of an answer, or 501. -/
inductive Response (δ : Type)
  | answer (answer : δ)
  | timedOut
  deriving DecidableEq, Repr

structure Negotiation (δ : Type) where
  process : Process
  queue : List (Task δ)
  /-- `promise` of `set_offer`; `on_offer_set` does not look at its reply. -/
  promise : Promise Unit
  /-- `answer_promise` of `on_offer_set` -/
  answerPromise : Promise (Reply δ)
  /-- `create_answer_promise` of the handler -/
  createAnswerPromise : Promise (Reply δ)
  /-- `set_local_promise`; nobody waits for it. -/
  setLocalPromise : Promise Bool
  localDescription : Option δ
  response : Option (Response δ)
  deriving DecidableEq, Repr

inductive Event (δ : Type)
  /-- `set_offer`; `parsed` is whether `gst_sdp_message_parse_buffer` was `GST_SDP_OK`. -/
  | setOffer (parsed : Bool)
  /-- The handler emits its `create-answer`. -/
  | emitCreateAnswer
  /-- The `gst_promise_wait` of the handler returns. -/
  | waitOver
  | onOfferSet
  | onAnswerCreated
  /-- The webrtcbin executes a `set-remote-description`. -/
  | setRemoteDescription
  | createAnswer (asker : Asker) (reply : Reply δ)
  | setLocalDescription (ok : Bool)
  deriving DecidableEq, Repr

variable {δ : Type}

/-- Put a request at the end of the queue. -/
def Negotiation.emit (s : Negotiation δ) (task : Task δ) : Negotiation δ :=
  { s with queue := s.queue ++ [task] }

/-! ### The HTTP handler -/

def setOffer (s : Negotiation δ) (parsed : Bool) : Option (Negotiation δ) :=
  match s.promise with
  | .notMade =>
      if parsed then some { s.emit .setRemoteDescription with promise := .pending }
      else some { s with process := .aborted }
  | _ => none

def emitCreateAnswer (s : Negotiation δ) : Option (Negotiation δ) :=
  match s.promise, s.createAnswerPromise with
  | .notMade, _ => none
  | _, .notMade => some { s.emit (.createAnswer .handler) with createAnswerPromise := .pending }
  | _, _ => none

def waitOver (s : Negotiation δ) : Option (Negotiation δ) :=
  match s.createAnswerPromise with
  | .ended (.answer answer) =>
      some { s with
        createAnswerPromise := .taken (.answer answer), response := some (.answer answer) }
  | .ended .noAnswer => some { s with process := .undefined }
  | .ended .notReplied =>
      some { s with createAnswerPromise := .taken .notReplied, response := some .timedOut }
  | _ => none

/-! ### The promise callbacks -/

def onOfferSet (s : Negotiation δ) : Option (Negotiation δ) :=
  match s.promise with
  | .ended _ =>
      some { s.emit (.createAnswer .onOfferSet) with
        promise := .taken (), answerPromise := .pending }
  | _ => none

/-- The `set-local-description` stays queued when its promise is interrupted. -/
def onAnswerCreated (s : Negotiation δ) : Option (Negotiation δ) :=
  match s.answerPromise with
  | .ended (.answer answer) =>
      some { s.emit (.setLocalDescription answer) with
        answerPromise := .taken (.answer answer), setLocalPromise := .pending }
  | .ended .noAnswer => some { s with process := .undefined }
  | .ended .notReplied => some { s with process := .aborted }
  | _ => none

/-! ### The webrtcbin -/

def Negotiation.setRemoteDescription (s : Negotiation δ) : Option (Negotiation δ) :=
  match s.queue with
  | .setRemoteDescription :: rest => some { s with queue := rest, promise := .ended () }
  | _ => none

def Negotiation.createAnswer (s : Negotiation δ) (asker : Asker) (reply : Reply δ) :
    Option (Negotiation δ) :=
  match s.queue, asker with
  | .createAnswer .handler :: rest, .handler =>
      some { s with queue := rest, createAnswerPromise := .ended reply }
  | .createAnswer .onOfferSet :: rest, .onOfferSet =>
      some { s with queue := rest, answerPromise := .ended reply }
  | _, _ => none

def Negotiation.setLocalDescription (s : Negotiation δ) (ok : Bool) : Option (Negotiation δ) :=
  match s.queue with
  | .setLocalDescription answer :: rest =>
      some { s with
        queue := rest
        setLocalPromise := .ended ok
        localDescription := if ok then some answer else s.localDescription }
  | _ => none

/-! ### Schedules -/

def act (s : Negotiation δ) : Event δ → Option (Negotiation δ)
  | .setOffer parsed => setOffer s parsed
  | .emitCreateAnswer => emitCreateAnswer s
  | .waitOver => waitOver s
  | .onOfferSet => onOfferSet s
  | .onAnswerCreated => onAnswerCreated s
  | .setRemoteDescription => s.setRemoteDescription
  | .createAnswer asker reply => s.createAnswer asker reply
  | .setLocalDescription ok => s.setLocalDescription ok

def step (s : Negotiation δ) (e : Event δ) : Option (Negotiation δ) :=
  if s.process = .running then act s e else none

/-- One offer, and every schedule of the parties to it. -/
def negotiation (δ : Type) : Machine (Negotiation δ) (Event δ) where
  init :=
    { process := .running
      queue := []
      promise := .notMade
      answerPromise := .notMade
      createAnswerPromise := .notMade
      setLocalPromise := .notMade
      localDescription := none
      response := none }
  step := step

/-- The handler has replied and the local description was set or refused, or the process
is gone. -/
def settled (s : Negotiation δ) : Option (Negotiation δ) :=
  match s.process, s.createAnswerPromise, s.setLocalPromise with
  | .running, .taken _, .ended _ => some s
  | .running, _, _ => none
  | _, _, _ => some s

end WebrtcEchoes.Gstreamer.Server
