/-
One session of the Janus gateway: `OfferAsync` of `janus/Program.cs` over
`janus/JanusRestClient.cs`.

Three activities run at once.  `OfferAsync` creates the session, subscribes to its
events, attaches the echo plugin, sends it the offer and waits for the answer.  The long
poll loop, started with the session, fetches events and hands them to the subscriber
until the token is cancelled or something is thrown, and then destroys the session.  The
timer cancels the token after 30 seconds.  Every request, every response and every
moment between two steps is a choice of the schedule.

A REST call is answered with a response or, as `none`, with none: it was cancelled, it
failed, or its body was not understood, and in each case the next statement throws.
The requests in `sent` are those that name the session, each with the activity that sent
it.  `completions`, `threw`, `loopEnd`, `firstJsep` and `answered` record what happened.
-/
import WebrtcEchoes.Lib.Completion
import WebrtcEchoes.Lib.Machine

namespace WebrtcEchoes.Janus

/-! ### Responses -/

/-- `JanusOperationsEnum` -/
inductive JanusOperation
  | unknown | ack | attach | create | destroy | error | event | keepalive | message | success
  | trickle
  deriving DecidableEq, Repr

structure Jsep where
  sdp : Option String
  deriving DecidableEq, Repr

structure JanusError where
  reason : Option String
  deriving DecidableEq, Repr

/-- The members of `JanusResponse` that the gateway looks at. -/
structure JanusResponse where
  janus : JanusOperation
  /-- `data.id` -/
  id : Nat
  error : Option JanusError
  jsep : Option Jsep
  deriving DecidableEq, Repr

/-- `JanusResult`; the error is `none` for a success. -/
structure JanusResult where
  error : Option String
  deriving DecidableEq, Repr

def JanusResult.success (result : JanusResult) : Bool := result.error.isNone

/-- The id that `CreateSession` and `AttachPlugin` return; `none` where they throw. -/
def dataId (resp : Option JanusResponse) : Option Nat := resp.map JanusResponse.id

/-- What `StartEcho` makes of the response to the offer; `none` where it throws. -/
def startEchoResult (resp : Option JanusResponse) : Option JanusResult :=
  match resp with
  | none => none
  | some r =>
      -- the warning reads `errResp.error.code`
      if r.janus = .error ∧ r.error = none then none
      else
        match r.error with
        | some ⟨some reason⟩ => some ⟨some reason⟩
        | _ => some ⟨none⟩

/-- The handler that `OfferAsync` adds to `OnJanusEvent`; `none` where `SetResult` throws. -/
def onJanusEvent (resp : JanusResponse) (waitForAnswer : Completion (Option String)) :
    Option (Completion (Option String)) :=
  match resp.jsep with
  | some jsep => waitForAnswer.setResult jsep.sdp
  | none => some waitForAnswer

/-! ### The state of a session -/

/-- How `OfferAsync` ends. -/
inductive Outcome
  /-- It returns. -/
  | completed
  /-- `HttpException.InternalServerError` -/
  | serverError (message : String)
  /-- Any other exception. -/
  | exception
  deriving DecidableEq, Repr

/-- What `OfferAsync` does next. -/
inductive Offer
  | startSession
  | subscribe
  | sendAttach | awaitAttach
  | sendMessage | awaitMessage
  /-- The branch for a `StartEcho` that failed. -/
  | failedDestroy | awaitFailedDestroy | setCanceled
  | register
  | awaitAnswer
  /-- The answer is being written to the client. -/
  | respond (answer : String)
  /-- The branch for a wait that was cancelled. -/
  | timeoutDestroy | awaitTimeoutDestroy
  | ended (outcome : Outcome)
  deriving DecidableEq, Repr

/-- What the long poll loop does next. -/
inductive Poll
  | notStarted
  /-- `while (!_ct.IsCancellationRequested)` -/
  | test
  | sendPoll | awaitEvent
  | sendDestroy | awaitDestroy
  | ended
  deriving DecidableEq, Repr

inductive Activity
  | offerAsync | longPoll
  deriving DecidableEq, Repr

/-- A request that names the session. -/
inductive Request
  | attach | message | poll | destroy
  deriving DecidableEq, Repr

/-- Why the loop was left. -/
inductive LoopEnd
  | cancelled
  | transportFailure
  /-- The handler threw. -/
  | handlerThrew
  deriving DecidableEq, Repr

structure Session where
  sessionID : Nat
  offer : Offer
  poll : Poll
  /-- `_ct.IsCancellationRequested` -/
  cancelled : Bool
  /-- `OnJanusEvent` has its handler. -/
  subscribed : Bool
  /-- The callback of `cts.Token.Register` is in place. -/
  registered : Bool
  waitForAnswer : Completion (Option String)
  sent : List (Activity × Request)
  completions : Nat
  threw : Bool
  loopEnd : Option LoopEnd
  firstJsep : Option Jsep
  answered : Option String
  deriving DecidableEq, Repr

namespace Session

def send (s : Session) (sender : Activity) (request : Request) : Session :=
  { s with sent := s.sent ++ [(sender, request)] }

/-- `waitForAnswer` is left as `c` by a completing call. -/
def complete (s : Session) (c : Completion (Option String)) : Session :=
  { s with
    waitForAnswer := c
    completions := s.completions + if s.waitForAnswer = c then 0 else 1 }

/-- `OfferAsync` leaves, and the registration of its callback is disposed of. -/
def finish (s : Session) (outcome : Outcome) : Session :=
  { s with offer := .ended outcome, registered := false }

/-! ### The steps -/

/-- Who moves. -/
inductive Event
  /-- `OfferAsync` takes a step that waits for nobody. -/
  | offer
  /-- A REST call of `OfferAsync` is answered. -/
  | offerResponse (resp : Option JanusResponse)
  /-- The answer has been written to the client, or not. -/
  | written (ok : Bool)
  /-- The loop takes a step that waits for nobody. -/
  | poll
  /-- The long poll is answered with an event. -/
  | pollEvent (resp : JanusResponse)
  /-- The long poll fails. -/
  | pollFailed
  /-- The long poll is cancelled. -/
  | pollCancelled
  /-- The request with which the loop destroys the session is answered, or fails. -/
  | pollDestroyed
  /-- The 30 seconds are over. -/
  | expire
  /-- The token runs the registered callback. -/
  | callback
  deriving DecidableEq, Repr

/-- The steps of `OfferAsync` between its awaits. -/
def offerStep (s : Session) : Option Session :=
  match s.offer with
  | .subscribe => some { s with offer := .sendAttach, subscribed := true }
  | .sendAttach => some { s.send .offerAsync .attach with offer := .awaitAttach }
  | .sendMessage => some { s.send .offerAsync .message with offer := .awaitMessage }
  | .failedDestroy => some { s.send .offerAsync .destroy with offer := .awaitFailedDestroy }
  | .setCanceled =>
      match s.waitForAnswer.setCanceled with
      | some c =>
          some ({ s.complete c with cancelled := true }.finish
            (.serverError "Failed to create Janus Echo Test Plugin instance."))
      | none => some ({ s with threw := true }.finish .exception)
  | .register =>
      -- on a cancelled token the callback runs at once
      if s.cancelled then
        some { s.complete s.waitForAnswer.trySetCanceled with offer := .awaitAnswer }
      else some { s with offer := .awaitAnswer, registered := true }
  | .awaitAnswer =>
      match s.waitForAnswer with
      | .pending => none
      | .result (some answer) => some { s with offer := .respond answer }
      | .result none => some (s.finish .completed)
      | .canceled => some { s with offer := .timeoutDestroy }
  | .timeoutDestroy => some { s.send .offerAsync .destroy with offer := .awaitTimeoutDestroy }
  | _ => none

/-- `OfferAsync` goes on with the response to a REST call. -/
def offerResponseStep (s : Session) (resp : Option JanusResponse) : Option Session :=
  match s.offer with
  | .startSession =>
      match dataId resp with
      | none => some (s.finish .exception)
      | some 0 => some (s.finish (.serverError "Failed to create Janus session."))
      | some id => some { s with sessionID := id, offer := .subscribe, poll := .test }
  | .awaitAttach =>
      match dataId resp with
      | none => some (s.finish .exception)
      | some 0 => some { s with offer := .failedDestroy }
      | some _ => some { s with offer := .sendMessage }
  | .awaitMessage =>
      match startEchoResult resp with
      | none => some (s.finish .exception)
      | some result =>
          if result.success then some { s with offer := .register }
          else some { s with offer := .failedDestroy }
  | .awaitFailedDestroy =>
      match resp with
      | none => some (s.finish .exception)
      | some _ => some { s with offer := .setCanceled }
  | .awaitTimeoutDestroy =>
      match resp with
      | none => some (s.finish .exception)
      | some _ =>
          some (s.finish (.serverError
            "Janus operation timed out waiting for Echo Test plugin SDP answer."))
  | _ => none

def writtenStep (s : Session) (ok : Bool) : Option Session :=
  match s.offer with
  | .respond answer =>
      if ok then some ({ s with answered := some answer }.finish .completed)
      else some (s.finish .exception)
  | _ => none

/-- The loop is left. -/
def leave (s : Session) (reason : LoopEnd) : Session :=
  { s with poll := .sendDestroy, loopEnd := some reason }

/-- The steps of the loop between its awaits. -/
def pollStep (s : Session) : Option Session :=
  match s.poll with
  | .test => if s.cancelled then some (s.leave .cancelled) else some { s with poll := .sendPoll }
  | .sendPoll => some { s.send .longPoll .poll with poll := .awaitEvent }
  | .sendDestroy => some { s.send .longPoll .destroy with poll := .awaitDestroy }
  | _ => none

/-- The loop has an event: it is handed to the subscriber unless it is a keepalive. -/
def handleEvent (s : Session) (resp : JanusResponse) : Session :=
  let s' := { s with firstJsep := s.firstJsep.or resp.jsep }
  if resp.janus ≠ .keepalive ∧ s.subscribed then
    match onJanusEvent resp s.waitForAnswer with
    | some c => { s'.complete c with poll := .test }
    | none => { s' with threw := true }.leave .handlerThrew
  else { s' with poll := .test }

def step (s : Session) : Event → Option Session
  | .offer => offerStep s
  | .offerResponse resp => offerResponseStep s resp
  | .written ok => writtenStep s ok
  | .poll => pollStep s
  | .pollEvent resp => if s.poll = .awaitEvent then some (s.handleEvent resp) else none
  | .pollFailed => if s.poll = .awaitEvent then some (s.leave .transportFailure) else none
  | .pollCancelled =>
      if s.poll = .awaitEvent ∧ s.cancelled then some (s.leave .cancelled) else none
  | .pollDestroyed => if s.poll = .awaitDestroy then some { s with poll := .ended } else none
  | .expire => if s.cancelled then none else some { s with cancelled := true }
  | .callback =>
      if s.cancelled ∧ s.registered then
        some { s.complete s.waitForAnswer.trySetCanceled with registered := false }
      else none

/-- A request of a client, from the `CancelAfter` of its token on. -/
def gateway : Machine Session Event where
  init :=
    { sessionID := 0, offer := .startSession, poll := .notStarted, cancelled := false
      subscribed := false, registered := false, waitForAnswer := .pending, sent := []
      completions := 0, threw := false, loopEnd := none, firstJsep := none, answered := none }
  step := step

/-- Both activities have ended. -/
def bothEnded (s : Session) : Option Outcome :=
  match s.offer, s.poll with
  | .ended outcome, .ended => some outcome
  | .ended outcome, .notStarted => some outcome
  | _, _ => none

end Session

end WebrtcEchoes.Janus
