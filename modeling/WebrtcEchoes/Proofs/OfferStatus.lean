/-
What status 200 of a C# server says.

A client takes it for an answer, so an action has to be left by an exception whenever it
has no answer to write, and before anything is written: the response stream is not
buffered, and status 200 goes out with what is written to it.  Each of the three actions
misses one way out: the kurento action catches the error response of a call and then
completes, the sipsorcery action completes after a remote description that was not
accepted, and the kurento and janus actions go on with an answer that is null.
-/
import WebrtcEchoes.Kurento.Server
import WebrtcEchoes.Proofs.Janus.Gateway
import WebrtcEchoes.Sipsorcery.Server

namespace WebrtcEchoes

open EmbedIO

/-- The action completes with an answer only; and where no answer was available it is left by
an exception, with nothing written. -/
structure EmbedIO.Contract (available : Prop) (ended : Ended) : Prop where
  completed : ended.threw = false → ∃ sdp, ended.written = some (answer (some sdp))
  failed : ¬ available → ended.threw = true ∧ ended.written = none

namespace Kurento

variable {invoke : Invoke} {offer : RTCSessionDescriptionInit}

/-- A call before the answer is answered with an error, all earlier ones having succeeded. -/
def Refused (invoke : Invoke) (offer : RTCSessionDescriptionInit) : Prop :=
  ∃ pre i post l, beforeAnswer offer = pre ++ i :: post ∧ invokeAll invoke pre .start = .ok l ∧
    invoke (i.request l) = .error .remoteInvocation

/-- Every call up to the answer has succeeded, and the answer is not null. -/
def Available (lib : Library) : Prop :=
  ∃ offer l sdp, lib.getRequestData.offer? = some offer ∧ lib.connectAsync = true ∧
    invokeAll lib.invoke (beforeAnswer offer) .start = .ok l ∧ l.answer = some sdp

theorem Available.answer {lib : Library} {l : Locals} (h : Available lib)
    (hoffer : lib.getRequestData.offer? = some offer)
    (hall : invokeAll lib.invoke (beforeAnswer offer) .start = .ok l) : l.answer ≠ none := by
  obtain ⟨offer', l', sdp, hoffer', -, hall', hanswer⟩ := h
  obtain rfl := Option.some.inj (hoffer.symm.trans hoffer')
  obtain rfl := Except.ok.inj (hall.symm.trans hall')
  simp [hanswer]

end Kurento

/-! ### sipsorcery -/

namespace Sipsorcery.Server

/-- The remote description is accepted, and there is an answer. -/
def Available (lib : Library) : Prop :=
  ∃ offer sdp, lib.getRequestData.offer? = some offer ∧ prepare lib offer = true ∧
    lib.setRemoteDescription offer = some .ok ∧ lib.createAnswer = true ∧
    lib.setLocalDescription = true ∧ lib.localSdp = some sdp

end Sipsorcery.Server

/-! ### janus -/

namespace Janus.Session

variable {s s' : Session} {e : Event}

/-- A response to a call of the action. -/
def Event.response? : Event → Option (Option JanusResponse)
  | .offerResponse resp => some resp
  | _ => none

/-- The responses to the calls of the action, in order. -/
def responses (es : List Event) : List (Option JanusResponse) := es.filterMap Event.response?

/-- There is no id in the response. -/
def NoId (resp : Option JanusResponse) : Prop := ∀ r, resp = some r → r.id = 0

/-- The response to the offer is an error, or there is none. -/
def Refused (resp : Option JanusResponse) : Prop :=
  ∀ r, resp = some r →
    r.janus = .error ∧ r.error = none ∨ ∃ reason, r.error = some ⟨some reason⟩

/-- The calls in front of the wait create the session, attach the plugin and send the offer. -/
def CallFails : Nat → Option JanusResponse → Prop
  | 0, resp => NoId resp
  | 1, resp => NoId resp
  | 2, resp => Refused resp
  | _, _ => False

/-- Janus has sent this answer. -/
def Sent (es : List Event) (sdp : String) : Prop :=
  ∃ resp, .pollEvent resp ∈ es ∧ resp.jsep = some ⟨some sdp⟩

/-- What can go wrong, by what Janus has answered and by what has come of the wait. -/
inductive Failed (es : List Event) (s : Session) : Prop
  | call {k : Nat} {resp : Option JanusResponse} (hresp : (responses es)[k]? = some resp)
      (hfails : CallFails k resp)
  | wait (h : s.waitForAnswer = .canceled)
  | noSdp (h : ∀ sdp, ¬ Sent es sdp)

/-- The action has completed. -/
def Completed (s : Session) : Prop := s.offer = .ended .completed

/-- The loop, the timer and the callback leave the action alone. -/
theorem Move.other (hm : Move s e s') (he : e ≠ .offer) (hr : e.response? = none)
    (hw : ∀ ok, e ≠ .written ok) : s'.offer = s.offer ∧ s'.answered = s.answered := by
  cases hm with
  | @pollEvent resp h =>
      refine ⟨(handleEvent_frame s resp).2.1, ?_⟩
      unfold handleEvent
      simp only
      split
      · split <;> rfl
      · rfl
  | testCancelled | test | sendPoll | sendDestroy | pollFailed | pollCancelled | pollDestroyed
    | expire | callback => exact ⟨rfl, rfl⟩
  | started | responseEnds | attachFailed | attached | messageFailed | messageSent
    | failedDestroyed => simp [Event.response?] at hr
  | written | writeFailed => exact absurd rfl (hw _)
  | _ => exact absurd rfl he

/-- A completed action has written an answer. -/
def Answered (s : Session) : Prop := Completed s → ∃ sdp, s.answered = some sdp

/-- In every state on the way a completed action has written its answer, and one that has
met a failure has neither completed nor written anything. -/
structure Contract (es : List Event) : Prop where
  completed : gateway.Throughout Answered es
  failed : ∀ pre post s, es = pre ++ post → gateway.run pre = some s → Failed pre s →
    ¬ Completed s ∧ s.answered = none

end Janus.Session

/-! ### The three actions -/

end WebrtcEchoes
