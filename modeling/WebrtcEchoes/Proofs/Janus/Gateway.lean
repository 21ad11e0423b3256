/-
The steps of a Janus session.

`Move` lists what the three activities can do, once for both of the questions asked
about them: whether the answer is completed once (`Proofs/Janus/Answer.lean`), and
whether the session is destroyed once (`Proofs/Janus/Lifecycle.lean`).
-/
import WebrtcEchoes.Janus.Gateway

namespace WebrtcEchoes.Janus.Session

/-- An await of `OfferAsync` that can end it. -/
def Offer.awaitsResponse : Offer → Bool
  | .startSession | .awaitAttach | .awaitMessage | .awaitFailedDestroy
  | .awaitTimeoutDestroy => true
  | _ => false

/-- The steps of the three activities. -/
inductive Move (s : Session) : Event → Session → Prop
  | started {resp : Option JanusResponse} {id : Nat} (h : s.offer = .startSession) (hid : id ≠ 0) :
      Move s (.offerResponse resp) { s with sessionID := id, offer := .subscribe, poll := .test }
  | subscribe (h : s.offer = .subscribe) :
      Move s .offer { s with offer := .sendAttach, subscribed := true }
  | sendAttach (h : s.offer = .sendAttach) :
      Move s .offer { s.send .offerAsync .attach with offer := .awaitAttach }
  | sendMessage (h : s.offer = .sendMessage) :
      Move s .offer { s.send .offerAsync .message with offer := .awaitMessage }
  | failedDestroy (h : s.offer = .failedDestroy) :
      Move s .offer { s.send .offerAsync .destroy with offer := .awaitFailedDestroy }
  | timeoutDestroy (h : s.offer = .timeoutDestroy) :
      Move s .offer { s.send .offerAsync .destroy with offer := .awaitTimeoutDestroy }
  | setCanceled (h : s.offer = .setCanceled) (hc : s.waitForAnswer = .pending)
      {outcome : Outcome} :
      Move s .offer ({ s.complete .canceled with cancelled := true }.finish outcome)
  | setCanceledThrows (h : s.offer = .setCanceled) (hc : s.waitForAnswer ≠ .pending) :
      Move s .offer ({ s with threw := true }.finish .exception)
  | registerLate (h : s.offer = .register) (hc : s.cancelled = true) :
      Move s .offer { s.complete s.waitForAnswer.trySetCanceled with offer := .awaitAnswer }
  | register (h : s.offer = .register) (hc : s.cancelled = false) :
      Move s .offer { s with offer := .awaitAnswer, registered := true }
  | answer {a : String} (h : s.offer = .awaitAnswer) (hr : s.waitForAnswer = .result (some a)) :
      Move s .offer { s with offer := .respond a }
  | noAnswer (h : s.offer = .awaitAnswer) (hr : s.waitForAnswer = .result none) :
      Move s .offer (s.finish .completed)
  | waitCancelled (h : s.offer = .awaitAnswer) (hr : s.waitForAnswer = .canceled) :
      Move s .offer { s with offer := .timeoutDestroy }
  | responseEnds {resp : Option JanusResponse} {outcome : Outcome}
      (h : Offer.awaitsResponse s.offer = true)
      (hattach : s.offer = .awaitAttach → dataId resp ≠ some 0)
      (hmessage : s.offer = .awaitMessage → startEchoResult resp = none) :
      Move s (.offerResponse resp) (s.finish outcome)
  | attachFailed {resp : Option JanusResponse} (h : s.offer = .awaitAttach)
      (hid : dataId resp = some 0) :
      Move s (.offerResponse resp) { s with offer := .failedDestroy }
  | attached {resp : Option JanusResponse} (h : s.offer = .awaitAttach)
      (hid : dataId resp ≠ some 0) :
      Move s (.offerResponse resp) { s with offer := .sendMessage }
  | messageFailed {resp : Option JanusResponse} {result : JanusResult}
      (h : s.offer = .awaitMessage) (hr : startEchoResult resp = some result)
      (hs : result.success = false) :
      Move s (.offerResponse resp) { s with offer := .failedDestroy }
  | messageSent {resp : Option JanusResponse} {result : JanusResult}
      (h : s.offer = .awaitMessage) (hr : startEchoResult resp = some result)
      (hs : result.success = true) :
      Move s (.offerResponse resp) { s with offer := .register }
  | failedDestroyed {resp : Option JanusResponse} (h : s.offer = .awaitFailedDestroy) :
      Move s (.offerResponse resp) { s with offer := .setCanceled }
  | written {a : String} (h : s.offer = .respond a) :
      Move s (.written true) ({ s with answered := some a }.finish .completed)
  | writeFailed {a : String} (h : s.offer = .respond a) :
      Move s (.written false) (s.finish .exception)
  | testCancelled (h : s.poll = .test) : Move s .poll (s.leave .cancelled)
  | test (h : s.poll = .test) : Move s .poll { s with poll := .sendPoll }
  | sendPoll (h : s.poll = .sendPoll) :
      Move s .poll { s.send .longPoll .poll with poll := .awaitEvent }
  | sendDestroy (h : s.poll = .sendDestroy) :
      Move s .poll { s.send .longPoll .destroy with poll := .awaitDestroy }
  | pollEvent {resp : JanusResponse} (h : s.poll = .awaitEvent) :
      Move s (.pollEvent resp) (s.handleEvent resp)
  | pollFailed (h : s.poll = .awaitEvent) : Move s .pollFailed (s.leave .transportFailure)
  | pollCancelled (h : s.poll = .awaitEvent) : Move s .pollCancelled (s.leave .cancelled)
  | pollDestroyed (h : s.poll = .awaitDestroy) : Move s .pollDestroyed { s with poll := .ended }
  | expire : Move s .expire { s with cancelled := true }
  | callback (h : s.registered = true) :
      Move s .callback { s.complete s.waitForAnswer.trySetCanceled with registered := false }

variable {s s' : Session} {e : Event}

theorem offerStep_move (h : offerStep s = some s') : Move s .offer s' := by
  unfold offerStep at h
  split at h
  · rename_i hpc
    exact Option.some.inj h ▸ .subscribe hpc
  · rename_i hpc
    exact Option.some.inj h ▸ .sendAttach hpc
  · rename_i hpc
    exact Option.some.inj h ▸ .sendMessage hpc
  · rename_i hpc
    exact Option.some.inj h ▸ .failedDestroy hpc
  · rename_i hpc
    split at h
    · rename_i c hc
      obtain ⟨hpending, rfl⟩ := Completion.setCanceled_eq_some_iff.mp hc
      exact Option.some.inj h ▸ .setCanceled hpc hpending
    · rename_i hc
      exact Option.some.inj h ▸ .setCanceledThrows hpc (Completion.setCanceled_eq_none_iff.mp hc)
  · rename_i hpc
    split at h
    · rename_i hc
      exact Option.some.inj h ▸ .registerLate hpc hc
    · rename_i hc
      exact Option.some.inj h ▸ .register hpc (by simpa using hc)
  · rename_i hpc
    split at h
    · simp at h
    · rename_i a hr
      exact Option.some.inj h ▸ .answer hpc hr
    · rename_i hr
      exact Option.some.inj h ▸ .noAnswer hpc hr
    · rename_i hr
      exact Option.some.inj h ▸ .waitCancelled hpc hr
  · rename_i hpc
    exact Option.some.inj h ▸ .timeoutDestroy hpc
  · simp at h

theorem offerResponseStep_move {resp : Option JanusResponse}
    (h : offerResponseStep s resp = some s') : Move s (.offerResponse resp) s' := by
  unfold offerResponseStep at h
  split at h
  · rename_i hpc
    split at h
    · exact Option.some.inj h ▸ .responseEnds (by simp [hpc, Offer.awaitsResponse])
        (by simp [hpc]) (by simp [hpc])
    · exact Option.some.inj h ▸ .responseEnds (by simp [hpc, Offer.awaitsResponse])
        (by simp [hpc]) (by simp [hpc])
    · rename_i id hne _
      exact Option.some.inj h ▸ .started hpc (fun h0 => hne h0)
  · rename_i hpc
    split at h
    · rename_i hid
      exact Option.some.inj h ▸ .responseEnds (by simp [hpc, Offer.awaitsResponse])
        (by simp [hid]) (by simp [hpc])
    · rename_i hid
      exact Option.some.inj h ▸ .attachFailed hpc hid
    · rename_i id hne hid
      exact Option.some.inj h ▸ .attached hpc (by simpa [hid] using hne)
  · rename_i hpc
    split at h
    · rename_i hr
      exact Option.some.inj h ▸ .responseEnds (by simp [hpc, Offer.awaitsResponse])
        (by simp [hpc]) (fun _ => hr)
    · rename_i result hr
      split at h
      · rename_i hs
        exact Option.some.inj h ▸ .messageSent hpc hr hs
      · rename_i hs
        exact Option.some.inj h ▸ .messageFailed hpc hr (by simpa using hs)
  · rename_i hpc
    split at h
    · exact Option.some.inj h ▸ .responseEnds (by simp [hpc, Offer.awaitsResponse])
        (by simp [hpc]) (by simp [hpc])
    · exact Option.some.inj h ▸ .failedDestroyed hpc
  · rename_i hpc
    split at h
    · exact Option.some.inj h ▸ .responseEnds (by simp [hpc, Offer.awaitsResponse])
        (by simp [hpc]) (by simp [hpc])
    · exact Option.some.inj h ▸ .responseEnds (by simp [hpc, Offer.awaitsResponse])
        (by simp [hpc]) (by simp [hpc])
  · simp at h

theorem writtenStep_move {ok : Bool} (h : writtenStep s ok = some s') :
    Move s (.written ok) s' := by
  unfold writtenStep at h
  split at h
  · rename_i a hpc
    split at h
    · rename_i hok
      rw [hok, ← Option.some.inj h]
      exact .written hpc
    · rename_i hok
      rw [show ok = false by simpa using hok, ← Option.some.inj h]
      exact .writeFailed hpc
  · simp at h

theorem pollStep_move (h : pollStep s = some s') : Move s .poll s' := by
  unfold pollStep at h
  split at h
  · rename_i hpc
    split at h
    · exact Option.some.inj h ▸ .testCancelled hpc
    · exact Option.some.inj h ▸ .test hpc
  · rename_i hpc
    exact Option.some.inj h ▸ .sendPoll hpc
  · rename_i hpc
    exact Option.some.inj h ▸ .sendDestroy hpc
  · simp at h

/-- Every step is one of the listed ones. -/
theorem step_move (h : gateway.step s e = some s') : Move s e s' := by
  cases e with
  | offer => exact offerStep_move h
  | offerResponse resp => exact offerResponseStep_move h
  | written ok => exact writtenStep_move h
  | poll => exact pollStep_move h
  | pollEvent resp =>
      obtain ⟨hpc, hs⟩ := Option.ite_none_right_eq_some.mp h
      exact Option.some.inj hs ▸ .pollEvent hpc
  | pollFailed =>
      obtain ⟨hpc, hs⟩ := Option.ite_none_right_eq_some.mp h
      exact Option.some.inj hs ▸ .pollFailed hpc
  | pollCancelled =>
      obtain ⟨⟨hpc, -⟩, hs⟩ := Option.ite_none_right_eq_some.mp h
      exact Option.some.inj hs ▸ .pollCancelled hpc
  | pollDestroyed =>
      obtain ⟨hpc, hs⟩ := Option.ite_none_right_eq_some.mp h
      exact Option.some.inj hs ▸ .pollDestroyed hpc
  | expire =>
      obtain ⟨-, hs⟩ := Option.ite_none_left_eq_some.mp h
      exact Option.some.inj hs ▸ .expire
  | callback =>
      obtain ⟨⟨-, hreg⟩, hs⟩ := Option.ite_none_right_eq_some.mp h
      exact Option.some.inj hs ▸ .callback hreg

/-! ### What an event of the loop does -/

/-- The loop hands the event to the handler, and the event carries a jsep. -/
def Handed (s : Session) (resp : JanusResponse) : Prop :=
  resp.janus ≠ .keepalive ∧ s.subscribed = true ∧ resp.jsep ≠ none

/-- What is received is recorded, and the loop goes on. -/
def receive (s : Session) (resp : JanusResponse) : Session :=
  { s with firstJsep := s.firstJsep.or resp.jsep, poll := .test }

/-- An event that is not handed over, or has nothing for the handler, is only received. -/
theorem handleEvent_of_not_handed {resp : JanusResponse} (h : ¬ Handed s resp) :
    s.handleEvent resp = s.receive resp := by
  unfold handleEvent
  by_cases hsub : resp.janus ≠ .keepalive ∧ s.subscribed
  · have hjsep : resp.jsep = none := by
      by_contra hne
      exact h ⟨hsub.1, hsub.2, hne⟩
    rw [if_pos hsub]
    simp [onJanusEvent, hjsep, complete, receive]
  · rw [if_neg hsub]
    rfl

/-- The first event that is handed over completes the source. -/
theorem handleEvent_of_pending {resp : JanusResponse} {jsep : Jsep} (h : Handed s resp)
    (hj : resp.jsep = some jsep) (hc : s.waitForAnswer = .pending) :
    s.handleEvent resp = (s.receive resp).complete (.result jsep.sdp) := by
  have hset : s.waitForAnswer.setResult jsep.sdp = some (.result jsep.sdp) :=
    Completion.setResult_eq_some_iff.mpr ⟨hc, rfl⟩
  unfold handleEvent
  rw [if_pos ⟨h.1, h.2.1⟩]
  simp [onJanusEvent, hj, hset, complete, receive]

/-- On a completed source the handler throws. -/
theorem handleEvent_of_completed {resp : JanusResponse} (h : Handed s resp)
    (hc : s.waitForAnswer ≠ .pending) :
    s.handleEvent resp = { s.receive resp with threw := true }.leave .handlerThrew := by
  obtain ⟨hkeep, hsub, hjsep⟩ := h
  obtain ⟨jsep, hj⟩ := Option.ne_none_iff_exists'.mp hjsep
  have hnone : s.waitForAnswer.setResult jsep.sdp = none :=
    Completion.setResult_eq_none_iff.mpr hc
  unfold handleEvent
  rw [if_pos ⟨hkeep, hsub⟩]
  simp [onJanusEvent, hj, hnone, receive, leave]

/-- Whatever the event, the loop neither sends anything nor touches `OfferAsync`. -/
theorem handleEvent_frame (s : Session) (resp : JanusResponse) :
    (s.handleEvent resp).sessionID = s.sessionID ∧ (s.handleEvent resp).offer = s.offer ∧
      (s.handleEvent resp).sent = s.sent ∧
      ((s.handleEvent resp).poll = .test ∨ (s.handleEvent resp).poll = .sendDestroy) := by
  by_cases hh : Handed s resp
  · by_cases hc : s.waitForAnswer = .pending
    · obtain ⟨jsep, hj⟩ := Option.ne_none_iff_exists'.mp hh.2.2
      rw [handleEvent_of_pending hh hj hc]
      exact ⟨rfl, rfl, rfl, Or.inl rfl⟩
    · rw [handleEvent_of_completed hh hc]
      exact ⟨rfl, rfl, rfl, Or.inr rfl⟩
  · rw [handleEvent_of_not_handed hh]
    exact ⟨rfl, rfl, rfl, Or.inl rfl⟩

end WebrtcEchoes.Janus.Session
