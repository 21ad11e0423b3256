/-
The destruction of a Janus session.

The loop destroys the session in every run, as its last request.  So there is exactly one
destroy request with nothing after it unless `OfferAsync` sends one of its own, which it
does when `StartEcho` reports a failure and when the wait for the answer is cancelled, or
still sends a request of its own after the loop has gone.  `lifecycle_iff` states this
over the runs in which both activities have ended.
-/
import WebrtcEchoes.Proofs.Janus.Answer

namespace WebrtcEchoes.Janus.Session

variable {s s' : Session} {e : Event}

/-- The requests end in a destroy, which is the only one. -/
def DestroyedOnce (sent : List (Activity × Request)) : Prop :=
  ∃ pre sender, sent = pre ++ [(sender, .destroy)] ∧ ∀ x ∈ pre, x.2 ≠ .destroy

/-- A session that was created is destroyed once, and not used after that. -/
def Proper (s : Session) : Prop := s.sessionID ≠ 0 → DestroyedOnce s.sent

/-- The condition on a step: `StartEcho` does not report a failure, the wait is not found
cancelled, and no request of `OfferAsync` is sent after the loop has destroyed the session. -/
structure Orderly (s : Session) (e : Event) : Prop where
  attach : ∀ resp, e = .offerResponse resp → s.offer = .awaitAttach → dataId resp ≠ some 0
  message : ∀ resp result, e = .offerResponse resp → s.offer = .awaitMessage →
    startEchoResult resp = some result → result.success = true
  wait : e = .offer → s.offer = .awaitAnswer → s.waitForAnswer ≠ .canceled
  send : e = .offer → s.offer = .sendAttach ∨ s.offer = .sendMessage →
    (.longPoll, .destroy) ∉ s.sent

/-- A run in which both activities have ended. -/
abbrev Execution := gateway.Execution bothEnded

/-! ### The requests of the loop -/

/-- The loop starts with the session, and its destroy request is its last. -/
structure LoopOK (s : Session) : Prop where
  notStarted : s.poll = .notStarted ↔ s.sessionID = 0
  unused : s.sessionID = 0 → s.sent = [] ∧ (s.offer = .startSession ∨ ∃ o, s.offer = .ended o)
  started : s.offer = .startSession → s.sessionID = 0
  destroyed : (.longPoll, .destroy) ∈ s.sent ↔ s.poll = .awaitDestroy ∨ s.poll = .ended

theorem loopOK_init : LoopOK gateway.init := by
  refine ⟨?_, ?_, ?_, ?_⟩ <;> simp [gateway]

theorem LoopOK.created (hs : LoopOK s) (hstart : s.offer ≠ .startSession)
    (hlive : ∀ o, s.offer ≠ .ended o) : s.sessionID ≠ 0 := by
  intro hid
  rcases (hs.unused hid).2 with h | ⟨o, h⟩
  · exact hstart h
  · exact hlive o h

/-- A step of `OfferAsync` that does not touch the loop. -/
theorem LoopOK.of_offer (hs : LoopOK s) (hid : s'.sessionID = s.sessionID)
    (hpoll : s'.poll = s.poll)
    (hsent : (.longPoll, .destroy) ∈ s'.sent ↔ (.longPoll, .destroy) ∈ s.sent)
    (hnew : s'.offer ≠ .startSession)
    (hused : s.sessionID ≠ 0 ∨ s'.sent = s.sent ∧ ∃ o, s'.offer = .ended o) : LoopOK s' := by
  refine ⟨?_, fun h0 => ?_, fun h => absurd h hnew, ?_⟩
  · rw [hpoll, hid]
    exact hs.notStarted
  · rw [hid] at h0
    rcases hused with hne | ⟨hsame, hended⟩
    · exact absurd h0 hne
    · exact ⟨hsame.trans (hs.unused h0).1, Or.inr hended⟩
  · rw [hsent, hpoll]
    exact hs.destroyed

/-- A step of the loop that does not touch `OfferAsync`. -/
theorem LoopOK.of_poll (hs : LoopOK s) (hid : s'.sessionID = s.sessionID)
    (hoffer : s'.offer = s.offer) (hold : s.poll ≠ .notStarted) (hnew : s'.poll ≠ .notStarted)
    (hsent : (.longPoll, .destroy) ∈ s'.sent ↔ s'.poll = .awaitDestroy ∨ s'.poll = .ended) :
    LoopOK s' := by
  have hne : s.sessionID ≠ 0 := fun h0 => hold (hs.notStarted.mpr h0)
  refine ⟨?_, fun h0 => ?_, fun h => ?_, hsent⟩
  · rw [hid]
    exact iff_of_false hnew hne
  · rw [hid] at h0
    exact absurd h0 hne
  · rw [hoffer] at h
    exact absurd (hs.started h) hne

theorem loopOK_step (hs : LoopOK s) (hm : Move s e s') : LoopOK s' := by
  cases hm with
  | started h hid =>
      have hsent : s.sent = [] := (hs.unused (hs.started h)).1
      refine ⟨by simp [hid], fun h0 => absurd h0 hid, by simp, ?_⟩
      simp [hsent]
  | subscribe h | register h | registerLate h | answer h | waitCancelled h | attachFailed h
    | attached h | messageFailed h | messageSent h | failedDestroyed h =>
      refine hs.of_offer rfl rfl Iff.rfl (by simp) (Or.inl ?_)
      exact hs.created (by simp [h]) (by simp [h])
  | sendAttach h | sendMessage h | failedDestroy h | timeoutDestroy h =>
      refine hs.of_offer rfl rfl (by simp [send]) (by simp) (Or.inl ?_)
      exact hs.created (by simp [h]) (by simp [h])
  | setCanceled | setCanceledThrows | noAnswer | responseEnds | written | writeFailed =>
      exact hs.of_offer rfl rfl Iff.rfl (by simp [finish]) (Or.inr ⟨rfl, _, rfl⟩)
  | testCancelled h | test h | pollFailed h | pollCancelled h =>
      have hnone : (.longPoll, .destroy) ∉ s.sent := by simp [hs.destroyed, h]
      exact hs.of_poll rfl rfl (by simp [h]) (by simp [leave])
        (iff_of_false hnone (by simp [leave]))
  | sendPoll h =>
      have hnone : (.longPoll, .destroy) ∉ s.sent := by simp [hs.destroyed, h]
      exact hs.of_poll rfl rfl (by simp [h]) (by simp) (by simp [send, hnone])
  | sendDestroy h => exact hs.of_poll rfl rfl (by simp [h]) (by simp) (by simp [send])
  | @pollEvent resp h =>
      have hnone : (.longPoll, .destroy) ∉ s.sent := by simp [hs.destroyed, h]
      obtain ⟨hid, hoffer, hsent, hpoll⟩ := handleEvent_frame s resp
      refine hs.of_poll hid hoffer (by simp [h]) ?_ ?_
      · rcases hpoll with hp | hp <;> simp [hp]
      · rw [hsent]
        refine iff_of_false hnone ?_
        rcases hpoll with hp | hp <;> simp [hp]
  | pollDestroyed h =>
      have hdestroyed : (.longPoll, .destroy) ∈ s.sent := hs.destroyed.mpr (Or.inl h)
      exact hs.of_poll rfl rfl (by simp [h]) (by simp) (iff_of_true hdestroyed (by simp))
  | expire | callback => exact ⟨hs.notStarted, hs.unused, hs.started, hs.destroyed⟩

theorem loopOK_run : ∀ es s, gateway.run es = some s → LoopOK s :=
  Machine.run_induction (P := fun _ s => LoopOK s) loopOK_init
    fun _ _ _ _ _ hs h => loopOK_step hs (step_move h)

/-! ### When the session is not destroyed once -/

/-- `OfferAsync` is about to destroy the session. -/
def Failing (o : Offer) : Prop := o = .failedDestroy ∨ o = .timeoutDestroy

/-- `OfferAsync` destroys the session or is about to, or something was sent after the loop
had done so. -/
def Spoiled (s : Session) : Prop :=
  Failing s.offer ∨ (.offerAsync, .destroy) ∈ s.sent ∨ (.longPoll, .destroy) ∈ s.sent.dropLast

theorem not_spoiled_init : ¬ Spoiled gateway.init := by
  simp [Spoiled, Failing, gateway]

/-- An orderly step that sends nothing and neither enters nor leaves a failure branch. -/
theorem spoiled_of_quiet (hsent : s'.sent = s.sent) (hfail : Failing s'.offer ↔ Failing s.offer)
    (ho : Orderly s e) : Spoiled s' ↔ Spoiled s ∨ ¬ Orderly s e := by
  rw [or_iff_left (not_not.mpr ho)]
  unfold Spoiled
  rw [hsent, hfail]

/-- What one more request changes. -/
theorem spoiled_send {sender : Activity} {request : Request} {o : Offer} {p : Poll} :
    Spoiled { s.send sender request with offer := o, poll := p } ↔
      Failing o ∨ ((.offerAsync, .destroy) ∈ s.sent ∨ (.offerAsync, .destroy) = (sender, request)) ∨
        (.longPoll, .destroy) ∈ s.sent := by
  unfold Spoiled
  simp [send]

/-- The loop can send only while it has not destroyed the session. -/
theorem LoopOK.dropLast (hs : LoopOK s) (h : s.poll = .sendPoll ∨ s.poll = .sendDestroy) :
    (.longPoll, .destroy) ∉ s.sent ∧ (.longPoll, .destroy) ∉ s.sent.dropLast := by
  have hnone : (.longPoll, .destroy) ∉ s.sent := by
    rw [hs.destroyed]
    rcases h with hp | hp <;> simp [hp]
  exact ⟨hnone, fun hmem => hnone (List.mem_of_mem_dropLast hmem)⟩

/-- A step spoils the session just when it is not orderly, and nothing repairs it. -/
theorem spoiled_step (hs : LoopOK s) (hm : Move s e s') :
    Spoiled s' ↔ Spoiled s ∨ ¬ Orderly s e := by
  cases hm with
  | attachFailed h hid =>
      refine iff_of_true (Or.inl (Or.inl rfl)) (Or.inr fun ho => ?_)
      exact ho.attach _ rfl h hid
  | messageFailed h hr hfalse =>
      refine iff_of_true (Or.inl (Or.inl rfl)) (Or.inr fun ho => ?_)
      have htrue := ho.message _ _ rfl h hr
      simp [hfalse] at htrue
  | waitCancelled h hr =>
      refine iff_of_true (Or.inl (Or.inr rfl)) (Or.inr fun ho => ?_)
      exact ho.wait rfl h hr
  | failedDestroy h =>
      refine iff_of_true (spoiled_send.mpr ?_) (Or.inl (Or.inl (Or.inl h)))
      exact Or.inr (Or.inl (Or.inr rfl))
  | timeoutDestroy h =>
      refine iff_of_true (spoiled_send.mpr ?_) (Or.inl (Or.inl (Or.inr h)))
      exact Or.inr (Or.inl (Or.inr rfl))
  | sendAttach h | sendMessage h =>
      have ho : Orderly s .offer ↔ (.longPoll, .destroy) ∉ s.sent := by
        refine ⟨fun ho => ho.send rfl (by simp [h]), fun hn => ?_⟩
        exact ⟨by simp, by simp, by simp [h], fun _ _ => hn⟩
      have hdrop : (.longPoll, .destroy) ∈ s.sent.dropLast → (.longPoll, .destroy) ∈ s.sent :=
        List.mem_of_mem_dropLast
      rw [spoiled_send, ho, not_not]
      simp only [Spoiled, Failing, h, reduceCtorEq, or_false, false_or, Prod.mk.injEq, and_false]
      tauto
  | sendPoll h =>
      obtain ⟨hnone, hdrop⟩ := hs.dropLast (Or.inl h)
      have ho : Orderly s .poll := ⟨by simp, by simp, by simp, by simp⟩
      rw [or_iff_left (not_not.mpr ho), spoiled_send]
      simp [Spoiled, hnone, hdrop, send]
  | sendDestroy h =>
      obtain ⟨hnone, hdrop⟩ := hs.dropLast (Or.inr h)
      have ho : Orderly s .poll := ⟨by simp, by simp, by simp, by simp⟩
      rw [or_iff_left (not_not.mpr ho), spoiled_send]
      simp [Spoiled, hnone, hdrop, send]
  | subscribe h | setCanceled h | setCanceledThrows h | registerLate h | register h =>
      exact spoiled_of_quiet rfl (by simp [h, Failing, finish])
        ⟨by simp, by simp, by simp [h], by simp [h]⟩
  | answer h hr | noAnswer h hr =>
      exact spoiled_of_quiet rfl (by simp [h, Failing, finish])
        ⟨by simp, by simp, by simp [hr], by simp [h]⟩
  | started h hid =>
      exact spoiled_of_quiet rfl (by simp [h, Failing]) ⟨by simp [h], by simp [h], by simp, by simp⟩
  | responseEnds h hattach hmessage =>
      refine spoiled_of_quiet rfl ?_ ⟨?_, ?_, by simp, by simp⟩
      · cases hpc : s.offer <;> simp [hpc, Offer.awaitsResponse] at h <;> simp [Failing, finish]
      · intro resp hresp hpc
        obtain rfl := Event.offerResponse.inj hresp
        exact hattach hpc
      · intro resp result hresp hpc hr
        obtain rfl := Event.offerResponse.inj hresp
        rw [hmessage hpc] at hr
        simp at hr
  | attached h hid =>
      refine spoiled_of_quiet rfl (by simp [h, Failing]) ⟨?_, by simp [h], by simp, by simp⟩
      intro resp hresp _
      obtain rfl := Event.offerResponse.inj hresp
      exact hid
  | messageSent h hr htrue =>
      refine spoiled_of_quiet rfl (by simp [h, Failing]) ⟨by simp [h], ?_, by simp, by simp⟩
      intro resp result hresp _ hr'
      obtain rfl := Event.offerResponse.inj hresp
      rw [hr] at hr'
      obtain rfl := Option.some.inj hr'
      exact htrue
  | failedDestroyed h =>
      exact spoiled_of_quiet rfl (by simp [h, Failing]) ⟨by simp [h], by simp [h], by simp, by simp⟩
  | written h | writeFailed h =>
      exact spoiled_of_quiet rfl (by simp [h, Failing, finish]) ⟨by simp, by simp, by simp, by simp⟩
  | @pollEvent resp h =>
      obtain ⟨-, hoffer, hsent, -⟩ := handleEvent_frame s resp
      exact spoiled_of_quiet hsent (by rw [hoffer]) ⟨by simp, by simp, by simp, by simp⟩
  | testCancelled | test | pollFailed | pollCancelled | pollDestroyed | expire | callback =>
      exact spoiled_of_quiet rfl Iff.rfl ⟨by simp, by simp, by simp, by simp⟩

theorem orderly_iff : ∀ es s, gateway.run es = some s →
    (gateway.Each (fun s e _ => Orderly s e) es ↔ ¬ Spoiled s) :=
  Machine.each_iff_not not_spoiled_init
    fun es s _ _ hrun h => spoiled_step (loopOK_run es s hrun) (step_move h)

/-- Of the requests that contain the destroy of the loop, those with no other and nothing
behind it. -/
theorem destroyedOnce_iff {sent : List (Activity × Request)}
    (h : (.longPoll, .destroy) ∈ sent) :
    DestroyedOnce sent ↔
      (.offerAsync, .destroy) ∉ sent ∧ (.longPoll, .destroy) ∉ sent.dropLast := by
  rcases List.eq_nil_or_concat sent with rfl | ⟨pre, last, rfl⟩
  · simp at h
  rw [List.concat_eq_append] at h ⊢
  rw [List.dropLast_concat]
  refine ⟨?_, ?_⟩
  · intro ⟨pre', sender, heq, hpre⟩
    obtain ⟨rfl, hlast⟩ := List.append_inj' heq rfl
    obtain rfl : last = (sender, .destroy) := by simpa using hlast
    have hloop : (.longPoll, .destroy) ∉ pre := fun hmem => hpre _ hmem rfl
    refine ⟨fun hmem => ?_, hloop⟩
    rcases List.mem_append.mp h with hin | hin
    · exact hloop hin
    · rcases List.mem_append.mp hmem with hmem | hmem
      · exact hpre _ hmem rfl
      · rw [List.mem_singleton] at hin hmem
        rw [← hin] at hmem
        simp at hmem
  · intro ⟨hoffer, hloop⟩
    rcases List.mem_append.mp h with hin | hin
    · exact absurd hin hloop
    · rw [List.mem_singleton] at hin
      refine ⟨pre, .longPoll, by rw [hin], ?_⟩
      intro ⟨sender, request⟩ hx hdestroy
      obtain rfl : request = .destroy := hdestroy
      cases sender with
      | offerAsync => exact hoffer (List.mem_append_left _ hx)
      | longPoll => exact hloop hx

theorem bothEnded_eq_some {o : Outcome} (h : bothEnded s = some o) :
    s.offer = .ended o ∧ (s.poll = .ended ∨ s.poll = .notStarted) := by
  unfold bothEnded at h
  split at h
  · rename_i hoffer hpoll
    exact ⟨Option.some.inj h ▸ hoffer, Or.inl hpoll⟩
  · rename_i hoffer hpoll
    exact ⟨Option.some.inj h ▸ hoffer, Or.inr hpoll⟩
  · simp at h

/-- Once both activities have ended, a session is as it should be unless it is spoiled. -/
theorem proper_iff (hs : LoopOK s) {o : Outcome} (h : bothEnded s = some o) :
    Proper s ↔ ¬ Spoiled s := by
  obtain ⟨hoffer, hpoll⟩ := bothEnded_eq_some h
  have hfail : ¬ Failing s.offer := by simp [Failing, hoffer]
  rcases hpoll with hpoll | hpoll
  · have hid : s.sessionID ≠ 0 := fun h0 => by
      rw [hs.notStarted.mpr h0] at hpoll
      simp at hpoll
    have hdestroyed : (.longPoll, .destroy) ∈ s.sent := hs.destroyed.mpr (Or.inr hpoll)
    have honce : Proper s ↔ DestroyedOnce s.sent := ⟨fun hp => hp hid, fun hd _ => hd⟩
    rw [honce, destroyedOnce_iff hdestroyed]
    simp [Spoiled, hfail]
  · have hid : s.sessionID = 0 := hs.notStarted.mp hpoll
    refine iff_of_true (fun hne => absurd hid hne) ?_
    simp [Spoiled, hfail, (hs.unused hid).1]

/-! ### Every run comes to an end

The wait for the answer ends at the latest when the token is cancelled, because the
callback is registered by then or has run at once; and the loop can be left by a failure
of its long poll.
-/

def Offer.remaining : Offer → Nat
  | .startSession => 12
  | .subscribe => 11
  | .sendAttach => 10
  | .awaitAttach => 9
  | .sendMessage => 8
  | .awaitMessage => 7
  | .register => 6
  | .awaitAnswer => 4
  | .respond _ => 3
  | .failedDestroy | .timeoutDestroy => 3
  | .awaitFailedDestroy | .awaitTimeoutDestroy => 2
  | .setCanceled => 1
  | .ended _ => 0

def Poll.remaining : Poll → Nat
  | .notStarted => 0
  | .test => 5
  | .sendPoll => 4
  | .awaitEvent => 3
  | .sendDestroy => 2
  | .awaitDestroy => 1
  | .ended => 0

/-- What is left to happen if the loop gets no more events. -/
def remaining (s : Session) : Nat :=
  Offer.remaining s.offer + Poll.remaining s.poll + (!s.cancelled).toNat + s.registered.toNat

/-- A step of `OfferAsync` towards its end, which may cancel the token and drop the callback. -/
theorem remaining_lt_of_offer (h : Offer.remaining s'.offer < Offer.remaining s.offer)
    (hpoll : s'.poll = s.poll) (hcancelled : s.cancelled = true → s'.cancelled = true)
    (hregistered : s'.registered = true → s.registered = true) :
    remaining s' < remaining s := by
  have hc : (!s'.cancelled).toNat ≤ (!s.cancelled).toNat := by
    cases hold : s.cancelled with
    | true => simp [hcancelled hold]
    | false => exact Bool.toNat_le _
  have hr : s'.registered.toNat ≤ s.registered.toNat := by
    cases hnew : s'.registered with
    | true => simp [hregistered hnew]
    | false => exact Nat.zero_le _
  unfold remaining
  rw [hpoll]
  omega

theorem remaining_finish {o : Outcome} (h : 0 < Offer.remaining s.offer) :
    remaining (s.finish o) < remaining s :=
  remaining_lt_of_offer h rfl (fun hc => hc) (by simp [finish])

/-- A step of the loop towards its end. -/
theorem remaining_lt_of_poll (h : Poll.remaining s'.poll < Poll.remaining s.poll)
    (hoffer : s'.offer = s.offer) (hcancelled : s'.cancelled = s.cancelled)
    (hregistered : s'.registered = s.registered) : remaining s' < remaining s := by
  unfold remaining
  rw [hoffer, hcancelled, hregistered]
  omega

/-- The wait for the answer can go on, at the latest when the token is cancelled. -/
theorem wait_progress (hs : SourceOK s) (h : s.offer = .awaitAnswer) :
    ∃ e s', gateway.step s e = some s' ∧ remaining s' < remaining s := by
  cases hsource : s.waitForAnswer with
  | result r =>
      cases r with
      | none =>
          refine ⟨.offer, s.finish .completed, ?_, remaining_finish (by simp [h, Offer.remaining])⟩
          simp [gateway, step, offerStep, h, hsource]
      | some a =>
          refine ⟨.offer, { s with offer := .respond a }, ?_, ?_⟩
          · simp [gateway, step, offerStep, h, hsource]
          · exact remaining_lt_of_offer (by simp [h, Offer.remaining]) rfl (fun hc => hc)
              (fun hr => hr)
  | canceled =>
      refine ⟨.offer, { s with offer := .timeoutDestroy }, ?_, ?_⟩
      · simp [gateway, step, offerStep, h, hsource]
      · exact remaining_lt_of_offer (by simp [h, Offer.remaining]) rfl (fun hc => hc) (fun hr => hr)
  | pending =>
      have hreg : s.registered = true := hs.waiting h hsource
      cases hc : s.cancelled with
      | false =>
          refine ⟨.expire, { s with cancelled := true }, by simp [gateway, step, hc], ?_⟩
          simp [remaining, hc]
      | true =>
          refine ⟨.callback, _, by simp only [gateway, step, hc, hreg]; rfl, ?_⟩
          simp [remaining, complete, hc, hreg]

/-- `OfferAsync` can go on. -/
theorem offer_progress (hs : SourceOK s) (h : ∀ o, s.offer ≠ .ended o) :
    ∃ e s', gateway.step s e = some s' ∧ remaining s' < remaining s := by
  cases hpc : s.offer with
  | ended o => exact absurd hpc (h o)
  | awaitAnswer => exact wait_progress hs hpc
  | startSession | awaitAttach | awaitMessage | awaitFailedDestroy | awaitTimeoutDestroy =>
      refine ⟨.offerResponse none, s.finish .exception, ?_, ?_⟩
      · simp [gateway, step, offerResponseStep, hpc, dataId, startEchoResult]
      · exact remaining_finish (by simp [hpc, Offer.remaining])
  | subscribe | sendAttach | sendMessage | failedDestroy | timeoutDestroy =>
      refine ⟨.offer, _, by simp only [gateway, step, offerStep, hpc]; rfl, ?_⟩
      exact remaining_lt_of_offer (by simp [hpc, Offer.remaining]) rfl (fun hc => hc)
        (fun hr => hr)
  | setCanceled =>
      cases hc : s.waitForAnswer.setCanceled with
      | none =>
          refine ⟨.offer, _, by simp only [gateway, step, offerStep, hpc, hc]; rfl, ?_⟩
          exact remaining_lt_of_offer (by simp [hpc, finish, Offer.remaining]) rfl (fun hc => hc)
            (by simp [finish])
      | some c =>
          refine ⟨.offer, _, by simp only [gateway, step, offerStep, hpc, hc]; rfl, ?_⟩
          exact remaining_lt_of_offer (by simp [hpc, finish, Offer.remaining]) rfl (fun _ => rfl)
            (by simp [finish])
  | register =>
      cases hc : s.cancelled with
      | true =>
          refine ⟨.offer, _, by simp only [gateway, step, offerStep, hpc, hc]; rfl, ?_⟩
          exact remaining_lt_of_offer (by simp [hpc, Offer.remaining]) rfl (fun hc => hc)
            (fun hr => hr)
      | false =>
          refine ⟨.offer, { s with offer := .awaitAnswer, registered := true }, ?_, ?_⟩
          · simp [gateway, step, offerStep, hpc, hc]
          · have hoffer : Offer.remaining s.offer = 6 := by rw [hpc]; rfl
            show 4 + Poll.remaining s.poll + (!s.cancelled).toNat + 1 < _
            unfold remaining
            omega
  | respond a =>
      refine ⟨.written false, s.finish .exception, by simp [gateway, step, writtenStep, hpc], ?_⟩
      exact remaining_finish (by simp [hpc, Offer.remaining])

/-- A loop that has started can go on. -/
theorem poll_progress (h : s.poll ≠ .notStarted ∧ s.poll ≠ .ended) :
    ∃ e s', gateway.step s e = some s' ∧ remaining s' < remaining s := by
  cases hpc : s.poll with
  | notStarted => exact absurd hpc h.1
  | ended => exact absurd hpc h.2
  | test =>
      cases hc : s.cancelled with
      | true =>
          refine ⟨.poll, s.leave .cancelled, by simp [gateway, step, pollStep, hpc, hc], ?_⟩
          exact remaining_lt_of_poll (by simp [hpc, leave, Poll.remaining]) rfl rfl rfl
      | false =>
          refine ⟨.poll, { s with poll := .sendPoll },
            by simp [gateway, step, pollStep, hpc, hc], ?_⟩
          exact remaining_lt_of_poll (by simp [hpc, Poll.remaining]) rfl rfl rfl
  | sendPoll | sendDestroy =>
      refine ⟨.poll, _, by simp only [gateway, step, pollStep, hpc]; rfl, ?_⟩
      exact remaining_lt_of_poll (by simp [hpc, Poll.remaining]) rfl rfl rfl
  | awaitEvent =>
      refine ⟨.pollFailed, s.leave .transportFailure, by simp [gateway, step, hpc], ?_⟩
      exact remaining_lt_of_poll (by simp [hpc, leave, Poll.remaining]) rfl rfl rfl
  | awaitDestroy =>
      refine ⟨.pollDestroyed, { s with poll := .ended }, by simp [gateway, step, hpc], ?_⟩
      exact remaining_lt_of_poll (by simp [hpc, Poll.remaining]) rfl rfl rfl

/-- A run that has not come to its end can take a step towards it. -/
theorem progress (es : List Event) (s : Session) (h : gateway.run es = some s)
    (hopen : bothEnded s = none) :
    ∃ e s', gateway.step s e = some s' ∧ remaining s' < remaining s := by
  by_cases hended : ∃ o, s.offer = .ended o
  · obtain ⟨o, hoffer⟩ := hended
    refine poll_progress ⟨fun hpoll => ?_, fun hpoll => ?_⟩
    · simp [bothEnded, hoffer, hpoll] at hopen
    · simp [bothEnded, hoffer, hpoll] at hopen
  · exact offer_progress (sourceOK_run es s h) fun o hoffer => hended ⟨o, hoffer⟩

/-- **Every run of a session can be run to the end of both activities.** -/
theorem run_ends : ∀ es s, gateway.run es = some s → ∃ x : Execution, es <+: x.events :=
  Machine.exists_execution remaining progress

/--
**When a Janus session is destroyed once and not used after that.**

Every interleaving can be run until both activities have ended.  A session that was
created has then received exactly one destroy request, with no attach, message or long
poll after it, just in those runs whose steps are all orderly: `StartEcho` reports no
failure, `OfferAsync` does not find its wait cancelled, and it sends its attach and
message requests while the loop has not destroyed the session.
-/
theorem lifecycle_iff (es : List Event) :
    (∀ s, gateway.run es = some s → ∃ x : Execution, es <+: x.events) ∧
      ∀ s outcome, gateway.run es = some s → bothEnded s = some outcome →
        (Proper s ↔ gateway.Each (fun s e _ => Orderly s e) es) := by
  refine ⟨run_ends es, fun s outcome hrun hended => ?_⟩
  rw [orderly_iff es s hrun]
  exact proper_iff (loopOK_run es s hrun) hended

/-- Janus attaches no plugin. -/
def attachRefused : List Event :=
  [.offerResponse (some (success 1)), .offer, .offer, .poll, .poll,
    .offerResponse (some ⟨.error, 0, some ⟨some "no such plugin"⟩, none⟩), .offer,
    .offerResponse (some (success 0)), .offer, .pollCancelled, .poll, .pollDestroyed]

/-- The session is then destroyed by both activities. -/
theorem attachRefused_destroyed_twice :
    ∃ (x : Execution) (s : Session), x.events = attachRefused ∧
      gateway.run x.events = some s ∧ s.sessionID = 1 ∧
      s.sent = [(.offerAsync, .attach), (.longPoll, .poll), (.offerAsync, .destroy),
        (.longPoll, .destroy)] ∧
      ¬ Proper s := by
  have hmap : (gateway.run attachRefused).map (fun s => (s.sessionID, s.sent)) =
      some (1, [(.offerAsync, .attach), (.longPoll, .poll), (.offerAsync, .destroy),
        (.longPoll, .destroy)]) := by decide
  obtain ⟨s, hrun, heq⟩ := Option.map_eq_some_iff.mp hmap
  obtain ⟨hid, hsent⟩ := Prod.mk.inj heq
  refine ⟨⟨attachRefused, .serverError
    "Failed to create Janus Echo Test Plugin instance.", by decide⟩, s, rfl, hrun, hid, hsent, ?_⟩
  intro hproper
  have honce := hproper (by simp [hid])
  rw [hsent, destroyedOnce_iff (by decide)] at honce
  exact absurd honce (by decide)

end WebrtcEchoes.Janus.Session
