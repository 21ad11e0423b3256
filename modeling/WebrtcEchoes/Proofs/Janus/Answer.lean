/-
The completion of the answer.

Two of the three parties that complete `waitForAnswer` insist, and so throw when another
was first: the handler of the loop, where the exception ends the loop and with it the
session, and `OfferAsync` after a failed `StartEcho`.  `findsPending_iff` says when that
happens in a run.  A run in which it does not, and in which no event with a jsep was
dropped before the one that is handed over, gives the client the first jsep.
-/
import WebrtcEchoes.Proofs.Janus.Gateway

namespace WebrtcEchoes.Janus.Session

variable {s s' : Session} {e : Event}

/-- The `sdp` of the first event with a jsep. -/
def FirstSdp (s : Session) (sdp : Option String) : Prop :=
  ∃ jsep, s.firstJsep = some jsep ∧ jsep.sdp = sdp

/-- What is expected of the completion of the answer. -/
structure Sound (s : Session) : Prop where
  once : s.completions ≤ 1
  noThrow : s.threw = false
  loopEnd : s.loopEnd ≠ some .handlerThrew
  first : ∀ sdp, s.answered = some sdp → FirstSdp s (some sdp)

/-- The calls that insist on completing the source find it pending. -/
def FindsPending (s : Session) (e : Event) (_ : Session) : Prop :=
  (∀ resp, e = .pollEvent resp → Handed s resp → s.waitForAnswer = .pending) ∧
    (e = .offer → s.offer = .setCanceled → s.waitForAnswer = .pending)

/-- The event that is handed over is the first one with a jsep. -/
def HandsFirst (s : Session) (e : Event) (_ : Session) : Prop :=
  ∀ resp, e = .pollEvent resp → Handed s resp → s.firstJsep = none

/-! ### Whether a completing call throws -/

theorem Move.threw_iff (hm : Move s e s') :
    s'.threw = true ↔ s.threw = true ∨ ¬ FindsPending s e s' := by
  cases hm with
  | setCanceled h hc => simp [FindsPending, hc, finish, complete]
  | setCanceledThrows h hc => simp [FindsPending, h, hc, finish]
  | @pollEvent resp h =>
      by_cases hh : Handed s resp
      · by_cases hc : s.waitForAnswer = .pending
        · obtain ⟨jsep, hj⟩ := Option.ne_none_iff_exists'.mp hh.2.2
          rw [handleEvent_of_pending hh hj hc]
          simp [FindsPending, hc, complete, receive]
        · rw [handleEvent_of_completed hh hc]
          simp [FindsPending, hh, hc, leave]
      · rw [handleEvent_of_not_handed hh]
        simp [FindsPending, hh, receive]
  | subscribe h | sendAttach h | sendMessage h | failedDestroy h | timeoutDestroy h
    | registerLate h | register h | answer h | noAnswer h | waitCancelled h =>
      simp [FindsPending, h, send, complete, finish]
  | _ => simp [FindsPending, send, complete, finish, leave]

/-- **No completing call throws just when none of those that insist comes late.** -/
theorem findsPending_iff (es : List Event) :
    gateway.Each FindsPending es ↔ gateway.Throughout (fun s => ¬ s.threw = true) es :=
  Machine.each_iff_throughout_not (by simp [gateway])
    (fun _ _ _ _ _ h => (step_move h).threw_iff) es

/-! ### The invariants of a run -/

/-- The source is completed at most once, whatever happens; the handler ends the loop only
with its exception; and the callback is registered while the wait is on. -/
structure SourceOK (s : Session) : Prop where
  completions : s.completions = s.waitForAnswer.count
  loopEnd : s.loopEnd = some .handlerThrew → s.threw = true
  waiting : s.offer = .awaitAnswer → s.waitForAnswer = .pending → s.registered = true

theorem sourceOK_init : SourceOK gateway.init := by
  refine ⟨rfl, ?_, ?_⟩ <;> simp [gateway]

/-- A call that completes the source, or leaves it as it is, is counted as such. -/
theorem SourceOK.complete (hs : SourceOK s) {c : Completion (Option String)}
    (h : s.waitForAnswer ≠ .pending → c = s.waitForAnswer) (hc : c ≠ .pending) :
    (s.complete c).completions = c.count := by
  show s.completions + (if s.waitForAnswer = c then 0 else 1) = c.count
  rw [hs.completions]
  by_cases hp : s.waitForAnswer = .pending
  · rw [hp, if_neg (Ne.symm hc)]
    cases c with
    | pending => exact absurd rfl hc
    | _ => rfl
  · rw [h hp, if_pos rfl]
    exact Nat.add_zero _

theorem SourceOK.tryComplete (hs : SourceOK s) :
    (s.complete s.waitForAnswer.trySetCanceled).completions =
      s.waitForAnswer.trySetCanceled.count :=
  hs.complete Completion.trySetCanceled_of_ne Completion.trySetCanceled_ne_pending

theorem sourceOK_step (hs : SourceOK s) (hm : Move s e s') : SourceOK s' := by
  cases hm with
  | setCanceled h hc =>
      refine ⟨hs.complete (fun hne => absurd hc hne) (by simp), hs.loopEnd, ?_⟩
      simp [finish]
  | setCanceledThrows => exact ⟨hs.completions, fun _ => rfl, by simp [finish]⟩
  | registerLate =>
      exact ⟨hs.tryComplete, hs.loopEnd, fun _ hp => absurd hp Completion.trySetCanceled_ne_pending⟩
  | register => exact ⟨hs.completions, hs.loopEnd, fun _ _ => rfl⟩
  | callback =>
      exact ⟨hs.tryComplete, hs.loopEnd, fun _ hp => absurd hp Completion.trySetCanceled_ne_pending⟩
  | testCancelled | pollFailed | pollCancelled =>
      exact ⟨hs.completions, by simp [leave], hs.waiting⟩
  | @pollEvent resp h =>
      by_cases hh : Handed s resp
      · by_cases hc : s.waitForAnswer = .pending
        · obtain ⟨jsep, hj⟩ := Option.ne_none_iff_exists'.mp hh.2.2
          rw [handleEvent_of_pending hh hj hc]
          refine ⟨hs.complete (fun hne => absurd hc hne) (by simp), hs.loopEnd, ?_⟩
          simp [complete, receive]
        · rw [handleEvent_of_completed hh hc]
          exact ⟨hs.completions, fun _ => rfl, hs.waiting⟩
      · rw [handleEvent_of_not_handed hh]
        exact ⟨hs.completions, hs.loopEnd, hs.waiting⟩
  | expire | test | sendPoll | sendDestroy | pollDestroyed =>
      exact ⟨hs.completions, hs.loopEnd, hs.waiting⟩
  | noAnswer | responseEnds | written | writeFailed =>
      exact ⟨hs.completions, hs.loopEnd, by simp [finish]⟩
  | _ => exact ⟨hs.completions, hs.loopEnd, by simp⟩

theorem sourceOK_run : ∀ es s, gateway.run es = some s → SourceOK s :=
  Machine.run_induction (P := fun _ s => SourceOK s) sourceOK_init
    fun _ _ _ _ _ hs h => sourceOK_step hs (step_move h)

/-- What the source, the answer under way and the answer sent have to do with the events. -/
structure FirstOK (s : Session) : Prop where
  source : ∀ sdp, s.waitForAnswer = .result sdp → FirstSdp s sdp
  respond : ∀ sdp, s.offer = .respond sdp → FirstSdp s (some sdp)
  answered : ∀ sdp, s.answered = some sdp → FirstSdp s (some sdp)

theorem firstOK_init : FirstOK gateway.init := by
  refine ⟨?_, ?_, ?_⟩ <;> simp [gateway]

/-- Whatever comes later, the first jsep stays the first. -/
theorem FirstSdp.receive {sdp : Option String} (h : FirstSdp s sdp) (resp : JanusResponse) :
    FirstSdp (s.receive resp) sdp := by
  obtain ⟨jsep, hj, hsdp⟩ := h
  exact ⟨jsep, by simp [Session.receive, hj], hsdp⟩

/-- A jsep that is the first is the first. -/
theorem firstSdp_receive {resp : JanusResponse} {jsep : Jsep} (hj : resp.jsep = some jsep)
    (hnone : s.firstJsep = none) : FirstSdp (s.receive resp) jsep.sdp :=
  ⟨jsep, by simp [receive, hnone, hj], rfl⟩

theorem FirstOK.receive (hs : FirstOK s) (resp : JanusResponse) : FirstOK (s.receive resp) :=
  ⟨fun sdp h => (hs.source sdp h).receive resp, fun sdp h => (hs.respond sdp h).receive resp,
    fun sdp h => (hs.answered sdp h).receive resp⟩

theorem firstOK_step (hs : FirstOK s) (hm : Move s e s') (hf : HandsFirst s e s') :
    FirstOK s' := by
  cases hm with
  | setCanceled h hc => exact ⟨by simp [finish, complete], by simp [finish], hs.answered⟩
  | registerLate =>
      refine ⟨fun sdp hr => hs.source sdp ?_, by simp, hs.answered⟩
      exact Completion.trySetCanceled_eq_result_iff.mp hr
  | callback =>
      refine ⟨fun sdp hr => hs.source sdp ?_, hs.respond, hs.answered⟩
      exact Completion.trySetCanceled_eq_result_iff.mp hr
  | answer h hr =>
      refine ⟨hs.source, fun sdp hsdp => ?_, hs.answered⟩
      obtain rfl := Offer.respond.inj hsdp
      exact hs.source _ hr
  | written h =>
      refine ⟨hs.source, by simp [finish], fun sdp hsdp => ?_⟩
      obtain rfl := Option.some.inj hsdp
      exact hs.respond _ h
  | @pollEvent resp h =>
      by_cases hh : Handed s resp
      · have hnone : s.firstJsep = none := hf resp rfl hh
        by_cases hc : s.waitForAnswer = .pending
        · obtain ⟨jsep, hj⟩ := Option.ne_none_iff_exists'.mp hh.2.2
          rw [handleEvent_of_pending hh hj hc]
          refine ⟨fun sdp hr => ?_, (hs.receive resp).respond, (hs.receive resp).answered⟩
          obtain rfl : jsep.sdp = sdp := by simpa [complete] using hr
          exact firstSdp_receive hj hnone
        · rw [handleEvent_of_completed hh hc]
          exact ⟨(hs.receive resp).source, (hs.receive resp).respond, (hs.receive resp).answered⟩
      · rw [handleEvent_of_not_handed hh]
        exact hs.receive resp
  | setCanceledThrows | noAnswer | responseEnds | writeFailed =>
      exact ⟨hs.source, by simp [finish], hs.answered⟩
  | testCancelled | test | sendPoll | sendDestroy | pollFailed | pollCancelled | pollDestroyed
    | expire => exact ⟨hs.source, hs.respond, hs.answered⟩
  | _ => exact ⟨hs.source, by simp, hs.answered⟩

/-! ### The answer of a session -/

/-- The condition on a step under which the answer is completed as expected. -/
def InOrder (s : Session) (e : Event) (s' : Session) : Prop :=
  FindsPending s e s' ∧ HandsFirst s e s'

theorem firstOK_run : ∀ es s, gateway.run es = some s → gateway.Each HandsFirst es → FirstOK s :=
  Machine.run_of_each (P := fun _ s => FirstOK s) firstOK_init
    fun _ _ _ _ _ hs h hf => firstOK_step hs (step_move h) hf

theorem throughout_sound {es : List Event} (h : gateway.Each InOrder es) :
    gateway.Throughout Sound es := by
  intro pre post s he hs
  have hsource := sourceOK_run pre s hs
  have hthrew : ¬ s.threw = true :=
    (findsPending_iff es).mp (h.mono fun _ _ _ hg => hg.1) pre post s he hs
  rw [he] at h
  have hfirst := firstOK_run pre s hs (h.of_append.mono fun _ _ _ hg => hg.2)
  refine ⟨?_, by simpa using hthrew, fun hend => hthrew (hsource.loopEnd hend), hfirst.answered⟩
  rw [hsource.completions]
  exact Completion.count_le_one

/--
**When the answer of a Janus session is completed once, with the first jsep.**

In any interleaving in which each event with a jsep that the loop hands over finds the
source pending and is the first such event, and `SetCanceled` finds the source pending,
the source is completed at most once, no completing call throws, the loop does not end
by an exception of its handler, and the answer sent is that of the first jsep.  And no
completing call throws in just those runs in which `SetResult` and `SetCanceled` find
the source pending.
-/
theorem completion_sound (es : List Event) :
    (gateway.Each InOrder es → gateway.Throughout Sound es) ∧
      (gateway.Each FindsPending es ↔ gateway.Throughout (fun s => ¬ s.threw = true) es) :=
  ⟨throughout_sound, findsPending_iff es⟩

/-- A response of Janus with an id. -/
def success (id : Nat) : JanusResponse := ⟨.success, id, none, none⟩

/-- An event of the echo plugin with a session description. -/
def jsepEvent (sdp : String) : JanusResponse := ⟨.event, 0, none, some ⟨some sdp⟩⟩

/-- The plugin sends its answer, and later a second description. -/
def twoJseps : List Event :=
  [.offerResponse (some (success 1)), .offer, .offer, .offerResponse (some (success 2)), .offer,
    .offerResponse (some ⟨.ack, 0, none, none⟩), .poll, .poll, .pollEvent (jsepEvent "first"),
    .offer, .offer, .written true, .poll, .poll, .pollEvent (jsepEvent "second"), .poll]

/-- The second one makes the handler throw, and the loop destroys the session. -/
theorem twoJseps_throws :
    (gateway.run twoJseps).map (fun s => (s.threw, s.loopEnd, s.sent.getLast?)) =
        some (true, some .handlerThrew, some (.longPoll, .destroy)) ∧
      ¬ gateway.Throughout Sound twoJseps := by
  refine ⟨by decide, fun h => ?_⟩
  have hmap : (gateway.run twoJseps).map Session.threw = some true := by decide
  obtain ⟨s, hs, hthrew⟩ := Option.map_eq_some_iff.mp hmap
  have hsound : Sound s := h twoJseps [] s (by simp) hs
  rw [hsound.noThrow] at hthrew
  simp at hthrew

end WebrtcEchoes.Janus.Session
