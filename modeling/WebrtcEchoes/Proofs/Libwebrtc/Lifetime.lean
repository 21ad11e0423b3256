/-
Whether the locals of `CreatePeerConnection` outlive their uses.

They do in every run in which the wait is not given up.  A call that gives up while the
flag is down leaves the observer ahead of its lock, and the observer is called in the
end, so every such run goes on to a use of a local that is gone.  `lifetime_iff` states
both over the runs that have settled, and that every run can be run on to one of those.
-/
import WebrtcEchoes.Proofs.Libwebrtc.Handoff
import WebrtcEchoes.Proofs.Libwebrtc.PcFactory

namespace WebrtcEchoes.Libwebrtc.Handoff

variable {offer : Bytes} {s s' : Handoff} {e : Event}

/-- The signaling thread has used no local of a call that has returned. -/
def Safe (s : Handoff) : Prop := s.strays = []

/-- The HTTP thread wakes after the three seconds with the flag still down. -/
def TimesOut (s : Handoff) (e : Event) : Prop :=
  s.http = .waiting ∧ s.mtx = none ∧ s.isReady = false ∧ e = .http true

/-- The condition on a step under which the locals outlive their uses. -/
def InTime (s : Handoff) (e : Event) (_ : Handoff) : Prop := ¬ TimesOut s e

/-- A run in which the call has returned and the observer is through. -/
abbrev Execution (offer : Bytes) := (machine offer).Execution settled

/-! ### The exit a run took -/

theorem Move.timedOut_iff (hm : Move offer s e s') :
    s'.http = .returned .timedOut ↔ s.http = .returned .timedOut ∨ TimesOut s e := by
  cases hm with
  | timeout h hmtx hr => exact iff_of_true rfl (Or.inr ⟨h, hmtx, hr, rfl⟩)
  | postTask h | lock h | testReady h | testWait h | describe h =>
      simp [h, TimesOut]
  | wake h hmtx hr => simp [h, hr, TimesOut]
  | spurious h => simp [h, TimesOut]
  | _ => simp [TimesOut]

/-- The call gave up just in the runs with a step that times out. -/
theorem each_inTime_iff : ∀ es s, (machine offer).run es = some s →
    ((machine offer).Each InTime es ↔ s.http ≠ .returned .timedOut) := by
  refine Machine.each_iff_not (by simp [machine]) ?_
  intro es s e s' _ h
  rw [(step_move h).timedOut_iff]
  unfold InTime
  rw [not_not]

/-! ### Safety -/

/-- A state is safe unless the call gave up. -/
theorem FrameOK.safe (hs : FrameOK s) (h : s.http ≠ .returned .timedOut) : Safe s := by
  cases hlive : Http.isReturned s.http with
  | false => exact (hs.live hlive).2
  | true =>
      cases hpc : s.http with
      | returned wait =>
          cases wait with
          | timedOut => exact absurd hpc h
          | ready d => exact (hs.ready d hpc).2.1
      | _ => simp [hpc, Http.isReturned] at hlive

/-- **A run in which no wait is given up uses no local too late.** -/
theorem throughout_safe {es : List Event} (h : (machine offer).Each InTime es) :
    (machine offer).Throughout Safe es := by
  intro pre post s hes hs
  rw [hes] at h
  exact (frameOK_run pre s hs).safe ((each_inTime_iff pre s hs).mp h.of_append)

theorem settled_eq_some {wait : Wait} (h : settled s = some wait) :
    s.http = .returned wait ∧ s.observer = .done := by
  unfold settled at h
  split at h
  · rename_i hpc hobs
    exact ⟨Option.some.inj h ▸ hpc, hobs⟩
  · simp at h

/-- **A run that has settled after the wait was given up has used a local too late.** -/
theorem each_inTime_of_safe (x : Execution offer)
    (h : (machine offer).Throughout Safe x.events) : (machine offer).Each InTime x.events := by
  obtain ⟨s, hrun, hsettled⟩ := x.final
  obtain ⟨-, hdone⟩ := settled_eq_some hsettled
  have hsafe : Safe s := h x.events [] s (by simp) hrun
  refine (each_inTime_iff x.events s hrun).mpr fun hret => ?_
  rcases (frameOK_run x.events s hrun).timedOut hret with hobs | hobs | hstrays
  · simp [hobs] at hdone
  · simp [hobs] at hdone
  · exact hstrays hsafe

/-! ### Every run settles -/

/-- How far the HTTP thread is from its return. -/
def Http.remaining : Http → Nat
  | .postTask => 5
  | .lock => 4
  | .test => 3
  | .waiting => 2
  | .describe => 1
  | .returned _ => 0

def Task.remaining : Task → Nat
  | .notPosted => 3
  | .setRemoteDescription => 2
  | .setLocalDescription => 1
  | .finished => 0

def Operation.remaining {α : Type} : Operation α → Nat
  | .notIssued => 2
  | .pending => 1
  | .done _ => 0

def Observer.remaining : Observer → Nat
  | .notCalled => 5
  | .lock => 4
  | .setReady => 3
  | .notify => 2
  | .unlock => 1
  | .done => 0

/-- What is left to happen, on both threads. -/
def remaining (s : Handoff) : Nat :=
  Http.remaining s.http + Task.remaining s.task + Operation.remaining s.setRemote +
    Operation.remaining s.setLocal + Observer.remaining s.observer

/-- The mutex is free for a running call that is not in the part it guards. -/
theorem LockOK.free (hs : LockOK s) (hout : ¬ Inside s.observer)
    (hpc : ¬ (s.http = .test ∨ s.http = .describe)) : s.mtx = none := by
  cases hm : s.mtx with
  | none => rfl
  | some t =>
      cases t with
      | http => exact absurd (hs.http.mp hm) hpc
      | signaling => exact absurd (hs.signaling.mp hm) hout

/-- A call that has not returned can go on while the observer is not inside. -/
theorem http_progress (ho : OrderOK offer s) (hlock : LockOK s)
    (hlive : Http.isReturned s.http = false) (hout : ¬ Inside s.observer) :
    ∃ e s', (machine offer).step s e = some s' ∧ remaining s' < remaining s := by
  refine ⟨.http true, ?_⟩
  show ∃ s', httpStep s true = some s' ∧ _
  cases hpc : s.http with
  | postTask =>
      have htask : s.task = .notPosted := ho.posted.mpr hpc
      simp [httpStep, hpc, htask, remaining, Http.remaining, Task.remaining]
  | lock =>
      have hm : s.mtx = none := hlock.free hout (by simp [hpc])
      simp [httpStep, hpc, hm, remaining, Http.remaining]
  | test =>
      cases hr : s.isReady <;> simp [httpStep, hpc, hr, remaining, Http.remaining]
  | waiting =>
      have hm : s.mtx = none := hlock.free hout (by simp [hpc])
      cases hr : s.isReady <;> simp [httpStep, hpc, hm, hr, remaining, Http.remaining]
  | describe => simp [httpStep, hpc, remaining, Http.remaining]
  | returned wait => simp [hpc, Http.isReturned] at hlive

/-- The observer can go on, unless it waits for a mutex of a running call. -/
theorem observer_progress (h : s.observer ≠ .notCalled ∧ s.observer ≠ .done)
    (hlock : s.observer = .lock → Http.isReturned s.http = true) :
    ∃ e s', (machine offer).step s e = some s' ∧ remaining s' < remaining s := by
  refine ⟨.observer, ?_⟩
  show ∃ s', observerStep s = some s' ∧ _
  cases hobs : s.observer with
  | notCalled => exact absurd hobs h.1
  | done => exact absurd hobs h.2
  | lock =>
      simp [observerStep, hobs, hlock hobs, remaining, Observer.remaining]
  | setReady | notify | unlock => simp [observerStep, hobs, remaining, Observer.remaining]

/-- The task or one of its operations can go on until the observer has been called. -/
theorem signaling_progress (ho : OrderOK offer s) (htask : s.task ≠ .notPosted)
    (hobs : s.observer = .notCalled) :
    ∃ e s', (machine offer).step s e = some s' ∧ remaining s' < remaining s := by
  cases hpc : s.task with
  | notPosted => exact absurd hpc htask
  | setRemoteDescription =>
      have hop : s.setRemote = .notIssued := ho.remoteIssued.mpr (Or.inr hpc)
      refine ⟨.task, _, by simp only [machine, step, taskStep, hpc]; rfl, ?_⟩
      have ht : Task.remaining s.task = 2 := by rw [hpc]; rfl
      have hr : Operation.remaining s.setRemote = 2 := by rw [hop]; rfl
      show Http.remaining s.http + 1 + 1 + Operation.remaining s.setLocal +
        Observer.remaining s.observer < _
      unfold remaining
      omega
  | setLocalDescription =>
      have hop : s.setLocal = .notIssued := ho.localIssued.mpr (by simp [hpc])
      refine ⟨.task, _, by simp only [machine, step, taskStep, hpc]; rfl, ?_⟩
      have ht : Task.remaining s.task = 1 := by rw [hpc]; rfl
      have hl : Operation.remaining s.setLocal = 2 := by rw [hop]; rfl
      show Http.remaining s.http + 0 + Operation.remaining s.setRemote + 1 +
        Observer.remaining s.observer < _
      unfold remaining
      omega
  | finished =>
      cases hremote : s.setRemote with
      | notIssued =>
          have := ho.remoteIssued.mp hremote
          simp [hpc] at this
      | pending =>
          refine ⟨.remoteComplete true, _, by simp only [machine, step, hremote]; rfl, ?_⟩
          have hr : Operation.remaining s.setRemote = 1 := by rw [hremote]; rfl
          show Http.remaining s.http + Task.remaining s.task + 0 +
            Operation.remaining s.setLocal + Observer.remaining s.observer < _
          unfold remaining
          omega
      | done ok =>
          cases hlocal : s.setLocal with
          | notIssued => exact absurd hpc (ho.localIssued.mp hlocal)
          | done result => exact absurd hobs (ho.called.mpr ⟨result, hlocal⟩)
          | pending =>
              refine ⟨.localComplete none, _,
                by simp only [machine, step, hremote, hlocal]; rfl, ?_⟩
              have hl : Operation.remaining s.setLocal = 1 := by rw [hlocal]; rfl
              have hb : Observer.remaining s.observer = 5 := by rw [hobs]; rfl
              have hr : Operation.remaining s.setRemote = 0 := by rw [hremote]; rfl
              show Http.remaining s.http + Task.remaining s.task + 0 + 0 + 4 < _
              unfold remaining
              omega

/-- A run that has not settled can take a step that leaves less to happen. -/
theorem progress (es : List Event) (s : Handoff) (h : (machine offer).run es = some s)
    (hopen : settled s = none) :
    ∃ e s', (machine offer).step s e = some s' ∧ remaining s' < remaining s := by
  have ho := orderOK_run es s h
  have hf := frameOK_run es s h
  by_cases hin : Inside s.observer
  · refine observer_progress ?_ ?_
    · unfold Inside at hin
      rcases hin with hobs | hobs | hobs <;> simp [hobs]
    · intro hobs
      simp [hobs, Inside] at hin
  cases hlive : Http.isReturned s.http with
  | false => exact http_progress ho (hf.live hlive).1 hlive hin
  | true =>
      cases hobs : s.observer with
      | notCalled =>
          refine signaling_progress ho (fun htask => ?_) hobs
          have hpc := ho.posted.mp htask
          simp [hpc, Http.isReturned] at hlive
      | done =>
          cases hpc : s.http with
          | returned wait => simp [settled, hpc, hobs] at hopen
          | _ => simp [hpc, Http.isReturned] at hlive
      | _ => exact observer_progress (by simp [hobs]) (fun _ => hlive)

/-- **Every run of the two threads can be run on until it has settled.** -/
theorem run_settles : ∀ es s, (machine offer).run es = some s →
    ∃ x : Execution offer, es <+: x.events :=
  Machine.exists_execution remaining progress

/--
**When the locals of the call outlive their uses.**

Every run in which no wait is given up is safe throughout.  Every run can be run on until
the call has returned and the observer is through, and such a run is safe throughout
only if no wait was given up in it.
-/
theorem lifetime_iff (offer : Bytes) :
    (∀ es, (machine offer).Each InTime es → (machine offer).Throughout Safe es) ∧
      (∀ es s, (machine offer).run es = some s → ∃ x : Execution offer, es <+: x.events) ∧
      ∀ x : Execution offer,
        (machine offer).Throughout Safe x.events ↔ (machine offer).Each InTime x.events :=
  ⟨fun _ => throughout_safe, run_settles, fun x => ⟨each_inTime_of_safe x, throughout_safe⟩⟩

/-- The signaling thread is busy until the three seconds are over. -/
def slowSignaling : List Event := [.http false, .http false, .http false, .http true, .task]

/-- Its task then reads the peer connection and the offer of a call that has returned. -/
theorem slowSignaling_unsafe :
    ((machine (bytesOf sdpText)).run slowSignaling).map (fun s => (s.http, s.strays)) =
        some (.returned .timedOut, [.pc, .remoteOffer]) ∧
      ¬ (machine (bytesOf sdpText)).Throughout Safe slowSignaling := by
  refine ⟨by decide, fun h => ?_⟩
  have hmap : ((machine (bytesOf sdpText)).run slowSignaling).map Handoff.strays =
      some [.pc, .remoteOffer] := by decide
  obtain ⟨s, hs, hstrays⟩ := Option.map_eq_some_iff.mp hmap
  have hsafe : s.strays = [] := h slowSignaling [] s (by simp) hs
  rw [hstrays] at hsafe
  simp at hsafe

end WebrtcEchoes.Libwebrtc.Handoff
