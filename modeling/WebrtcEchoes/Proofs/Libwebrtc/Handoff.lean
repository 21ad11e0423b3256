/-
What the two threads of the hand-off keep.

`Move` lists the steps once.  Three invariants hold after every run: the order of the
task, its operations and the observer (`OrderOK`); while the call has not returned, who
holds the mutex and what the flag says (`LockOK`); and what the signaling thread has left
to do when the call returns (`FrameOK`).  The last is the difference between the two
exits.  A call that saw the flag up re-acquired the mutex after the observer released
it, so the observer was through; a call that gave up left the observer ahead of its first
use of the mutex.
-/
import WebrtcEchoes.Libwebrtc.Handoff

namespace WebrtcEchoes.Libwebrtc.Handoff

/-! ### The steps -/

/-- The steps of the two threads. -/
inductive Move (offer : Bytes) (s : Handoff) : Event → Handoff → Prop
  | postTask {b : Bool} (h : s.http = .postTask) :
      Move offer s (.http b) { s with http := .lock, task := .setRemoteDescription }
  | lock {b : Bool} (h : s.http = .lock) (hm : s.mtx = none) :
      Move offer s (.http b) { s with http := .test, mtx := some .http }
  | testReady {b : Bool} (h : s.http = .test) (hr : s.isReady = true) :
      Move offer s (.http b) { s with http := .describe }
  | testWait {b : Bool} (h : s.http = .test) (hr : s.isReady = false) :
      Move offer s (.http b) { s with http := .waiting, mtx := none }
  | wake {b : Bool} (h : s.http = .waiting) (hm : s.mtx = none) (hr : s.isReady = true) :
      Move offer s (.http b) { s with http := .describe, mtx := some .http }
  | spurious (h : s.http = .waiting) (hm : s.mtx = none) (hr : s.isReady = false) :
      Move offer s (.http false) s
  | timeout (h : s.http = .waiting) (hm : s.mtx = none) (hr : s.isReady = false) :
      Move offer s (.http true) { s with http := .returned .timedOut }
  | describe {b : Bool} (h : s.http = .describe) :
      Move offer s (.http b) { s with
        http := .returned (.ready (s.pc.localDescription.map Description.toSdp))
        mtx := none }
  | issueRemote (h : s.task = .setRemoteDescription) :
      Move offer s .task { s.touch [.pc, .remoteOffer] with
        task := .setLocalDescription, setRemote := .pending }
  | issueLocal (h : s.task = .setLocalDescription) :
      Move offer s .task { s.touch [.pc] with task := .finished, setLocal := .pending }
  | remoteComplete {ok : Bool} (h : s.setRemote = .pending) :
      Move offer s (.remoteComplete ok)
        { s with setRemote := .done ok, pc := s.pc.setRemoteDescription offer ok }
  | localComplete {ok : Bool} {result : Option Bytes} (hr : s.setRemote = .done ok)
      (h : s.setLocal = .pending) :
      Move offer s (.localComplete result)
        { s with
          setLocal := .done result, pc := s.pc.setLocalDescription result, observer := .lock }
  | observerLock (h : s.observer = .lock) (hm : Http.isReturned s.http = false → s.mtx = none) :
      Move offer s .observer
        { s.touch [.mtx] with observer := .setReady, mtx := some .signaling }
  | setReady (h : s.observer = .setReady) :
      Move offer s .observer { s.touch [.isReady] with observer := .notify, isReady := true }
  | notify (h : s.observer = .notify) :
      Move offer s .observer { s.touch [.cv] with observer := .unlock }
  | unlock (h : s.observer = .unlock) :
      Move offer s .observer { s.touch [.mtx] with observer := .done, mtx := none }

variable {offer : Bytes} {s s' : Handoff} {e : Event}

theorem httpStep_move {b : Bool} (h : httpStep s b = some s') : Move offer s (.http b) s' := by
  unfold httpStep at h
  split at h
  · rename_i hpc
    exact Option.some.inj h ▸ .postTask hpc
  · rename_i hpc
    split at h
    · rename_i hm
      exact Option.some.inj h ▸ .lock hpc hm
    · simp at h
  · rename_i hpc
    split at h
    · rename_i hr
      exact Option.some.inj h ▸ .testReady hpc hr
    · rename_i hr
      exact Option.some.inj h ▸ .testWait hpc (by simpa using hr)
  · rename_i hpc
    split at h
    · simp at h
    · rename_i hm
      have hm' : s.mtx = none := by simpa using hm
      split at h
      · rename_i hr
        exact Option.some.inj h ▸ .wake hpc hm' hr
      · rename_i hr
        have hr' : s.isReady = false := by simpa using hr
        split at h
        · rename_i hb
          rw [hb, ← Option.some.inj h]
          exact .timeout hpc hm' hr'
        · rename_i hb
          rw [show b = false by simpa using hb, ← Option.some.inj h]
          exact .spurious hpc hm' hr'
  · rename_i hpc
    exact Option.some.inj h ▸ .describe hpc
  · simp at h

theorem taskStep_move (h : taskStep s = some s') : Move offer s .task s' := by
  unfold taskStep at h
  split at h
  · rename_i hpc
    exact Option.some.inj h ▸ .issueRemote hpc
  · rename_i hpc
    exact Option.some.inj h ▸ .issueLocal hpc
  · simp at h

theorem observerStep_move (h : observerStep s = some s') : Move offer s .observer s' := by
  unfold observerStep at h
  split at h
  · rename_i hpc
    split at h
    · simp at h
    · rename_i hm
      rw [← Option.some.inj h]
      refine .observerLock hpc fun hlive => ?_
      simpa [hlive] using hm
  · rename_i hpc
    exact Option.some.inj h ▸ .setReady hpc
  · rename_i hpc
    exact Option.some.inj h ▸ .notify hpc
  · rename_i hpc
    exact Option.some.inj h ▸ .unlock hpc
  · simp at h

/-- Every step is one of the listed ones. -/
theorem step_move (h : (machine offer).step s e = some s') : Move offer s e s' := by
  cases e with
  | http b => exact httpStep_move h
  | task => exact taskStep_move h
  | remoteComplete ok =>
      simp only [machine, step] at h
      split at h
      · rename_i hop
        exact Option.some.inj h ▸ .remoteComplete hop
      · simp at h
  | localComplete result =>
      simp only [machine, step] at h
      split at h
      · rename_i ok hr hop
        exact Option.some.inj h ▸ .localComplete hr hop
      · simp at h
  | observer => exact observerStep_move h

@[simp] theorem touch_http (s : Handoff) (l : List Local) : (s.touch l).http = s.http := rfl
@[simp] theorem touch_task (s : Handoff) (l : List Local) : (s.touch l).task = s.task := rfl
@[simp] theorem touch_setRemote (s : Handoff) (l : List Local) :
    (s.touch l).setRemote = s.setRemote := rfl
@[simp] theorem touch_setLocal (s : Handoff) (l : List Local) :
    (s.touch l).setLocal = s.setLocal := rfl
@[simp] theorem touch_observer (s : Handoff) (l : List Local) :
    (s.touch l).observer = s.observer := rfl
@[simp] theorem touch_mtx (s : Handoff) (l : List Local) : (s.touch l).mtx = s.mtx := rfl
@[simp] theorem touch_isReady (s : Handoff) (l : List Local) :
    (s.touch l).isReady = s.isReady := rfl
@[simp] theorem touch_pc (s : Handoff) (l : List Local) : (s.touch l).pc = s.pc := rfl

theorem touch_strays_of_live {l : List Local} (h : Http.isReturned s.http = false) :
    (s.touch l).strays = s.strays := by
  simp [touch, h]

theorem touch_strays_of_returned {l : List Local} (h : Http.isReturned s.http = true) :
    (s.touch l).strays = s.strays ++ l := by
  simp [touch, h]

/-! ### The order of the signaling thread -/

/-- The peer connection after the operations that have completed. -/
def completedPc (offer : Bytes) (s : Handoff) : PeerConnection :=
  let pc :=
    match s.setRemote with
    | .done ok => PeerConnection.fresh.setRemoteDescription offer ok
    | _ => .fresh
  match s.setLocal with
  | .done result => pc.setLocalDescription result
  | _ => pc

/-- The task issues its operations in turn, they complete in turn, then the observer is
called, and it raises the flag. -/
structure OrderOK (offer : Bytes) (s : Handoff) : Prop where
  posted : s.task = .notPosted ↔ s.http = .postTask
  remoteIssued : s.setRemote = .notIssued ↔ s.task = .notPosted ∨ s.task = .setRemoteDescription
  localIssued : s.setLocal = .notIssued ↔ s.task ≠ .finished
  remoteFirst : ∀ result, s.setLocal = .done result → ∃ ok, s.setRemote = .done ok
  called : s.observer ≠ .notCalled ↔ ∃ result, s.setLocal = .done result
  raised : s.isReady = true ↔
    s.observer = .notify ∨ s.observer = .unlock ∨ s.observer = .done
  pc : s.pc = completedPc offer s

theorem orderOK_init : OrderOK offer (machine offer).init := by
  refine ⟨?_, ?_, ?_, ?_, ?_, ?_, rfl⟩ <;> simp [machine]

theorem OrderOK.finished (hs : OrderOK offer s) (h : s.setLocal ≠ .notIssued) :
    s.task = .finished := by
  by_contra htask
  exact h (hs.localIssued.mpr htask)

theorem OrderOK.notCalled (hs : OrderOK offer s) (h : ∀ result, s.setLocal ≠ .done result) :
    s.observer = .notCalled := by
  by_contra hcalled
  obtain ⟨result, hresult⟩ := hs.called.mp hcalled
  exact h result hresult

/-- A step of the HTTP thread after `PostTask` leaves the signaling thread alone. -/
theorem OrderOK.of_http (hs : OrderOK offer s) {pc : Http} {mtx : Option Thread}
    (hold : s.http ≠ .postTask) (hnew : pc ≠ .postTask) :
    OrderOK offer { s with http := pc, mtx := mtx } := by
  refine ⟨?_, hs.remoteIssued, hs.localIssued, hs.remoteFirst, hs.called, hs.raised, hs.pc⟩
  rw [hs.posted]
  exact iff_of_false hold hnew

/-- A step inside the observer leaves the task and its operations alone. -/
theorem OrderOK.of_observer (hs : OrderOK offer s) {o : Observer} {mtx : Option Thread}
    {isReady : Bool} {strays : List Local} (hold : s.observer ≠ .notCalled) (hnew : o ≠ .notCalled)
    (hraised : isReady = true ↔ o = .notify ∨ o = .unlock ∨ o = .done) :
    OrderOK offer
      { s with observer := o, mtx := mtx, isReady := isReady, strays := strays } := by
  refine ⟨hs.posted, hs.remoteIssued, hs.localIssued, hs.remoteFirst, ?_, hraised, hs.pc⟩
  exact iff_of_true hnew (hs.called.mp hold)

theorem orderOK_step (hs : OrderOK offer s) (hm : Move offer s e s') : OrderOK offer s' := by
  cases hm with
  | postTask h =>
      have htask : s.task = .notPosted := hs.posted.mpr h
      refine ⟨by simp, ?_, ?_, hs.remoteFirst, hs.called, hs.raised, hs.pc⟩
      · simp [hs.remoteIssued, htask]
      · simp [hs.localIssued, htask]
  | lock h | testWait h | wake h | describe h => exact hs.of_http (by simp [h]) (by simp)
  | testReady h | timeout h => exact hs.of_http (by simp [h]) (by simp)
  | spurious => exact hs
  | issueRemote h =>
      have hremote : s.setRemote = .notIssued := hs.remoteIssued.mpr (Or.inr h)
      have hlocal : s.setLocal = .notIssued := hs.localIssued.mpr (by simp [h])
      refine ⟨?_, by simp, by simp [hlocal], by simp [hlocal], hs.called, hs.raised, ?_⟩
      · simp [← hs.posted, h]
      · show s.pc = _
        rw [hs.pc]
        simp [completedPc, hremote, hlocal]
  | issueLocal h =>
      have hlocal : s.setLocal = .notIssued := hs.localIssued.mpr (by simp [h])
      have hobs : s.observer = .notCalled := hs.notCalled (by simp [hlocal])
      refine ⟨?_, ?_, by simp, by simp, by simp [hobs], hs.raised, ?_⟩
      · simp [← hs.posted, h]
      · simp [hs.remoteIssued, h]
      · show s.pc = _
        rw [hs.pc]
        simp [completedPc, hlocal]
  | remoteComplete h =>
      have hlocal : ∀ result, s.setLocal ≠ .done result := by
        intro result hresult
        obtain ⟨ok, hok⟩ := hs.remoteFirst result hresult
        simp [h] at hok
      refine ⟨hs.posted, ?_, hs.localIssued, fun _ _ => ⟨_, rfl⟩, hs.called, hs.raised, ?_⟩
      · simp [← hs.remoteIssued, h]
      · show s.pc.setRemoteDescription offer _ = _
        rw [hs.pc]
        cases hop : s.setLocal with
        | done result => exact absurd hop (hlocal result)
        | _ => simp [completedPc, h, hop]
  | localComplete hr h =>
      have hobs : s.observer = .notCalled := hs.notCalled (by simp [h])
      have htask : s.task = .finished := hs.finished (by simp [h])
      refine ⟨hs.posted, hs.remoteIssued, by simp [htask], fun _ _ => ⟨_, hr⟩, by simp, ?_, ?_⟩
      · simp [hs.raised, hobs]
      · show s.pc.setLocalDescription _ = _
        rw [hs.pc]
        simp [completedPc, hr, h]
  | observerLock h => exact hs.of_observer (by simp [h]) (by simp) (by simp [hs.raised, h])
  | setReady h => exact hs.of_observer (by simp [h]) (by simp) (by simp)
  | notify h => exact hs.of_observer (by simp [h]) (by simp) (by simp [hs.raised, h])
  | unlock h => exact hs.of_observer (by simp [h]) (by simp) (by simp [hs.raised, h])

theorem orderOK_run : ∀ es s, (machine offer).run es = some s → OrderOK offer s :=
  Machine.run_induction (P := fun _ s => OrderOK offer s) orderOK_init
    fun _ _ _ _ _ hs h => orderOK_step hs (step_move h)

/-! ### The mutex and the flag -/

/-- The observer is between its lock and its unlock. -/
def Inside (o : Observer) : Prop := o = .setReady ∨ o = .notify ∨ o = .unlock

/-- Who holds the mutex while the call is running, and what the flag says. -/
structure LockOK (s : Handoff) : Prop where
  http : s.mtx = some .http ↔ s.http = .test ∨ s.http = .describe
  signaling : s.mtx = some .signaling ↔ Inside s.observer
  describe : s.http = .describe → s.isReady = true

theorem LockOK.not_inside (hs : LockOK s) (h : s.mtx ≠ some .signaling) : ¬ Inside s.observer :=
  fun hin => h (hs.signaling.mpr hin)

theorem LockOK.not_locked (hs : LockOK s) (h : s.mtx ≠ some .http) :
    ¬ (s.http = .test ∨ s.http = .describe) :=
  fun hpc => h (hs.http.mpr hpc)

theorem lockOK_step (ho : OrderOK offer s) (hs : LockOK s)
    (hlive : Http.isReturned s'.http = false) (hm : Move offer s e s') : LockOK s' := by
  cases hm with
  | postTask h =>
      refine ⟨?_, hs.signaling, by simp⟩
      rw [hs.http]
      simp [h]
  | lock h hmtx =>
      have hout : ¬ Inside s.observer := hs.not_inside (by simp [hmtx])
      exact ⟨by simp, iff_of_false (by simp) hout, by simp⟩
  | testReady h hr =>
      refine ⟨?_, hs.signaling, fun _ => hr⟩
      rw [hs.http]
      simp [h]
  | testWait h hr =>
      have hmtx : s.mtx = some .http := hs.http.mpr (Or.inl h)
      have hout : ¬ Inside s.observer := hs.not_inside (by simp [hmtx])
      exact ⟨by simp, iff_of_false (by simp) hout, by simp⟩
  | wake h hmtx hr =>
      have hout : ¬ Inside s.observer := hs.not_inside (by simp [hmtx])
      exact ⟨by simp, iff_of_false (by simp) hout, fun _ => hr⟩
  | spurious => exact hs
  | timeout | describe => simp [Http.isReturned] at hlive
  | issueRemote | issueLocal | remoteComplete => exact ⟨hs.http, hs.signaling, hs.describe⟩
  | localComplete hr h =>
      have hobs : s.observer = .notCalled := ho.notCalled (by simp [h])
      refine ⟨hs.http, ?_, hs.describe⟩
      show s.mtx = some .signaling ↔ Inside .lock
      rw [hs.signaling, hobs]
      simp [Inside]
  | observerLock h hfree =>
      have hmtx : s.mtx = none := hfree hlive
      have hpc := hs.not_locked (by simp [hmtx])
      exact ⟨iff_of_false (by simp) hpc, by simp [Inside], hs.describe⟩
  | setReady h =>
      refine ⟨hs.http, ?_, fun _ => rfl⟩
      show s.mtx = some .signaling ↔ Inside .notify
      rw [hs.signaling, h]
      simp [Inside]
  | notify h =>
      refine ⟨hs.http, ?_, hs.describe⟩
      show s.mtx = some .signaling ↔ Inside .unlock
      rw [hs.signaling, h]
      simp [Inside]
  | unlock h =>
      have hmtx : s.mtx = some .signaling := hs.signaling.mpr (Or.inr (Or.inr h))
      have hpc := hs.not_locked (by simp [hmtx])
      exact ⟨iff_of_false (by simp) hpc, by simp [Inside], hs.describe⟩

/-! ### The frame of the call -/

/-- While the call has not returned, whatever the signaling thread uses is there. -/
theorem Move.strays_eq (hm : Move offer s e s') (h : Http.isReturned s.http = false) :
    s'.strays = s.strays := by
  cases hm with
  | issueRemote | issueLocal | observerLock | setReady | notify | unlock =>
      exact touch_strays_of_live h
  | _ => rfl

/-- A call that has returned stays so, with the same outcome. -/
theorem Move.http_eq (hm : Move offer s e s') (h : Http.isReturned s.http = true) :
    s'.http = s.http := by
  cases hm with
  | postTask hpc | lock hpc | testReady hpc | testWait hpc | wake hpc | timeout hpc
    | describe hpc => simp [hpc, Http.isReturned] at h
  | _ => rfl

/-- After the call and the observer, nothing is left to move. -/
theorem Move.false_of_done (hm : Move offer s e s') (ho : OrderOK offer s)
    (hret : Http.isReturned s.http = true) (hdone : s.observer = .done) : False := by
  obtain ⟨result, hlocal⟩ := ho.called.mp (by simp [hdone])
  obtain ⟨ok, hremote⟩ := ho.remoteFirst result hlocal
  have htask : s.task = .finished := ho.finished (by simp [hlocal])
  cases hm with
  | postTask hpc | lock hpc | testReady hpc | testWait hpc | wake hpc | spurious hpc
    | timeout hpc | describe hpc => simp [hpc, Http.isReturned] at hret
  | issueRemote h | issueLocal h => simp [htask] at h
  | remoteComplete h => simp [hremote] at h
  | localComplete _ h => simp [hlocal] at h
  | observerLock h | setReady h | notify h | unlock h => simp [hdone] at h

/-- What the signaling thread may still do when the call returns, by the exit it took. -/
structure FrameOK (s : Handoff) : Prop where
  live : Http.isReturned s.http = false → LockOK s ∧ s.strays = []
  ready : ∀ d, s.http = .returned (.ready d) →
    s.observer = .done ∧ s.strays = [] ∧ d = s.pc.localDescription.map Description.toSdp
  timedOut : s.http = .returned .timedOut →
    s.observer = .notCalled ∨ s.observer = .lock ∨ s.strays ≠ []

theorem frameOK_init : FrameOK (machine offer).init := by
  refine ⟨fun _ => ⟨⟨?_, ?_, ?_⟩, rfl⟩, ?_, ?_⟩ <;> simp [machine, Inside]

/-- A step with which a running call goes on. -/
theorem frameOK_of_live (ho : OrderOK offer s) (hs : FrameOK s) (hm : Move offer s e s')
    (hlive : Http.isReturned s.http = false) (hlive' : Http.isReturned s'.http = false) :
    FrameOK s' := by
  obtain ⟨hlock, hstrays⟩ := hs.live hlive
  refine ⟨fun _ => ⟨lockOK_step ho hlock hlive' hm, (hm.strays_eq hlive).trans hstrays⟩, ?_, ?_⟩
  · intro d hd
    simp [hd, Http.isReturned] at hlive'
  · intro ht
    simp [ht, Http.isReturned] at hlive'

/-- A step with which a running call returns: the observer is through with the locals, or
has not come to them. -/
theorem frameOK_of_exit (ho : OrderOK offer s) (hs : FrameOK s) (hm : Move offer s e s')
    (hlive : Http.isReturned s.http = false) (hret : Http.isReturned s'.http = true) :
    FrameOK s' := by
  obtain ⟨hlock, hstrays⟩ := hs.live hlive
  cases hm with
  | timeout h hmtx hr =>
      refine ⟨by simp [Http.isReturned], by simp, fun _ => ?_⟩
      have hout : ¬ Inside s.observer := hlock.not_inside (by simp [hmtx])
      have hdown := mt ho.raised.mpr (by simp [hr])
      unfold Inside at hout
      cases hobs : s.observer <;> simp [hobs] at hout hdown ⊢
  | describe h =>
      refine ⟨by simp [Http.isReturned], ?_, by simp⟩
      intro d hd
      have hmtx : s.mtx = some .http := hlock.http.mpr (Or.inr h)
      have hout : ¬ Inside s.observer := hlock.not_inside (by simp [hmtx])
      have hup := ho.raised.mp (hlock.describe h)
      have hdone : s.observer = .done := by
        unfold Inside at hout
        tauto
      exact ⟨hdone, hstrays, by simpa using hd.symm⟩
  | postTask | lock | testReady | testWait | wake => simp [Http.isReturned] at hret
  | _ => exact absurd hret (by simp [hlive])

/-- A step of the signaling thread after the call has returned. -/
theorem frameOK_of_returned (ho : OrderOK offer s) (hs : FrameOK s) (hm : Move offer s e s')
    (hret : Http.isReturned s.http = true) : FrameOK s' := by
  have hhttp : s'.http = s.http := hm.http_eq hret
  refine ⟨by simp [hhttp, hret], ?_, ?_⟩
  · intro d hd
    have hdone := (hs.ready d (hhttp ▸ hd)).1
    exact (hm.false_of_done ho hret hdone).elim
  · intro ht
    have hold := hs.timedOut (hhttp ▸ ht)
    cases hm with
    | localComplete => exact Or.inr (Or.inl rfl)
    | remoteComplete => exact hold
    | spurious => exact hold
    | issueRemote | issueLocal | observerLock | setReady | notify | unlock =>
        refine Or.inr (Or.inr ?_)
        show (s.touch _).strays ≠ []
        rw [touch_strays_of_returned hret]
        simp
    | _ => simp_all [Http.isReturned]

theorem frameOK_step (ho : OrderOK offer s) (hs : FrameOK s) (hm : Move offer s e s') :
    FrameOK s' := by
  cases hlive : Http.isReturned s.http with
  | true => exact frameOK_of_returned ho hs hm hlive
  | false =>
      cases hlive' : Http.isReturned s'.http with
      | true => exact frameOK_of_exit ho hs hm hlive hlive'
      | false => exact frameOK_of_live ho hs hm hlive hlive'

theorem frameOK_run : ∀ es s, (machine offer).run es = some s → FrameOK s :=
  Machine.run_induction (P := fun _ s => FrameOK s) frameOK_init
    fun es s _ _ hrun hs h => frameOK_step (orderOK_run es s hrun) hs (step_move h)

end WebrtcEchoes.Libwebrtc.Handoff
