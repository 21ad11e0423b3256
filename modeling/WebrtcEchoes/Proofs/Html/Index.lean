/-
Which connection the browser client posts, and which one gets the answer.

`isOfferSent` is reset for every new connection and set by its first post, so no connection
is posted twice.  Whose event it is that posts is another matter: a timer of an earlier
start posts whatever connection is there by then, and a timer that runs on after Close
posts a closed one.  In the same way an answer is for the connection that is there when it
arrives, and is set on it if that one takes an answer, at once or behind its local
description.
-/
import WebrtcEchoes.Html.Index

namespace WebrtcEchoes.Html.Index

variable {s s' : State} {e : Event}

@[simp] theorem modify_pc (i : Nat) (f : Peer → Peer) : (s.modify i f).pc = s.pc := rfl

@[simp] theorem modify_peers (i j : Nat) (f : Peer → Peer) :
    (s.modify i f).peers j = if j = i then f (s.peers i) else s.peers j := by
  simp [State.modify, Function.update_apply]

/-! ### The bookkeeping of the page -/

/-- The numbers that the page has handed out stand for connections that are there. -/
structure Numbers (s : State) : Prop where
  posts : ∀ post ∈ s.posts, post.1 < s.created
  /-- A timer is set behind the local description. -/
  timers : ∀ i ∈ s.timers, i < s.created ∧ (s.peers i).localDescription = true
  createOffer : ∀ own, .createOffer own ∈ s.starts → own < s.created
  setLocalDescription : ∀ own target, .setLocalDescription own target ∈ s.starts → own < s.created

/-- What posts the last connection has not happened to it while it is not posted. -/
structure Unsent (s : State) : Prop where
  ready : s.isOfferSent = false → ¬ (s.peers s.pc).ready
  posts : s.isOfferSent = false → s.pc ∉ s.posts.map Prod.fst

theorem numbers_init : Numbers page.init := by
  refine ⟨?_, ?_, ?_, ?_⟩ <;> simp [page]

theorem unsent_init : Unsent page.init := by
  refine ⟨?_, ?_⟩ <;> simp [page, Peer.ready, Peer.fresh]

/-- A change to a connection that leaves a description it has. -/
theorem Numbers.modify {i : Nat} {f : Peer → Peer} (hs : Numbers s)
    (hf : (s.peers i).localDescription = true → (f (s.peers i)).localDescription = true) :
    Numbers (s.modify i f) := by
  refine ⟨hs.posts, ?_, hs.createOffer, hs.setLocalDescription⟩
  intro j hj
  obtain ⟨hlt, hd⟩ := hs.timers j hj
  refine ⟨hlt, ?_⟩
  simp only [modify_peers]
  split
  · rename_i hji
    exact hf (hji ▸ hd)
  · exact hd

/-- A change that does not make the last connection ready. -/
theorem Unsent.modify {i : Nat} {f : Peer → Peer} (hs : Unsent s)
    (hf : i = s.pc → (f (s.peers i)).ready → (s.peers i).ready) : Unsent (s.modify i f) := by
  refine ⟨?_, hs.posts⟩
  intro hsent
  simp only [modify_pc, modify_peers]
  split
  · rename_i hi
    intro hr
    exact hs.ready hsent (hi ▸ hf hi.symm hr)
  · exact hs.ready hsent

theorem Numbers.setAnswer (hs : Numbers s) (j i : Nat) : Numbers (setAnswer s j i) := by
  unfold Index.setAnswer
  split
  · have hok := hs.modify (i := j) (f := fun p => { p with remoteDescription := true }) id
    exact ⟨hok.posts, hok.timers, hok.createOffer, hok.setLocalDescription⟩
  · exact hs

theorem Numbers.setRemoteDescription (hs : Numbers s) (i : Nat) :
    Numbers (setRemoteDescription s i) := by
  unfold Index.setRemoteDescription
  split
  · exact ⟨hs.posts, hs.timers, hs.createOffer, hs.setLocalDescription⟩
  · exact hs.setAnswer _ i

theorem Numbers.setWaiting (hs : Numbers s) (j : Nat) : Numbers (setWaiting s j) := by
  unfold Index.setWaiting
  split
  · exact hs
  · exact hs.setAnswer j _

theorem Unsent.setAnswer (hs : Unsent s) (j i : Nat) : Unsent (setAnswer s j i) := by
  unfold Index.setAnswer
  split
  · have hok := hs.modify (i := j) (f := fun p => { p with remoteDescription := true })
      (fun _ hr => hr)
    exact ⟨hok.ready, hok.posts⟩
  · exact hs

theorem Unsent.setRemoteDescription (hs : Unsent s) (i : Nat) :
    Unsent (setRemoteDescription s i) := by
  unfold Index.setRemoteDescription
  split
  · exact ⟨hs.ready, hs.posts⟩
  · exact hs.setAnswer _ i

theorem Unsent.setWaiting (hs : Unsent s) (j : Nat) : Unsent (setWaiting s j) := by
  unfold Index.setWaiting
  split
  · exact hs
  · exact hs.setAnswer j _

/-- One more start is suspended. -/
theorem Numbers.await {x : Start} (hs : Numbers s)
    (hx : ∀ own, x = .createOffer own → own < s.created)
    (hy : ∀ own target, x = .setLocalDescription own target → own < s.created) :
    Numbers { s with starts := s.starts ++ [x] } := by
  refine ⟨hs.posts, hs.timers, ?_, ?_⟩
  · intro own h
    rcases List.mem_append.mp h with hin | hlast
    · exact hs.createOffer own hin
    · exact hx own (List.mem_singleton.mp hlast).symm
  · intro own target h
    rcases List.mem_append.mp h with hin | hlast
    · exact hs.setLocalDescription own target hin
    · exact hy own target (List.mem_singleton.mp hlast).symm

/-- A start goes on. -/
theorem Numbers.eraseIdx (hs : Numbers s) (k : Nat) :
    Numbers { s with starts := s.starts.eraseIdx k } :=
  ⟨hs.posts, hs.timers, fun own h => hs.createOffer own (List.mem_of_mem_eraseIdx h),
    fun own target h => hs.setLocalDescription own target (List.mem_of_mem_eraseIdx h)⟩

theorem Numbers.makePeer (hs : Numbers s) : Numbers (makePeer s) := by
  have hawait := Numbers.await (x := .createOffer s.created)
    (s := { s with created := s.created + 1 })
    ⟨fun post h => Nat.lt_succ_of_lt (hs.posts post h),
      fun i h => ⟨Nat.lt_succ_of_lt (hs.timers i h).1, (hs.timers i h).2⟩,
      fun own h => Nat.lt_succ_of_lt (hs.createOffer own h),
      fun own target h => Nat.lt_succ_of_lt (hs.setLocalDescription own target h)⟩
    (by simp) (by simp)
  refine ⟨hawait.posts, ?_, hawait.createOffer, hawait.setLocalDescription⟩
  intro i hi
  obtain ⟨hlt, hd⟩ := hs.timers i hi
  refine ⟨Nat.lt_succ_of_lt hlt, ?_⟩
  simpa [Index.makePeer, Nat.ne_of_lt hlt] using hd

theorem unsent_makePeer (hs : Numbers s) : Unsent (makePeer s) := by
  have hlast : (makePeer s).pc = s.created := by simp [State.pc, makePeer]
  refine ⟨?_, ?_⟩
  · intro _
    rw [hlast]
    simp [makePeer, Peer.ready, Peer.fresh]
  · intro _ hmem
    obtain ⟨post, hpost, heq⟩ := List.mem_map.mp hmem
    have hlt := hs.posts post hpost
    omega

/-- Behind a call of `sendOffer` the offer was sent. -/
theorem unsent_sendOffer : Unsent (sendOffer s) := by
  unfold sendOffer
  split
  · rename_i h
    exact ⟨by simp [h], by simp [h]⟩
  · exact ⟨by simp, by simp⟩

theorem Numbers.sendOffer (hs : Numbers s) (hpc : s.pc < s.created) : Numbers (sendOffer s) := by
  unfold Index.sendOffer
  split
  · exact hs
  · refine ⟨?_, hs.timers, hs.createOffer, hs.setLocalDescription⟩
    intro post hpost
    rcases List.mem_append.mp hpost with hin | hlast
    · exact hs.posts post hin
    · rw [List.mem_singleton.mp hlast]
      exact hpc

/-! ### The steps -/

/-- The turns of the event loop. -/
inductive Move (s : State) : Event → State → Prop
  | makePeer (h : s.isClosed = true) : Move s .start (makePeer s)
  | startCloses (h : s.isClosed = false) :
      Move s .start { closePeer s with starts := s.starts ++ [.closePeer] }
  | closeNothing : Move s .closePeer { s with isClosed := true }
  | closePeer : Move s .closePeer (closePeer s)
  | resumeClosed {k : Nat} (h : s.starts[k]? = some .closePeer) :
      Move s (.resume k true) (Index.makePeer { s with starts := s.starts.eraseIdx k })
  | offerCreated {k own : Nat} (h : s.starts[k]? = some (.createOffer own)) :
      Move s (.resume k true)
        { s with starts := s.starts.eraseIdx k ++ [.setLocalDescription own s.pc] }
  | described {k own : Nat} (h : s.starts[k]? = some (.setLocalDescription own own))
      (hclosed : (s.peers own).closed = false) :
      Move s (.resume k true)
        (setWaiting { s.modify own (fun p => { p with localDescription := true }) with
          starts := s.starts.eraseIdx k, timers := s.timers ++ [own] } own)
  | rejected {k : Nat} : Move s (.resume k false) { s with starts := s.starts.eraseIdx k }
  | gathers {i : Nat} {state : GatheringState} (hi : i < s.created)
      (hd : (s.peers i).localDescription = true)
      (h : ((s.modify i fun p => { p with iceGatheringState := state }).peers
        s.pc).iceGatheringState ≠ .complete) :
      Move s (.gathering i state) (s.modify i fun p => { p with iceGatheringState := state })
  | gathered {i : Nat} {state : GatheringState} (hi : i < s.created)
      (hd : (s.peers i).localDescription = true)
      (h : ((s.modify i fun p => { p with iceGatheringState := state }).peers
        s.pc).iceGatheringState = .complete) :
      Move s (.gathering i state)
        (sendOffer (s.modify i fun p => { p with iceGatheringState := state }))
  | expires {i : Nat} (h : i ∈ s.timers) :
      Move s (.timer i) (sendOffer { s.modify i (fun p => { p with timedOut := true }) with
        timers := s.timers.erase i })
  | responds {i : Nat} {response : Response} (h : i ∈ s.fetches) :
      Move s (.response i response)
        (gotAnswer { s with fetches := s.fetches.erase i } i response)

theorem resume_move {k : Nat} {ok : Bool} (h : resume s k ok = some s') :
    Move s (.resume k ok) s' := by
  simp only [resume] at h
  split at h
  · simp at h
  · rename_i hstart
    split at h
    · rename_i hok
      obtain rfl := Option.some.inj h
      rw [hok]
      exact .resumeClosed hstart
    · simp at h
  · rename_i own hstart
    split at h
    · rename_i hok
      obtain rfl := Option.some.inj h
      rw [hok]
      exact .offerCreated hstart
    · rename_i hok
      obtain rfl := Option.some.inj h
      obtain rfl : ok = false := by simpa using hok
      exact .rejected
  · rename_i own target hstart
    split at h
    · rename_i hok
      split at h
      · rename_i hguard
        obtain rfl := Option.some.inj h
        obtain ⟨rfl, hclosed⟩ := hguard
        rw [hok]
        exact .described hstart hclosed
      · simp at h
    · rename_i hok
      obtain rfl := Option.some.inj h
      obtain rfl : ok = false := by simpa using hok
      exact .rejected

theorem step_move (h : page.step s e = some s') : Move s e s' := by
  cases e with
  | start =>
      obtain rfl := Option.some.inj h
      unfold start
      split
      · rename_i hclosed
        exact .makePeer hclosed
      · rename_i hclosed
        exact .startCloses (by simpa using hclosed)
  | closePeer =>
      obtain rfl := Option.some.inj h
      split
      · exact .closeNothing
      · exact .closePeer
  | resume k ok => exact resume_move h
  | gathering i state =>
      simp only [page, step] at h
      split at h
      · rename_i hguard
        obtain rfl := Option.some.inj h
        split
        · rename_i hcomplete
          exact .gathered hguard.1 hguard.2 hcomplete
        · rename_i hcomplete
          exact .gathers hguard.1 hguard.2 hcomplete
      · simp at h
  | timer i =>
      simp only [page, step] at h
      split at h
      · rename_i hi
        obtain rfl := Option.some.inj h
        exact .expires hi
      · simp at h
  | response i response =>
      simp only [page, step] at h
      split at h
      · rename_i hi
        obtain rfl := Option.some.inj h
        exact .responds hi
      · simp at h

/-! ### What every turn keeps -/

theorem pc_lt (h : 0 < s.created) : s.pc < s.created := by
  unfold State.pc
  omega

theorem numbers_step (hs : Numbers s) (h : Move s e s') : Numbers s' := by
  cases h with
  | makePeer hclosed => exact hs.makePeer
  | startCloses hclosed =>
      have hok := hs.modify (i := s.pc) (f := fun p => { p with closed := true }) id
      exact (Numbers.await (s := closePeer s) (x := .closePeer)
        ⟨hok.posts, hok.timers, hok.createOffer, hok.setLocalDescription⟩ (by simp) (by simp))
  | closeNothing => exact ⟨hs.posts, hs.timers, hs.createOffer, hs.setLocalDescription⟩
  | closePeer =>
      have hok := hs.modify (i := s.pc) (f := fun p => { p with closed := true }) id
      exact ⟨hok.posts, hok.timers, hok.createOffer, hok.setLocalDescription⟩
  | resumeClosed hstart => exact (hs.eraseIdx _).makePeer
  | @offerCreated k own hstart =>
      have hown := hs.createOffer own (List.mem_of_getElem? hstart)
      refine (hs.eraseIdx k).await (by simp) ?_
      intro own' target heq
      obtain ⟨rfl, -⟩ : own = own' ∧ s.pc = target := by simpa using heq
      exact hown
  | @described k own hstart hclosed =>
      have hown := hs.setLocalDescription own own (List.mem_of_getElem? hstart)
      have hok := (hs.eraseIdx k).modify (i := own)
        (f := fun p => { p with localDescription := true }) (fun _ => rfl)
      refine Numbers.setWaiting ?_ own
      refine ⟨hok.posts, ?_, hok.createOffer, hok.setLocalDescription⟩
      intro i hi
      rcases List.mem_append.mp hi with hin | hlast
      · exact hok.timers i hin
      · obtain rfl : i = own := List.mem_singleton.mp hlast
        exact ⟨hown, by simp⟩
  | rejected => exact hs.eraseIdx _
  | gathers hi hd hstate => exact hs.modify id
  | gathered hi hd hstate => exact (hs.modify id).sendOffer (pc_lt (Nat.zero_lt_of_lt hi))
  | @expires i hi =>
      have hok := hs.modify (i := i) (f := fun p => { p with timedOut := true }) id
      refine Numbers.sendOffer ⟨hok.posts, ?_, hok.createOffer, hok.setLocalDescription⟩
        (pc_lt (Nat.zero_lt_of_lt (hs.timers i hi).1))
      intro j hj
      exact hok.timers j (List.mem_of_mem_erase hj)
  | @responds i response hi =>
      cases response with
      | rejected => exact ⟨hs.posts, hs.timers, hs.createOffer, hs.setLocalDescription⟩
      | null =>
          have hok := hs.modify (i := s.pc) (f := fun p => { p with closed := true }) id
          exact ⟨hok.posts, hok.timers, hok.createOffer, hok.setLocalDescription⟩
      | answer =>
          refine Numbers.setRemoteDescription ?_ i
          exact ⟨hs.posts, hs.timers, hs.createOffer, hs.setLocalDescription⟩

theorem unsent_step (hn : Numbers s) (hs : Unsent s) (h : Move s e s') : Unsent s' := by
  have hclose := hs.modify (i := s.pc) (f := fun p => { p with closed := true }) (fun _ hr => hr)
  cases h with
  | makePeer hclosed => exact unsent_makePeer hn
  | startCloses hclosed => exact ⟨hclose.ready, hclose.posts⟩
  | closeNothing => exact ⟨hs.ready, hs.posts⟩
  | closePeer => exact ⟨hclose.ready, hclose.posts⟩
  | resumeClosed hstart => exact unsent_makePeer (hn.eraseIdx _)
  | offerCreated hstart => exact ⟨hs.ready, hs.posts⟩
  | @described k own hstart hclosed =>
      have hok := hs.modify (i := own) (f := fun p => { p with localDescription := true })
        (fun _ hr => hr)
      refine Unsent.setWaiting ?_ own
      exact ⟨hok.ready, hok.posts⟩
  | rejected => exact ⟨hs.ready, hs.posts⟩
  | @gathers i state hi hd hstate =>
      refine hs.modify ?_
      rintro rfl (hcomplete | htimedOut)
      · exact absurd (by simpa using hcomplete) hstate
      · exact Or.inr htimedOut
  | gathered hi hd hstate => exact unsent_sendOffer
  | expires hi => exact unsent_sendOffer
  | @responds i response hi =>
      cases response with
      | rejected => exact ⟨hs.ready, hs.posts⟩
      | null => exact ⟨hclose.ready, hclose.posts⟩
      | answer =>
          refine Unsent.setRemoteDescription ?_ i
          exact ⟨hs.ready, hs.posts⟩

theorem numbers_run : ∀ es s, page.run es = some s → Numbers s :=
  Machine.run_induction numbers_init fun _ _ _ _ _ hs h => numbers_step hs (step_move h)

theorem unsent_run : ∀ es s, page.run es = some s → Unsent s :=
  Machine.run_induction unsent_init fun es s _ _ hrun hs h =>
    unsent_step (numbers_run es s hrun) hs (step_move h)

/-! ### Whose offer is posted, and whose answer is set -/

/-- The connection is posted as one that is described, open and ready. -/
structure Peer.Postable (p : Peer) : Prop where
  localDescription : p.localDescription = true
  closed : p.closed = false
  ready : p.ready

structure Contract (s : State) : Prop where
  once : (s.posts.map Prod.fst).Nodup
  posted : ∀ post ∈ s.posts, post.2.Postable
  applied : ∀ a ∈ s.applied, a.1 = a.2

/-- The turns that keep the connections apart.  While the last connection is not posted, a
timer that expires is its own and finds it open, and its gathering completes while it is
open.  An answer that arrives, and whose call does not wait, is for the connection that was
posted for it, unless the last connection takes no answer; and of the answers that wait for
a local description, the first was obtained for that connection. -/
structure KeepsApart (s : State) (e : Event) (_ : State) : Prop where
  timer : ∀ i, e = .timer i → s.isOfferSent = false → i = s.pc ∧ (s.peers i).closed = false
  gathering : ∀ i, e = .gathering i .complete → s.isOfferSent = false → i = s.pc →
    (s.peers i).closed = false
  response : ∀ i, e = .response i .answer → .setLocalDescription s.pc s.pc ∉ s.starts →
    (s.peers s.pc).TakesAnswer → i = s.pc
  waiting : ∀ k own a, e = .resume k true → s.starts[k]? = some (.setLocalDescription own own) →
    (s.answers.find? fun a => a.1 = own) = some a → (s.peers own).remoteDescription = false →
      a.2 = own

theorem contract_init : Contract page.init := by
  refine ⟨?_, ?_, ?_⟩ <;> simp [page]

/-- **A call of `sendOffer` for a connection that is not posted.** -/
theorem contract_sendOffer (hs : Contract s) (hsent : s.isOfferSent = false)
    (hnew : s.pc ∉ s.posts.map Prod.fst) :
    Contract (sendOffer s) ↔ (s.peers s.pc).Postable := by
  simp only [sendOffer, hsent, Bool.false_eq_true, if_false]
  refine ⟨fun h => h.posted (s.pc, s.peers s.pc) (by simp), fun hp => ⟨?_, ?_, hs.applied⟩⟩
  · rw [List.map_append, List.nodup_append]
    refine ⟨hs.once, by simp, ?_⟩
    simpa using fun a p hp hap => hnew (List.mem_map.mpr ⟨(a, p), hp, hap⟩)
  · intro post hpost
    rcases List.mem_append.mp hpost with hin | hlast
    · exact hs.posted post hin
    · rw [List.mem_singleton.mp hlast]
      exact hp

theorem contract_sendOffer_of_sent (hs : Contract s) (h : s.isOfferSent = true) :
    Contract (sendOffer s) := by
  simpa [sendOffer, h] using hs

/-- A turn that neither posts nor sets an answer. -/
theorem contract_of_quiet (hs : Contract s) (hposts : s'.posts = s.posts)
    (happlied : s'.applied = s.applied) (htimer : ∀ i, e ≠ .timer i)
    (hgathering : ∀ i, e ≠ .gathering i .complete) (hresponse : ∀ i, e ≠ .response i .answer)
    (hresume : ∀ k own, e = .resume k true → s.starts[k]? ≠ some (.setLocalDescription own own)) :
    Contract s' ↔ KeepsApart s e s' := by
  refine iff_of_true ⟨?_, ?_, ?_⟩ ⟨?_, ?_, ?_, ?_⟩
  · rw [hposts]; exact hs.once
  · rw [hposts]; exact hs.posted
  · rw [happlied]; exact hs.applied
  · exact fun i he => absurd he (htimer i)
  · exact fun i he => absurd he (hgathering i)
  · exact fun i he => absurd he (hresponse i)
  · exact fun k own a he hstart => absurd hstart (hresume k own he)

theorem contract_gathers {i : Nat} {state : GatheringState} (hs : Contract s)
    (h : ((s.modify i fun p => { p with iceGatheringState := state }).peers
      s.pc).iceGatheringState ≠ .complete) :
    Contract (s.modify i fun p => { p with iceGatheringState := state }) ↔
      KeepsApart s (.gathering i state) s' := by
  refine iff_of_true ⟨hs.once, hs.posted, hs.applied⟩ ⟨by simp, ?_, by simp, by simp⟩
  intro j he _ hj
  obtain ⟨rfl, rfl⟩ : i = j ∧ state = .complete := by simpa using he
  simp [hj] at h

/-- The handler posts the connection whose gathering completes. -/
theorem contract_gathered {i : Nat} {state : GatheringState} (hu : Unsent s) (hs : Contract s)
    (hd : (s.peers i).localDescription = true)
    (h : ((s.modify i fun p => { p with iceGatheringState := state }).peers
      s.pc).iceGatheringState = .complete) :
    Contract (sendOffer (s.modify i fun p => { p with iceGatheringState := state })) ↔
      KeepsApart s (.gathering i state) s' := by
  have hsame : Contract (s.modify i fun p => { p with iceGatheringState := state }) :=
    ⟨hs.once, hs.posted, hs.applied⟩
  cases hsent : s.isOfferSent with
  | true =>
      exact iff_of_true (contract_sendOffer_of_sent hsame hsent)
        ⟨by simp, by simp [hsent], by simp, by simp⟩
  | false =>
      rw [contract_sendOffer hsame hsent (hu.posts hsent)]
      -- the last connection had not completed, so the event is its own
      have hi : i = s.pc := by
        by_contra hne
        refine hu.ready hsent (Or.inl ?_)
        simpa [Ne.symm hne] using h
      have hstate : state = .complete := by simpa [hi] using h
      have hpeer : (s.modify i fun p => { p with iceGatheringState := state }).peers s.pc =
          { s.peers i with iceGatheringState := state } := by simp [hi]
      rw [modify_pc, hpeer]
      refine ⟨fun hp => ⟨by simp, fun j he _ _ => ?_, by simp, by simp⟩,
        fun hk => ⟨hd, ?_, Or.inl hstate⟩⟩
      · obtain rfl : i = j := by simpa [hstate] using he
        exact hp.closed
      · exact hk.gathering i (by rw [hstate]) hsent hi

/-- A timer posts the last connection, whosoever it is. -/
theorem contract_expires {i : Nat} (hn : Numbers s) (hu : Unsent s) (hs : Contract s)
    (hi : i ∈ s.timers) :
    Contract (sendOffer { s.modify i (fun p => { p with timedOut := true }) with
        timers := s.timers.erase i }) ↔ KeepsApart s (.timer i) s' := by
  have hsame : Contract { s.modify i (fun p => { p with timedOut := true }) with
      timers := s.timers.erase i } := ⟨hs.once, hs.posted, hs.applied⟩
  cases hsent : s.isOfferSent with
  | true =>
      exact iff_of_true (contract_sendOffer_of_sent hsame hsent)
        ⟨by simp [hsent], by simp, by simp, by simp⟩
  | false =>
      rw [contract_sendOffer hsame hsent (hu.posts hsent)]
      show ((s.modify i fun p => { p with timedOut := true }).peers s.pc).Postable ↔ _
      by_cases hpc : i = s.pc
      · have hpeer : (s.modify i fun p => { p with timedOut := true }).peers s.pc =
            { s.peers i with timedOut := true } := by simp [hpc]
        rw [hpeer]
        refine ⟨fun hp => ⟨fun j he _ => ?_, by simp, by simp, by simp⟩, fun hk => ?_⟩
        · obtain rfl : i = j := by simpa using he
          exact ⟨hpc, hp.closed⟩
        · exact ⟨(hn.timers i hi).2, (hk.timer i rfl hsent).2, Or.inr rfl⟩
      · have hpeer : (s.modify i fun p => { p with timedOut := true }).peers s.pc =
            s.peers s.pc := by simp [Ne.symm hpc]
        rw [hpeer]
        exact iff_of_false (fun hp => hu.ready hsent hp.ready)
          (fun hk => hpc (hk.timer i rfl hsent).1)

/-- **An answer that comes to a connection.** -/
theorem contract_setAnswer {j i : Nat} (hs : Contract s) :
    Contract (setAnswer s j i) ↔ ((s.peers j).TakesAnswer → i = j) := by
  unfold setAnswer
  split
  · rename_i htakes
    refine ⟨fun h _ => (h.applied (j, i) (by simp)).symm, fun hi => ⟨hs.once, hs.posted, ?_⟩⟩
    intro a ha
    rcases List.mem_append.mp ha with hin | hlast
    · exact hs.applied a hin
    · rw [List.mem_singleton.mp hlast]
      exact (hi htakes).symm
  · rename_i htakes
    exact iff_of_true hs fun h => absurd h htakes

theorem contract_setWaiting {j : Nat} (hs : Contract s) :
    Contract (setWaiting s j) ↔ ∀ a, (s.answers.find? fun a => a.1 = j) = some a →
      (s.peers j).TakesAnswer → a.2 = j := by
  unfold setWaiting
  cases s.answers.find? fun a => a.1 = j with
  | none => exact iff_of_true hs (by simp)
  | some a => simpa using contract_setAnswer hs

theorem contract_answer {i : Nat} (hs : Contract s) :
    Contract (gotAnswer { s with fetches := s.fetches.erase i } i .answer) ↔
      KeepsApart s (.response i .answer) s' := by
  have hsame : Contract { s with fetches := s.fetches.erase i } := ⟨hs.once, hs.posted, hs.applied⟩
  have hkeeps : KeepsApart s (.response i .answer) s' ↔
      (.setLocalDescription s.pc s.pc ∉ s.starts → (s.peers s.pc).TakesAnswer → i = s.pc) := by
    refine ⟨fun hk => hk.response i rfl, fun hi => ⟨by simp, by simp, fun j he => ?_, by simp⟩⟩
    obtain rfl : i = j := by simpa using he
    exact hi
  rw [hkeeps]
  simp only [gotAnswer, setRemoteDescription]
  split
  · rename_i hwaits
    exact iff_of_true ⟨hs.once, hs.posted, hs.applied⟩ fun hno => absurd hwaits hno
  · rename_i hwaits
    rw [contract_setAnswer hsame]
    exact ⟨fun h _ => h, fun h => h hwaits⟩

/-- The connection has its local description, and the first answer that has waited is set. -/
theorem contract_described {k own : Nat} (hs : Contract s)
    (hstart : s.starts[k]? = some (.setLocalDescription own own))
    (hclosed : (s.peers own).closed = false) :
    Contract (setWaiting { s.modify own (fun p => { p with localDescription := true }) with
        starts := s.starts.eraseIdx k, timers := s.timers ++ [own] } own) ↔
      KeepsApart s (.resume k true) s' := by
  have hsame : Contract { s.modify own (fun p => { p with localDescription := true }) with
      starts := s.starts.eraseIdx k, timers := s.timers ++ [own] } :=
    ⟨hs.once, hs.posted, hs.applied⟩
  have hkeeps : KeepsApart s (.resume k true) s' ↔
      ∀ a, (s.answers.find? fun a => a.1 = own) = some a →
        (s.peers own).remoteDescription = false → a.2 = own := by
    refine ⟨fun hk a ha hr => hk.waiting k own a rfl hstart ha hr,
      fun hi => ⟨by simp, by simp, by simp, fun k' own' a he hstart' => ?_⟩⟩
    obtain rfl : k = k' := by simpa using he
    obtain rfl : own = own' := by simpa using hstart.symm.trans hstart'
    exact hi a
  rw [hkeeps, contract_setWaiting hsame]
  refine forall_congr' fun a => ?_
  simp [State.modify, Peer.TakesAnswer, hclosed]

theorem contract_step (hn : Numbers s) (hu : Unsent s) (hs : Contract s) (h : Move s e s') :
    Contract s' ↔ KeepsApart s e s' := by
  cases h with
  | makePeer hclosed => exact contract_of_quiet hs rfl rfl (by simp) (by simp) (by simp) (by simp)
  | startCloses hclosed =>
      exact contract_of_quiet hs rfl rfl (by simp) (by simp) (by simp) (by simp)
  | closeNothing => exact contract_of_quiet hs rfl rfl (by simp) (by simp) (by simp) (by simp)
  | closePeer => exact contract_of_quiet hs rfl rfl (by simp) (by simp) (by simp) (by simp)
  | resumeClosed hstart | offerCreated hstart =>
      refine contract_of_quiet hs rfl rfl (by simp) (by simp) (by simp) ?_
      intro k own he
      obtain rfl : _ = k := by simpa using he
      simp [hstart]
  | described hstart hclosed => exact contract_described hs hstart hclosed
  | rejected => exact contract_of_quiet hs rfl rfl (by simp) (by simp) (by simp) (by simp)
  | gathers hi hd hstate => exact contract_gathers hs hstate
  | gathered hi hd hstate => exact contract_gathered hu hs hd hstate
  | expires hi => exact contract_expires hn hu hs hi
  | @responds i response hi =>
      cases response with
      | rejected => exact contract_of_quiet hs rfl rfl (by simp) (by simp) (by simp) (by simp)
      | null => exact contract_of_quiet hs rfl rfl (by simp) (by simp) (by simp) (by simp)
      | answer => exact contract_answer hs

/--
**When the page keeps its connections apart.**

In every state of a run each connection was posted at most once, and then as an open one
that had a description and was ready, and every answer was set on the connection that it
was obtained for, if and only if every turn of the run keeps the connections apart.
-/
theorem contract_throughout_iff (es : List Event) :
    page.Throughout Contract es ↔ page.Each KeepsApart es :=
  (Machine.each_iff_throughout contract_init (fun es s _ _ hrun hs h =>
    contract_step (numbers_run es s hrun) (unsent_run es s hrun) hs (step_move h)) es).symm

/-- An answer for the first connection arrives when the second one has made its offer. -/
example :
    (page.run [.start, .resume 0 true, .resume 0 true, .gathering 0 .complete, .start,
      .resume 0 true, .resume 0 true, .resume 0 true, .response 0 .answer]).map
        (fun s => s.applied) = some [(1, 0)] := by
  decide

/-- A restart within the three seconds of the first timer. -/
def restart : List Event :=
  [.start, .resume 0 true, .resume 0 true, .start, .resume 0 true, .timer 0]

/-- The first timer posts the new connection, which has no description yet. -/
theorem restart_posts_null :
    (page.run restart).map (fun s => s.posts) = some [(1, .fresh)] ∧
      ¬ page.Throughout Contract restart := by
  have hread : (page.run restart).map (fun s => s.posts) = some [(1, .fresh)] := by decide
  refine ⟨hread, fun h => ?_⟩
  obtain ⟨s, hs, hposts⟩ := Option.map_eq_some_iff.mp hread
  have hposted := (h restart [] s (by simp) hs).posted (1, .fresh) (by simp [hposts])
  exact absurd hposted.localDescription (by simp [Peer.fresh])

end WebrtcEchoes.Html.Index
