/-
What a failed offer leaves behind in three servers.

The aiortc and the webrtc-rs server register the connection of a request before they have
negotiated anything, and no exit of their handlers takes it out again; only the callback
for a failed ICE connection does.  The libwebrtc server registers it after the track was
added, so its first two failures leave nothing behind and all later ones do.
-/
import WebrtcEchoes.Proofs.Aiortc.Server
import WebrtcEchoes.Proofs.Libwebrtc.PcFactory
import WebrtcEchoes.Proofs.WebrtcRs.Server

namespace WebrtcEchoes

/-! ### aiortc -/

namespace Aiortc.Server

variable {s s' : State} {e : Event}

/-- The set holds the connections added to it that were not taken out of it. -/
structure Held (s : State) : Prop where
  removed : ∀ i ∈ s.removed, i ∈ s.added
  pcs : ∀ i, i ∈ s.pcs ↔ i ∈ s.added ∧ i ∉ s.removed
  /-- A handler behind its first await has added its connection, unless it raised. -/
  added : ∀ i, s.handlers i ≠ .json → s.handlers i = .raised ∨ i ∈ s.added

theorem held_init : Held server.init := by
  refine ⟨?_, ?_, ?_⟩ <;> simp [server]

theorem Held.offer {i : Nat} {ok : Bool} (hb : Bookkeeping s) (hs : Held s)
    (h : offer s i ok = some s') : Held s' := by
  rcases offer_cases h with ⟨hjson, -, rfl⟩ | ⟨handler, hne, rfl, hlive, hjson, hraised⟩
  · have hnew : i ∉ s.added := hb.json i hjson
    refine ⟨fun j hj => List.mem_append_left _ (hs.removed j hj), ?_, ?_⟩
    · intro j
      by_cases hj : j = i
      · have hkept : i ∉ s.removed := fun hmem => hnew (hs.removed i hmem)
        simp [hj, State.moved, hkept]
      · simpa [hj, State.moved] using hs.pcs j
    · intro j hat
      by_cases hj : j = i
      · simp [hj]
      · simpa [hj] using hs.added j (by simpa [hj] using hat)
  · refine ⟨hs.removed, hs.pcs, ?_⟩
    intro j hat
    show (s.moved i handler).handlers j = .raised ∨ j ∈ s.added
    simp only [moved_handlers] at hat ⊢
    split
    · rename_i hj
      by_cases hstart : s.handlers i = .json
      · exact Or.inl (hraised.mpr (hjson hstart))
      · exact Or.inr (hj ▸ (hs.added i hstart).resolve_left hlive)
    · rename_i hj
      exact hs.added j (by simpa [hj] using hat)

theorem held_step (hb : Bookkeeping s) (hs : Held s) (h : step s e = some s') : Held s' := by
  cases e with
  | handler i ok => exact hs.offer hb h
  | iceConnectionStateChange i state =>
      obtain ⟨-, rfl⟩ := eq_of_guarded h
      unfold onIceConnectionStateChange
      split
      · exact ⟨hs.removed, hs.pcs, hs.added⟩
      · exact hs
  | closeEnded i ok =>
      obtain ⟨-, rfl⟩ := eq_of_guarded h
      cases ok with
      | false => exact ⟨hs.removed, hs.pcs, hs.added⟩
      | true =>
          refine ⟨?_, ?_, hs.added⟩
          · intro j hj
            rcases List.mem_append.mp hj with hold | hnew
            · exact hs.removed j hold
            · exact hb.pcs j (List.mem_of_mem_filter hnew)
          · intro j
            have hj := hs.pcs j
            by_cases hji : j = i
            · subst hji
              simp only [closeEnded, if_true, List.mem_filter, List.mem_append]
              simp
              tauto
            · simp [closeEnded, hji, hj]
  | onShutdown =>
      obtain ⟨-, rfl⟩ := eq_of_guarded h
      unfold onShutdown
      split <;> exact ⟨hs.removed, hs.pcs, hs.added⟩
  | gathered i ok =>
      obtain ⟨-, rfl⟩ := eq_of_guarded h
      cases ok <;> exact ⟨hs.removed, hs.pcs, hs.added⟩
  | resume =>
      obtain ⟨-, ⟨-, rfl⟩ | ⟨-, -, rfl⟩⟩ := resume_cases h
      · exact ⟨hs.removed, hs.pcs, hs.added⟩
      · refine ⟨?_, ?_, hs.added⟩
        · intro j hj
          rcases List.mem_append.mp hj with hold | hnew
          · exact hs.removed j hold
          · exact hb.pcs j hnew
        · intro j
          have hj := hs.pcs j
          simp only [List.not_mem_nil, List.mem_append, false_iff]
          tauto

theorem held_run : ∀ es s, server.run es = some s → Held s :=
  Machine.run_induction held_init fun es s _ _ hrun hs h =>
    held_step (bookkeeping_run es s hrun) hs h

/-- The set does not hold the connection of a request that has raised. -/
def NoTrace (s : State) : Prop := ∀ i, s.handlers i = .raised → i ∉ s.pcs

/-- A request changes the set by its own connection only. -/
def OwnOnly (s : State) (e : Event) (s' : State) : Prop :=
  ∀ i ok, e = .handler i ok → ∀ j, j ≠ i → (j ∈ s'.pcs ↔ j ∈ s.pcs)

/-- A request raises before it adds its connection, or when that was taken out again. -/
def RaisesClean (s : State) (e : Event) (_ : State) : Prop :=
  ∀ i, e = .handler i false → s.handlers i = .json ∨ i ∈ s.removed

theorem ownOnly_step (h : step s e = some s') : OwnOnly s e s' := by
  rintro i ok rfl j hj
  rcases offer_cases h with ⟨-, -, rfl⟩ | ⟨handler, -, rfl, -, -, -⟩
  · simp [hj]
  · exact Iff.rfl

/-- A step of another coroutine takes connections out, if it changes the set at all. -/
theorem noTrace_of_subset (hs : NoTrace s) (hhandlers : s'.handlers = s.handlers)
    (hpcs : ∀ i ∈ s'.pcs, i ∈ s.pcs) (he : ∀ i ok, e ≠ .handler i ok) :
    NoTrace s' ↔ RaisesClean s e s' := by
  refine iff_of_true ?_ (fun i hi => absurd hi (he i false))
  intro i hraised hmem
  exact hs i (hhandlers ▸ hraised) (hpcs i hmem)

theorem noTrace_step (hb : Bookkeeping s) (hh : Held s) (hs : NoTrace s)
    (h : step s e = some s') : NoTrace s' ↔ RaisesClean s e s' := by
  cases e with
  | handler i ok =>
      rcases offer_cases h with ⟨-, rfl, rfl⟩ | ⟨handler, -, rfl, hlive, -, hraised⟩
      · refine iff_of_true ?_ (by simp [RaisesClean])
        intro j hj
        by_cases hji : j = i
        · simp [hji] at hj
        · simpa [hji] using hs j (by simpa [hji] using hj)
      · have hrest : ∀ j, j ≠ i → (s.moved i handler).handlers j = .raised → j ∉ s.pcs := by
          intro j hji hj
          exact hs j (by simpa [hji] using hj)
        cases ok with
        | true =>
            refine iff_of_true ?_ (by simp [RaisesClean])
            intro j hj
            by_cases hji : j = i
            · simp [hji, hraised] at hj
            · exact hrest j hji hj
        | false =>
            have hiff : i ∉ s.pcs ↔ s.handlers i = .json ∨ i ∈ s.removed := by
              rw [hh.pcs]
              refine ⟨?_, ?_⟩
              · intro hnot
                by_cases hstart : s.handlers i = .json
                · exact Or.inl hstart
                · refine Or.inr (not_not.mp fun hkept => ?_)
                  exact hnot ⟨(hh.added i hstart).resolve_left hlive, hkept⟩
              · rintro (hstart | hremoved) ⟨hadded, hkept⟩
                · exact hb.json i hstart hadded
                · exact hkept hremoved
            refine ⟨?_, ?_⟩
            · intro hs' j hj
              obtain rfl : i = j := by simpa using hj
              exact hiff.mp (hs' i (by simpa using hraised))
            · intro hclean j hj
              by_cases hji : j = i
              · rw [hji]
                exact hiff.mpr (hclean i rfl)
              · exact hrest j hji hj
  | iceConnectionStateChange i state =>
      obtain ⟨-, rfl⟩ := eq_of_guarded h
      refine noTrace_of_subset hs ?_ ?_ (by simp) <;> unfold onIceConnectionStateChange
      · split <;> rfl
      · split <;> exact fun j hj => hj
  | closeEnded i ok =>
      obtain ⟨-, rfl⟩ := eq_of_guarded h
      cases ok with
      | false => exact noTrace_of_subset hs rfl (fun j hj => hj) (by simp)
      | true => exact noTrace_of_subset hs rfl (fun j hj => List.mem_of_mem_filter hj) (by simp)
  | onShutdown =>
      obtain ⟨-, rfl⟩ := eq_of_guarded h
      refine noTrace_of_subset hs ?_ ?_ (by simp) <;> unfold onShutdown
      · split <;> rfl
      · split <;> exact fun j hj => hj
  | gathered i ok =>
      obtain ⟨-, rfl⟩ := eq_of_guarded h
      cases ok <;> exact noTrace_of_subset hs rfl (fun j hj => hj) (by simp)
  | resume =>
      obtain ⟨-, ⟨-, rfl⟩ | ⟨-, -, rfl⟩⟩ := resume_cases h
      · exact noTrace_of_subset hs rfl (fun j hj => hj) (by simp)
      · exact noTrace_of_subset hs rfl (by simp) (by simp)

/-- No failed request of the run has left anything behind. -/
structure LeavesNoTrace (es : List Event) : Prop where
  failed : server.Throughout NoTrace es
  others : server.Each OwnOnly es

theorem leavesNoTrace_iff (es : List Event) :
    LeavesNoTrace es ↔ server.Each RaisesClean es := by
  have hiff := Machine.each_iff_throughout (m := server) (I := NoTrace) (G := RaisesClean)
    (by simp [NoTrace, server])
    (fun es s e s' hrun hs h => noTrace_step (bookkeeping_run es s hrun) (held_run es s hrun) hs h)
    es
  refine ⟨fun h => hiff.mpr h.failed, fun h => ⟨hiff.mp h, ?_⟩⟩
  intro pre e post s s' _ _ h
  exact ownOnly_step h

end Aiortc.Server

/-! ### webrtc-rs -/

namespace WebrtcRs.Server

variable {Id : Type} [DecidableEq Id] {statsId : PeerConnection → Id} {s s' : State Id} {e : Event}

/-- The registry holds the connections pushed onto it that `retain` has not dropped. -/
structure Held (s : State Id) : Prop where
  removed : ∀ i ∈ s.removed, i ∈ s.pushed
  pcs : ∀ i, i ∈ s.pcs ↔ i ∈ s.pushed ∧ i ∉ s.removed

theorem held_step (hp : PushedOK statsId s) (hs : Held s) (h : Move statsId s e s') : Held s' := by
  cases h with
  | @push i rest hlive htodo =>
      have hnew : i ∉ s.pushed := by
        rw [hp.mem_iff, htodo]
        simp
      refine ⟨fun j hj => List.mem_append_left _ (hs.removed j hj), ?_⟩
      intro j
      by_cases hj : j = i
      · have hkept : i ∉ s.removed := fun hmem => hnew (hs.removed i hmem)
        simp [hj, State.called, hkept]
      · simpa [hj, State.called] using hs.pcs j
  | @retain k ok task htask hphase =>
      refine ⟨?_, ?_⟩
      · intro j hj
        rcases List.mem_append.mp hj with hold | hnew
        · exact hs.removed j hold
        · exact ((hs.pcs j).mp (List.mem_of_mem_filter hnew)).1
      · intro j
        have hj := hs.pcs j
        by_cases hid : statsId j = task.statsId
        · simp [hid, hj]
          tauto
        · simp [hid, hj, State.moved]
  | _ => exact ⟨hs.removed, hs.pcs⟩

theorem held_run : ∀ es s, (server statsId).run es = some s → Held s :=
  Machine.run_induction ⟨by simp [server], by simp [server]⟩ fun es s _ _ hrun hs h =>
    held_step (pushedOK_run es s hrun) hs (step_move h)

/-- The registry does not hold the connection of a request whose handler has failed. -/
def NoTrace (s : State Id) : Prop := ∀ i, (s.handlers i).failed = true → i ∉ s.pcs

/-- A request changes the registry by its own connection only. -/
def OwnOnly (s : State Id) (e : Event) (s' : State Id) : Prop :=
  ∀ i ok, e = .handler i ok → ∀ j, j ≠ i → (j ∈ s'.pcs ↔ j ∈ s.pcs)

/-- A handler fails before it pushes its connection, or when that was dropped again. -/
def FailsClean (s : State Id) (e : Event) (_ : State Id) : Prop :=
  ∀ i, e = .handler i false → .push ∈ (s.handlers i).todo ∨ i ∈ s.removed

theorem ownOnly_step (h : Move statsId s e s') : OwnOnly s e s' := by
  rintro i ok rfl j hj
  cases h with
  | push => simp [hj]
  | _ => exact Iff.rfl

omit [DecidableEq Id] in
/-- A call that returns does not make a handler fail. -/
theorem called_failed {i : Nat} (hlive : (s.handlers i).failed = false) (rest : List Call)
    (j : Nat) : ((s.called i rest).handlers j).failed = (s.handlers j).failed := by
  unfold State.called
  by_cases hj : j = i
  · simp [hj, hlive]
  · simp [hj]

theorem noTrace_step (hp : PushedOK statsId s) (hh : Held s) (hs : NoTrace s)
    (h : Move statsId s e s') : NoTrace s' ↔ FailsClean s e s' := by
  cases h with
  | @fails i call rest hlive htodo hcall =>
      have hiff : i ∉ s.pcs ↔ .push ∈ (s.handlers i).todo ∨ i ∈ s.removed := by
        rw [hh.pcs, hp.mem_iff]
        tauto
      refine ⟨?_, ?_⟩
      · intro hs' j hj
        obtain rfl : i = j := by simpa using hj
        exact hiff.mp (hs' i (by simp))
      · intro hclean j hj
        by_cases hji : j = i
        · rw [hji]
          exact hiff.mpr (hclean i rfl)
        · exact hs j (by simpa [hji] using hj)
  | @push i rest hlive htodo =>
      refine iff_of_true ?_ (by simp [FailsClean])
      intro j hj
      have hfailed : (s.handlers j).failed = true := called_failed hlive rest j ▸ hj
      have hji : j ≠ i := by
        rintro rfl
        simp [hlive] at hfailed
      simpa [hji] using hs j hfailed
  | @lock i rest hlive htodo hm =>
      exact iff_of_true (fun j hj => hs j (called_failed hlive rest j ▸ hj)) (by simp [FailsClean])
  | @unlock i rest hlive htodo =>
      exact iff_of_true (fun j hj => hs j (called_failed hlive rest j ▸ hj)) (by simp [FailsClean])
  | @call i call rest hlive htodo hcall =>
      exact iff_of_true (fun j hj => hs j (called_failed hlive rest j ▸ hj)) (by simp [FailsClean])
  | retain =>
      exact iff_of_true (fun j hj hmem => hs j hj (List.mem_of_mem_filter hmem))
        (by simp [FailsClean])
  | _ => exact iff_of_true hs (by simp [FailsClean])

/-- No failed request of the run has left anything behind. -/
structure LeavesNoTrace (statsId : PeerConnection → Id) (es : List Event) : Prop where
  failed : (server statsId).Throughout NoTrace es
  others : (server statsId).Each OwnOnly es

theorem leavesNoTrace_iff (es : List Event) :
    LeavesNoTrace statsId es ↔ (server statsId).Each FailsClean es := by
  have hiff := Machine.each_iff_throughout (m := server statsId) (I := NoTrace) (G := FailsClean)
    (by simp [NoTrace, server])
    (fun es s e s' hrun hs h =>
      noTrace_step (pushedOK_run es s hrun) (held_run es s hrun) hs (step_move h)) es
  refine ⟨fun h => hiff.mpr h.failed, fun h => ⟨hiff.mp h, ?_⟩⟩
  intro pre e post s s' _ _ h
  exact ownOnly_step (step_move h)

end WebrtcRs.Server

/-! ### libwebrtc -/

namespace Libwebrtc

/-- The call gets as far as the creation of the peer connection, which succeeds. -/
def Creates (lib : Library) (buffer : Bytes) (length : Int) : Prop :=
  0 ≤ length ∧ lib.parse (buffer.take length.toNat) ≠ none ∧ lib.createPeerConnectionOrError = true

/-- The call returns an answer. -/
def ReturnsAnswer (lib : Library) (self : PcFactory) (buffer : Bytes) (length : Int) : Prop :=
  ∃ text, (createPeerConnection lib self buffer length).2 = .ok text ∧ IsAnswer (bytesOf text)

/-- The library rejects the remote description, or there is no answer. -/
def Fails (lib : Library) (self : PcFactory) (buffer : Bytes) (length : Int) : Prop :=
  lib.setRemoteDescription = false ∨ ¬ ReturnsAnswer lib self buffer length

/-- A call that fails behind the creation leaves the factory as it was. -/
def LeavesNoTrace (lib : Library) (self : PcFactory) (buffer : Bytes) (length : Int) : Prop :=
  Creates lib buffer length → Fails lib self buffer length →
    (createPeerConnection lib self buffer length).1 = self

/-- The offer is taken and applied, and the wait ends with a description whose text can be
dumped. -/
def Completes (lib : Library) (buffer : Bytes) (length : Int) : Prop :=
  lib.setRemoteDescription = true ∧
    ∃ offer sdp, Accepts lib buffer length offer ∧ lib.wait = .ready (some sdp) ∧ utf8 sdp ≠ none

theorem returnsAnswer_iff (lib : Library) (self : PcFactory) (buffer : Bytes) (length : Int) :
    ReturnsAnswer lib self buffer length ↔ ∃ offer sdp, Accepts lib buffer length offer ∧
      lib.wait = .ready (some sdp) ∧ utf8 sdp ≠ none := by
  refine ⟨?_, ?_⟩
  · intro ⟨text, htext, hanswer⟩
    rcases createPeerConnection_cases lib self buffer length with ⟨offer, ha⟩ | he | ⟨exn, he⟩
    · rw [ha.result] at htext
      obtain ⟨sdp, hwait, hdump⟩ := afterWait_isAnswer htext hanswer
      exact ⟨offer, sdp, ha, hwait, dumpAnswer_isOk.mp ⟨text, hdump⟩⟩
    · obtain rfl : "error" = text := Except.ok.inj (he.symm.trans htext)
      exact absurd hanswer (not_isAnswer (by decide))
    · simp [he] at htext
  · intro ⟨offer, sdp, ha, hwait, hutf8⟩
    obtain ⟨text, hdump⟩ := dumpAnswer_isOk.mpr hutf8
    refine ⟨text, ?_, (dumpAnswer_answerText hdump).isAnswer⟩
    rw [ha.result, hwait]
    exact hdump

theorem fails_iff (lib : Library) (self : PcFactory) (buffer : Bytes) (length : Int) :
    Fails lib self buffer length ↔ ¬ Completes lib buffer length := by
  unfold Fails Completes
  rw [returnsAnswer_iff, not_and_or, Bool.not_eq_true]

/-- The peer connection is pushed behind the track. -/
theorem createPeerConnection_fst {lib : Library} {buffer : Bytes} {length : Int}
    (h : Creates lib buffer length) (self : PcFactory) :
    (createPeerConnection lib self buffer length).1 = self ↔
      lib.createAudioTrack = false ∨ lib.addTrack = false := by
  obtain ⟨hlength, hparse, hcreated⟩ := h
  obtain ⟨offerJson, hjson⟩ := Option.ne_none_iff_exists'.mp hparse
  unfold createPeerConnection
  rw [if_neg (by omega), hjson]
  cases htrack : lib.createAudioTrack with
  | false => simp [hcreated]
  | true =>
      cases hsender : lib.addTrack with
      | false => simp [hcreated]
      | true =>
          have hne : (⟨self.peerConnections + 1⟩ : PcFactory) ≠ self := by
            intro heq
            have := congrArg PcFactory.peerConnections heq
            simp at this
          simp [hcreated, hne]

theorem leavesNoTrace_iff (lib : Library) (self : PcFactory) (buffer : Bytes) (length : Int) :
    LeavesNoTrace lib self buffer length ↔
      (Creates lib buffer length → lib.createAudioTrack = false ∨ lib.addTrack = false ∨
        Completes lib buffer length) := by
  unfold LeavesNoTrace
  rw [fails_iff]
  refine forall_congr' fun hcreates => ?_
  rw [createPeerConnection_fst hcreates]
  tauto

end Libwebrtc

/-! ### All three -/

/--
**When a failed offer leaves no trace.**

In the aiortc and the webrtc-rs server it does so in exactly the runs in which every
request that fails has not registered its connection yet, or has had it taken out of the
registry again.  In the libwebrtc server it does so in exactly the calls that fail before
the connection is pushed, which is behind the track; a remote description that the library
rejects is a failure behind it, whatever is then returned.
-/
theorem failed_offers_leave_no_trace_iff {Id : Type} [DecidableEq Id] (statsId : Nat → Id)
    (aiortc : List Aiortc.Server.Event) (webrtcRs : List WebrtcRs.Server.Event)
    (lib : Libwebrtc.Library) (self : Libwebrtc.PcFactory) (buffer : Libwebrtc.Bytes)
    (length : Int) :
    (Aiortc.Server.LeavesNoTrace aiortc ↔
        Aiortc.Server.server.Each Aiortc.Server.RaisesClean aiortc) ∧
      (WebrtcRs.Server.LeavesNoTrace statsId webrtcRs ↔
        (WebrtcRs.Server.server statsId).Each WebrtcRs.Server.FailsClean webrtcRs) ∧
      (Libwebrtc.LeavesNoTrace lib self buffer length ↔
        (Libwebrtc.Creates lib buffer length → lib.createAudioTrack = false ∨
          lib.addTrack = false ∨ Libwebrtc.Completes lib buffer length)) :=
  ⟨Aiortc.Server.leavesNoTrace_iff aiortc, WebrtcRs.Server.leavesNoTrace_iff webrtcRs,
    Libwebrtc.leavesNoTrace_iff lib self buffer length⟩

/-- The remote description is rejected. -/
def aiortcRejects : List Aiortc.Server.Event := [.handler 0 true, .handler 0 false]

/-- `set_remote_description` returns an error. -/
def webrtcRsRejects : List WebrtcRs.Server.Event :=
  List.replicate 10 (.handler 0 true) ++ [.handler 0 false]

/-- `SetRemoteDescription` reports a failure, and a local description is made all the same. -/
def libwebrtcRejects : Libwebrtc.Library where
  parse _ := some (.object [("sdp", .string [])])
  createPeerConnectionOrError := true
  createAudioTrack := true
  addTrack := true
  createSessionDescription _ := true
  setRemoteDescription := false
  wait := .ready (some (Libwebrtc.bytesOf Libwebrtc.sdpText))

/-- A rejected offer leaves its connection in every one of the three registries. -/
theorem rejected_offers_leave_traces :
    ¬ Aiortc.Server.LeavesNoTrace aiortcRejects ∧
      ¬ WebrtcRs.Server.LeavesNoTrace (id : Nat → Nat) webrtcRsRejects ∧
      ¬ Libwebrtc.LeavesNoTrace libwebrtcRejects ⟨0⟩ [] 0 := by
  refine ⟨?_, ?_, ?_⟩
  · intro h
    have hread : (Aiortc.Server.server.run aiortcRejects).map (fun s => (s.handlers 0, s.pcs)) =
        some (.raised, [0]) := by decide
    obtain ⟨s, hs, hread⟩ := Option.map_eq_some_iff.mp hread
    obtain ⟨hraised, hpcs⟩ := Prod.mk.inj hread
    exact h.failed aiortcRejects [] s (by simp) hs 0 hraised (by simp [hpcs])
  · intro h
    have hread : ((WebrtcRs.Server.server (id : Nat → Nat)).run webrtcRsRejects).map
        (fun s => ((s.handlers 0).failed, s.pcs)) = some (true, [0]) := by decide
    obtain ⟨s, hs, hread⟩ := Option.map_eq_some_iff.mp hread
    obtain ⟨hfailed, hpcs⟩ := Prod.mk.inj hread
    exact h.failed webrtcRsRejects [] s (by simp) hs 0 hfailed (by simp [hpcs])
  · intro h
    have hcreates : Libwebrtc.Creates libwebrtcRejects [] 0 := by
      simp [Libwebrtc.Creates, libwebrtcRejects]
    have hfst := h hcreates (Or.inl rfl)
    rcases (Libwebrtc.createPeerConnection_fst hcreates ⟨0⟩).mp hfst with htrack | hsender
    · simp [libwebrtcRejects] at htrack
    · simp [libwebrtcRejects] at hsender

end WebrtcEchoes
