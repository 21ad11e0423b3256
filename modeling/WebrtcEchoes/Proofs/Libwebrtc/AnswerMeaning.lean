/-
What the answer of the libwebrtc server is an answer to.

The label `answer` is a constant, and the flag is raised whether or not the operations
succeeded, so the text returned after the wait is the local description that the two
operations left.  With the remote offer applied it is an answer to that offer.  Without
it the connection is still stable, and `SetLocalDescription` has made an offer, which is
sent under the same label.
-/
import WebrtcEchoes.Proofs.Libwebrtc.Handoff
import WebrtcEchoes.Proofs.Libwebrtc.HttpSimpleServer

namespace WebrtcEchoes.Libwebrtc

open Handoff

variable {offer : Bytes} {s s' : Handoff} {e : Event}

/-- A run in which the call has returned after its observer reported. -/
abbrev Reported (offer : Bytes) := (machine offer).Execution reported

/-- A call that reaches the hand-off, together with a run of the hand-off whose end is the
end of the wait. -/
structure Call (lib : Library) where
  buffer : Bytes
  length : Int
  offer : Bytes
  accepted : Accepts lib buffer length offer
  run : Reported offer
  wait_eq : lib.wait = .ready run.result

/-- The text is read as the answer that the connection made for the offer, which it has
applied. -/
def AnswersOffer (offer : Bytes) (pc : PeerConnection) (text : String) : Prop :=
  pc.remoteDescription = some offer ∧
    ∃ sdp, pc.localDescription = some (.answer offer sdp) ∧ AnswerText sdp (bytesOf text)

/-- The remote offer was refused and a local description made all the same. -/
def MisLabels (es : List Event) : Prop :=
  .remoteComplete false ∈ es ∧ ∃ sdp, .localComplete (some sdp) ∈ es ∧ utf8 sdp ≠ none

/-! ### The operations in the history -/

/-- The results of the operations are the ones in the history. -/
structure HistoryOK (es : List Event) (s : Handoff) : Prop where
  remote : ∀ ok, s.setRemote = .done ok ↔ .remoteComplete ok ∈ es
  localDescription : ∀ result, s.setLocal = .done result ↔ .localComplete result ∈ es

theorem historyOK_step {es : List Event} (ho : OrderOK offer s) (hs : HistoryOK es s)
    (hm : Move offer s e s') : HistoryOK (es ++ [e]) s' := by
  cases hm with
  | remoteComplete h =>
      refine ⟨fun ok => ?_, fun result => by simp [hs.localDescription]⟩
      have hnone : .remoteComplete ok ∉ es := by simp [← hs.remote, h]
      simp [hnone, eq_comm]
  | localComplete _ h =>
      refine ⟨fun ok => by simp [hs.remote], fun result => ?_⟩
      have hnone : .localComplete result ∉ es := by simp [← hs.localDescription, h]
      simp [hnone, eq_comm]
  | issueRemote h =>
      have hop : s.setRemote = .notIssued := ho.remoteIssued.mpr (Or.inr h)
      exact ⟨fun ok => by simp [← hs.remote, hop], fun result => by simp [← hs.localDescription]⟩
  | issueLocal h =>
      have hop : s.setLocal = .notIssued := ho.localIssued.mpr (by simp [h])
      exact ⟨fun ok => by simp [← hs.remote], fun result => by simp [← hs.localDescription, hop]⟩
  | _ => exact ⟨fun ok => by simp [← hs.remote], fun result => by simp [← hs.localDescription]⟩

theorem historyOK_run : ∀ es s, (machine offer).run es = some s → HistoryOK es s :=
  Machine.run_induction ⟨by simp [machine], by simp [machine]⟩
    fun es s _ _ hrun hs h => historyOK_step (orderOK_run es s hrun) hs (step_move h)

/-! ### The description at the end -/

theorem reported_eq_some {d : Option Bytes} (h : reported s = some d) :
    s.http = .returned (.ready d) := by
  unfold reported at h
  split at h
  · rename_i d' hpc
    rw [hpc, Option.some.inj h]
  · simp at h

/-- The connection that the two operations leave. -/
theorem completedPc_eq (offer : Bytes) {ok : Bool} {result : Option Bytes}
    (hr : s.setRemote = .done ok) (hl : s.setLocal = .done result) :
    (completedPc offer s).remoteDescription = (if ok then some offer else none) ∧
      (completedPc offer s).localDescription =
        result.map (if ok then Description.answer offer else Description.offer) := by
  unfold completedPc
  rw [hr, hl]
  cases ok <;> cases result <;>
    simp [PeerConnection.setRemoteDescription, PeerConnection.setLocalDescription,
      PeerConnection.fresh]

/-- What a call that its observer reported to has seen of the operations. -/
theorem reported_final (x : Reported offer) :
    ∃ s ok, (machine offer).run x.events = some s ∧ .remoteComplete ok ∈ x.events ∧
      .localComplete x.result ∈ x.events ∧
      s.pc.remoteDescription = (if ok then some offer else none) ∧
      s.pc.localDescription =
        x.result.map (if ok then Description.answer offer else Description.offer) := by
  obtain ⟨s, hrun, hreported⟩ := x.final
  have ho := orderOK_run x.events s hrun
  have hhist := historyOK_run x.events s hrun
  obtain ⟨hdone, -, hd⟩ := (frameOK_run x.events s hrun).ready x.result (reported_eq_some hreported)
  obtain ⟨result, hl⟩ := ho.called.mp (by simp [hdone])
  obtain ⟨ok, hr⟩ := ho.remoteFirst result hl
  obtain ⟨hremote, hlocal⟩ := completedPc_eq offer hr hl
  rw [← ho.pc] at hremote hlocal
  have hresult : x.result = result := by
    rw [hd, hlocal, Option.map_map]
    cases ok <;> cases result <;> rfl
  rw [hresult]
  exact ⟨s, ok, hrun, (hhist.remote ok).mp hr, (hhist.localDescription result).mp hl, hremote,
    hlocal⟩

/-- Each operation completes once. -/
theorem remoteComplete_unique (x : Reported offer) {ok ok' : Bool}
    (h : .remoteComplete ok ∈ x.events) (h' : .remoteComplete ok' ∈ x.events) : ok = ok' := by
  obtain ⟨s, hrun, -⟩ := x.final
  have hhist := historyOK_run x.events s hrun
  have hr := (hhist.remote ok).mpr h
  rw [(hhist.remote ok').mpr h'] at hr
  simpa [eq_comm] using hr

theorem localComplete_unique (x : Reported offer) {result result' : Option Bytes}
    (h : .localComplete result ∈ x.events) (h' : .localComplete result' ∈ x.events) :
    result = result' := by
  obtain ⟨s, hrun, -⟩ := x.final
  have hhist := historyOK_run x.events s hrun
  have hl := (hhist.localDescription result).mpr h
  rw [(hhist.localDescription result').mpr h'] at hl
  simpa [eq_comm] using hl

/-- The function returns what follows the wait of the run. -/
theorem Call.result {lib : Library} (c : Call lib) (self : PcFactory) :
    (createPeerConnection lib self c.buffer c.length).2 = afterWait (.ready c.run.result) := by
  rw [c.accepted.result, c.wait_eq]

/--
**When the answer that is returned is an answer to the offer.**

Take any call whose offer parses and any run of its hand-off in which both observers
report before the wait ends.  If the function returns an object with type `answer`, the
connection has applied the offer and the text is the answer it made for that offer,
just in the runs without this combination: `SetRemoteDescription` failed, and
`SetLocalDescription` succeeded with a description that can be dumped.
-/
theorem answer_meaning_iff (lib : Library) (self : PcFactory) (c : Call lib) :
    ∃ s, (machine c.offer).run c.run.events = some s ∧
      ((∀ text, (createPeerConnection lib self c.buffer c.length).2 = .ok text →
          IsAnswer (bytesOf text) → AnswersOffer c.offer s.pc text) ↔
        ¬ MisLabels c.run.events) := by
  obtain ⟨s, ok, hrun, hremote, hlocal, hpcRemote, hpcLocal⟩ := reported_final c.run
  refine ⟨s, hrun, ?_⟩
  rw [c.result self]
  refine ⟨?_, ?_⟩
  · intro hmeaning ⟨hfailed, sdp, hsdp, hutf⟩
    obtain rfl : ok = false := remoteComplete_unique c.run hremote hfailed
    have hresult : c.run.result = some sdp := localComplete_unique c.run hlocal hsdp
    obtain ⟨text, hdump⟩ := dumpAnswer_isOk.mpr hutf
    obtain ⟨happlied, -⟩ := hmeaning text (by rw [hresult]; exact hdump)
      (dumpAnswer_answerText hdump).isAnswer
    simp [hpcRemote] at happlied
  · intro hgood text htext hanswer
    obtain ⟨sdp, hready, hdump⟩ := afterWait_isAnswer htext hanswer
    have hresult : c.run.result = some sdp := by simpa using hready
    have hok : ok = true := by
      by_contra hfalse
      rw [Bool.not_eq_true] at hfalse
      refine hgood ⟨hfalse ▸ hremote, sdp, hresult ▸ hlocal, ?_⟩
      exact dumpAnswer_isOk.mp ⟨text, hdump⟩
    refine ⟨by simp [hpcRemote, hok], sdp, ?_, dumpAnswer_answerText hdump⟩
    simp [hpcLocal, hresult, hok]

/-- The remote offer is refused, and a local description made. -/
def refused : List Event :=
  [.http false, .task, .remoteComplete false, .task, .localComplete (some (bytesOf sdpText)),
    .observer, .observer, .observer, .observer, .http false, .http false, .http false]

/-- A call of the well-behaved client with that run. -/
def refusedCall : Call cooperative where
  buffer := bytesOf offerText
  length := toInt (bytesOf offerText).length
  offer := bytesOf sdpText
  accepted := cooperative_accepts
  run := ⟨refused, some (bytesOf sdpText), by decide⟩
  wait_eq := rfl

/-- The client is then sent the offer of the server, as an answer. -/
theorem refused_mislabelled :
    ∃ (s : Handoff) (text : String),
      (machine (bytesOf sdpText)).run refused = some s ∧
      s.pc.localDescription = some (.offer (bytesOf sdpText)) ∧
      (createPeerConnection cooperative ⟨0⟩ refusedCall.buffer refusedCall.length).2 = .ok text ∧
      IsAnswer (bytesOf text) ∧ ¬ AnswersOffer (bytesOf sdpText) s.pc text := by
  have hutf : utf8 (bytesOf sdpText) ≠ none := by simp [utf8_bytesOf]
  obtain ⟨text, hdump⟩ := dumpAnswer_isOk.mpr hutf
  have hmap : ((machine (bytesOf sdpText)).run refused).map (fun s => s.pc.localDescription) =
      some (some (.offer (bytesOf sdpText))) := by decide
  obtain ⟨s, hrun, hpc⟩ := Option.map_eq_some_iff.mp hmap
  refine ⟨s, text, hrun, hpc, ?_, (dumpAnswer_answerText hdump).isAnswer, ?_⟩
  · rw [refusedCall.result]
    exact hdump
  · intro ⟨_, sdp, hanswer, _⟩
    rw [hpc] at hanswer
    simp at hanswer

end WebrtcEchoes.Libwebrtc
