/-
The HTTP contract of the libwebrtc server.

A client learns from the status alone whether it got an answer, so a reply should have
status 200 exactly when its body is read as the answer with the local description, and
every request should get one.  The handler keeps this for a request it rejects itself and for
one that goes through to the end.  In between, the text of a failure is sent with
status 200 and an exception is not caught.
-/
import WebrtcEchoes.Libwebrtc.HttpSimpleServer
import WebrtcEchoes.Proofs.Libwebrtc.PcFactory
import Mathlib.Data.List.TakeWhile

namespace WebrtcEchoes.Libwebrtc

/-- The reply carries the answer with the local description of its peer connection. -/
def Answers (lib : Library) (r : Reply) : Prop :=
  ∃ sdp text, lib.wait = .ready (some sdp) ∧ r.body = some text ∧ AnswerText sdp (bytesOf text)

/-- What a client may rely on. -/
structure Contract (lib : Library) (h : Handled) : Prop where
  noThrow : h.thrown = none
  oneReply : ∃ r, h.replies = [r] ∧ (r.code = 200 ↔ Answers lib r) ∧
    (¬ Answers lib r → 400 ≤ r.code)

/-- The request goes through to an answer. -/
def Served (lib : Library) (body : Bytes) : Prop :=
  (∃ offer, Accepts lib body (toInt body.length) offer) ∧
    ∃ sdp, lib.wait = .ready (some sdp) ∧ utf8 sdp ≠ none

theorem cStr_eq_self {text : String} (h : '\x00' ∉ text.toList) : cStr text = text := by
  have htake : text.toList.takeWhile (· ≠ '\x00') = text.toList := by
    rw [List.takeWhile_eq_self_iff]
    intro c hc
    have hne : c ≠ '\x00' := by
      intro heq
      exact h (heq ▸ hc)
    simpa using hne
  unfold cStr
  rw [htake, String.ofList_toList]

theorem respond_of_error {call : PcFactory × Except Exn String} {exn : Exn}
    (h : call.2 = .error exn) : (respond call).2 = ⟨[], some exn⟩ := by
  obtain ⟨factory, result⟩ := call
  obtain rfl : result = .error exn := h
  rfl

theorem respond_of_ok {call : PcFactory × Except Exn String} {answer : String}
    (h : call.2 = .ok answer) :
    ∃ r, (respond call).2 = ⟨[r], none⟩ ∧ r.code = 200 ∧ r.body = some (cStr answer) := by
  obtain ⟨factory, result⟩ := call
  obtain rfl : result = .ok answer := h
  exact ⟨_, rfl, rfl, rfl⟩

theorem not_answers_of_body {lib : Library} {r : Reply} {text : String}
    (hbody : r.body = some text) (h : ¬ IsAnswer (bytesOf text)) : ¬ Answers lib r := by
  intro ⟨sdp, text', _, hbody', hanswer⟩
  obtain rfl : text = text' := Option.some.inj (hbody.symm.trans hbody')
  exact h hanswer.isAnswer

/-- A request turned down with a text of the handler's own gets its error status. -/
theorem contract_badRequest (lib : Library) {text : String}
    (h : ¬ IsAnswer (bytesOf text)) : Contract lib ⟨[badRequest text], none⟩ := by
  have hno : ¬ Answers lib (badRequest text) := not_answers_of_body rfl h
  refine ⟨rfl, badRequest text, rfl, ?_, ?_⟩
  · exact iff_of_false (fun h400 => absurd (show 400 = 200 from h400) (by decide)) hno
  · intro _
    exact Nat.le_refl 400

/-- A reply with status 200 keeps the contract just when it is the answer. -/
theorem contract_ok_iff {lib : Library} {r : Reply} (h : r.code = 200) :
    Contract lib ⟨[r], none⟩ ↔ Answers lib r := by
  refine ⟨?_, ?_⟩
  · intro hc
    obtain ⟨r', hr, hcode, -⟩ := hc.oneReply
    obtain rfl : r = r' := by simpa using hr
    exact hcode.mp h
  · intro ha
    exact ⟨rfl, r, rfl, iff_of_true h ha, fun hno => absurd ha hno⟩

/-- What a call with a body and a factory has to do for its result to be an answer. -/
theorem answer_iff_served (lib : Library) (factory : PcFactory) (body : Bytes) :
    (∃ sdp text, lib.wait = .ready (some sdp) ∧ AnswerText sdp (bytesOf text) ∧
        (createPeerConnection lib factory body (toInt body.length)).2 = .ok text) ↔
      Served lib body := by
  refine ⟨?_, ?_⟩
  · intro ⟨sdp, text, hwait, hanswer, hres⟩
    rcases createPeerConnection_cases lib factory body (toInt body.length) with
      ⟨offer, ha⟩ | he | ⟨exn, he⟩
    · refine ⟨⟨offer, ha⟩, sdp, hwait, dumpAnswer_isOk.mp ⟨text, ?_⟩⟩
      rw [ha.result, hwait] at hres
      exact hres
    · rw [he] at hres
      obtain rfl : "error" = text := Except.ok.inj hres
      exact absurd hanswer.isAnswer (not_isAnswer (by decide))
    · rw [he] at hres
      exact absurd hres (by simp)
  · intro ⟨⟨offer, ha⟩, sdp, hwait, hutf⟩
    obtain ⟨text, hdump⟩ := dumpAnswer_isOk.mpr hutf
    refine ⟨sdp, text, hwait, dumpAnswer_answerText hdump, ?_⟩
    rw [ha.result, hwait]
    exact hdump

/-- The reply to a call that did not throw is the answer just when the call went through. -/
theorem answers_iff_served {lib : Library} {factory : PcFactory} {body : Bytes} {answer : String}
    {r : Reply} (hres : (createPeerConnection lib factory body (toInt body.length)).2 = .ok answer)
    (hbody : r.body = some (cStr answer)) : Answers lib r ↔ Served lib body := by
  rw [← answer_iff_served lib factory body, hres]
  rw [cStr_eq_self (nul_not_mem_of_createPeerConnection hres)] at hbody
  unfold Answers
  rw [hbody]
  simp only [Option.some.injEq, Except.ok.injEq, and_comm (b := AnswerText _ _)]

/-- A call that throws did not go through. -/
theorem not_served_of_error {lib : Library} {factory : PcFactory} {body : Bytes} {exn : Exn}
    (h : (createPeerConnection lib factory body (toInt body.length)).2 = .error exn) :
    ¬ Served lib body := by
  intro hserved
  obtain ⟨sdp, text, -, -, hres⟩ := (answer_iff_served lib factory body).mpr hserved
  rw [h] at hres
  simp at hres

/--
**When the server keeps its HTTP contract.**

For a request that is not `OPTIONS`, the handler sends one reply, lets no exception out
and says with the status whether the body is the answer just in these cases: the body
is empty, or no factory is set, or the request goes through to an answer.
-/
theorem contract_iff (lib : Library) (pcFactory : Option PcFactory) (req : Request)
    (h : req.type ≠ .options) :
    Contract lib (onHttpRequest lib pcFactory req).2 ↔
      (req.body = [] ∨ pcFactory = none ∨ Served lib req.body) := by
  unfold onHttpRequest
  rw [if_neg h]
  split_ifs with hempty
  · have hbody : req.body = [] := List.eq_nil_of_length_eq_zero hempty
    have hno : ¬ IsAnswer (bytesOf "Request was missing the SDP offer.") :=
      not_isAnswer (by decide)
    exact iff_of_true (contract_badRequest lib hno) (Or.inl hbody)
  have hbody : req.body ≠ [] := fun heq => hempty (by simp [heq])
  cases pcFactory with
  | none =>
      have hno : ¬ IsAnswer (bytesOf "No handler") := not_isAnswer (by decide)
      exact iff_of_true (contract_badRequest lib hno) (Or.inr (Or.inl rfl))
  | some factory =>
      have hrhs : (req.body = [] ∨ some factory = none ∨ Served lib req.body) ↔
          Served lib req.body := by simp [hbody]
      rw [hrhs]
      show Contract lib
        (respond (createPeerConnection lib factory req.body (toInt req.body.length))).2 ↔ _
      cases hres : (createPeerConnection lib factory req.body (toInt req.body.length)).2 with
      | error exn =>
          rw [respond_of_error hres]
          refine iff_of_false (fun hc => ?_) (not_served_of_error hres)
          exact absurd hc.noThrow (by simp)
      | ok answer =>
          obtain ⟨r, hrespond, hcode, hbody⟩ := respond_of_ok hres
          rw [hrespond, contract_ok_iff hcode]
          exact answers_iff_served hres hbody

/-! ### Requests on both sides of the contract -/

theorem take_toInt {body : Bytes} (h : body.length < 0x80000000) :
    body.take (toInt body.length).toNat = body := by
  have hint : toInt body.length = body.length := by
    unfold toInt
    rw [Int.bmod_eq_of_le] <;> omega
  rw [hint, Int.toNat_natCast]
  exact List.take_length

/-- The body of a well-behaved client, and the value it parses to. -/
def offerText : String :=
  "\x7b\"sdp\":\"v=0\\r\\no=- 0 0 IN IP4 127.0.0.1\\r\\ns=-\\r\\nt=0 0\\r\\n\"," ++
    "\"type\":\"offer\"\x7d"

def offerJson : Json :=
  .object [("sdp", .string (bytesOf sdpText)), ("type", .string (bytesOf "offer"))]

/-- The library, for that body and for others that are not JSON. -/
def cooperative : Library where
  parse := fun buffer => if buffer = bytesOf offerText then some offerJson else none
  createPeerConnectionOrError := true
  createAudioTrack := true
  addTrack := true
  createSessionDescription := fun sdp => sdp = bytesOf sdpText
  setRemoteDescription := true
  wait := .ready (some (bytesOf sdpText))

theorem cooperative_parse :
    cooperative.parse ((bytesOf offerText).take (toInt (bytesOf offerText).length).toNat) =
      some offerJson := by
  rw [take_toInt (by decide)]
  simp [cooperative]

theorem cooperative_accepts :
    Accepts cooperative (bytesOf offerText) (toInt (bytesOf offerText).length)
      (bytesOf sdpText) := by
  refine ⟨by decide, ⟨_, cooperative_parse, rfl⟩, rfl, rfl, rfl, ?_⟩
  simp [cooperative]

/-- A well-behaved client is answered within the contract. -/
theorem contract_offer :
    Method.post ≠ .options ∧
      Contract cooperative
        (onHttpRequest cooperative (some ⟨0⟩) ⟨.post, bytesOf offerText⟩).2 := by
  refine ⟨by decide, (contract_iff _ _ ⟨.post, bytesOf offerText⟩ (by decide)).mpr ?_⟩
  refine Or.inr (Or.inr ⟨⟨_, cooperative_accepts⟩, bytesOf sdpText, rfl, ?_⟩)
  rw [utf8_bytesOf]
  simp

/-- The library, where no audio track can be made. -/
def trackless : Library := { cooperative with createAudioTrack := false }

theorem createPeerConnection_trackless (self : PcFactory) :
    (createPeerConnection trackless self (bytesOf offerText)
      (toInt (bytesOf offerText).length)).2 = .ok "error" := by
  have hlen : ¬ toInt (bytesOf offerText).length < 0 := by decide
  have hparse : trackless.parse
      ((bytesOf offerText).take (toInt (bytesOf offerText).length).toNat) = some offerJson := by
    rw [show trackless.parse = cooperative.parse from rfl]
    exact cooperative_parse
  unfold createPeerConnection
  rw [if_neg hlen, hparse]
  rfl

/-- A body that is not JSON gets no reply, and the failure to make a track has status 200. -/
theorem contract_broken :
    (∃ req : Request, req.type ≠ .options ∧
      (onHttpRequest cooperative (some ⟨0⟩) req).2 = ⟨[], some .parseError⟩ ∧
      ¬ Contract cooperative (onHttpRequest cooperative (some ⟨0⟩) req).2) ∧
    ∃ (req : Request) (r : Reply), req.type ≠ .options ∧
      (onHttpRequest trackless (some ⟨0⟩) req).2 = ⟨[r], none⟩ ∧
      r.code = 200 ∧ r.body = some "error" ∧
      ¬ Contract trackless (onHttpRequest trackless (some ⟨0⟩) req).2 := by
  refine ⟨⟨⟨.post, bytesOf "v=0"⟩, by decide, by decide, fun hc => ?_⟩, ?_⟩
  · exact absurd hc.noThrow (by decide)
  · obtain ⟨r, hr, hcode, hbody⟩ := respond_of_ok (createPeerConnection_trackless ⟨0⟩)
    have hreply : (onHttpRequest trackless (some ⟨0⟩) ⟨.post, bytesOf offerText⟩).2 =
        ⟨[r], none⟩ := by
      unfold onHttpRequest
      rw [if_neg (by decide), if_neg (by decide)]
      exact hr
    rw [cStr_eq_self (by decide)] at hbody
    refine ⟨⟨.post, bytesOf offerText⟩, r, by decide, hreply, hcode, hbody, ?_⟩
    rw [hreply, contract_ok_iff hcode]
    exact not_answers_of_body hbody (not_isAnswer (by decide))

end WebrtcEchoes.Libwebrtc
