/-
The exits of `PcFactory::CreatePeerConnection`.

`Accepts` says that nothing before the wait goes wrong, and then the function returns
what follows the wait.  Otherwise it throws, or returns the plain text `error`.  What
`dump` writes is read as an answer, and the texts of the failures are not, because they
do not begin as an object does; and the text of an answer has no NUL in it, because
`dump` escapes the control characters.
-/
import WebrtcEchoes.Libwebrtc.PcFactory
import WebrtcEchoes.Proofs.Libwebrtc.Json

namespace WebrtcEchoes.Libwebrtc

/-- A session description without media. -/
def sdpText : String := "v=0\r\no=- 0 0 IN IP4 127.0.0.1\r\ns=-\r\nt=0 0\r\n"

/-! ### The text of an answer -/

/-- The answer's text around the escaped SDP. -/
theorem dumpAnswer_eq_ok {sdp : Bytes} {text : String} (h : dumpAnswer sdp = .ok text) :
    ∃ s, utf8 sdp = some s ∧
      text.toList = "\x7b\"sdp\":\"".toList ++ s.toList.flatMap escape ++
        "\",\"type\":\"answer\"\x7d".toList := by
  unfold dumpAnswer dumpEscaped at h
  split at h
  · simp [Except.map] at h
  · rename_i s hs
    simp only [Except.map, Except.ok.injEq] at h
    refine ⟨s, hs, ?_⟩
    rw [← h]
    simp only [String.toList_append, String.toList_ofList]

theorem dumpAnswer_isOk {sdp : Bytes} : (∃ text, dumpAnswer sdp = .ok text) ↔ utf8 sdp ≠ none := by
  unfold dumpAnswer dumpEscaped
  cases h : utf8 sdp with
  | none => simp [Except.map]
  | some s => simp [Except.map]

/-- An answer has no NUL in it. -/
theorem nul_not_mem_of_dumpAnswer {sdp : Bytes} {text : String} (h : dumpAnswer sdp = .ok text) :
    '\x00' ∉ text.toList := by
  obtain ⟨s, -, htext⟩ := dumpAnswer_eq_ok h
  rw [htext]
  intro hmem
  rcases List.mem_append.mp hmem with hmem | hmem
  · rcases List.mem_append.mp hmem with hmem | hmem
    · exact absurd hmem (by decide)
    · obtain ⟨c, -, hc⟩ := List.mem_flatMap.mp hmem
      exact escape_ne_nul hc rfl
  · exact absurd hmem (by decide)

/-- **What `CreatePeerConnection` dumps is read as an answer with its SDP.** -/
theorem dumpAnswer_answerText {sdp : Bytes} {text : String} (h : dumpAnswer sdp = .ok text) :
    AnswerText sdp (bytesOf text) := by
  obtain ⟨s, hs, htext⟩ := dumpAnswer_eq_ok h
  have hsdp : Utf8.encode s.toList = sdp := by rw [← bytesOf_eq_encode, bytesOf_of_utf8 hs]
  have hopen : Utf8.encode "\x7b\"sdp\":\"".toList =
      123 :: (Json.stringText (Json.pieces (Utf8.encode "sdp".toList)) ++ [58, 34]) := by
    decide +kernel
  have hclose : Utf8.encode "\",\"type\":\"answer\"\x7d".toList =
      34 :: 44 :: (Json.stringText (Json.pieces (Utf8.encode "type".toList)) ++
        58 :: (Json.stringText (Json.pieces (Utf8.encode "answer".toList)) ++ [125])) := by
    decide +kernel
  have hdoc : bytesOf text = (answerDoc true [] [] [] sdp).text := by
    have happend : ∀ l l', Utf8.encode (l ++ l') = Utf8.encode l ++ Utf8.encode l' := by
      simp [Utf8.encode]
    rw [bytesOf_eq_encode, htext, happend, happend, encode_escapes, hopen, hclose, hsdp]
    simp [answerDoc, Json.Doc.text, Json.Members.text, Json.Space.text, Json.stringText]
  rw [hdoc]
  exact answerDoc_answerText true [] [] [] sdp

/-! ### The way to the wait -/

/-- Nothing before the wait goes wrong: the first `length` bytes are an object with the
string member `sdp`, and the library takes the offer and makes a connection for it. -/
structure Accepts (lib : Library) (buffer : Bytes) (length : Int) (offer : Bytes) : Prop where
  length_nonneg : 0 ≤ length
  json : ∃ members, lib.parse (buffer.take length.toNat) = some (.object members) ∧
    members.lookup "sdp" = some (.string offer)
  factory : lib.createPeerConnectionOrError = true
  track : lib.createAudioTrack = true
  sender : lib.addTrack = true
  description : lib.createSessionDescription offer = true

/-- **A call that reaches the wait returns what follows it.** -/
theorem Accepts.result {lib : Library} {buffer : Bytes} {length : Int} {offer : Bytes}
    (h : Accepts lib buffer length offer) (self : PcFactory) :
    (createPeerConnection lib self buffer length).2 = afterWait lib.wait := by
  obtain ⟨members, hparse, hsdp⟩ := h.json
  have hlen : ¬ length < 0 := by have := h.length_nonneg; omega
  unfold createPeerConnection
  rw [if_neg hlen, hparse]
  simp only [h.factory, h.track, h.sender, not_true_eq_false, if_false]
  simp [applyOffer, Json.subscript, hsdp, Json.toStdString, bind, Except.bind, h.description]

theorem toStdString_eq_ok {v : Json} {s : Bytes} (h : v.toStdString = .ok s) :
    v = .string s := by
  cases v with
  | string t => rw [show t = s by simpa [Json.toStdString] using h]
  | _ => simp [Json.toStdString] at h

theorem subscript_eq_string {v : Json} {key : String} {s : Bytes}
    (h : v.subscript key = .ok (.string s)) :
    ∃ members, v = .object members ∧ members.lookup key = some (.string s) := by
  cases v with
  | object members =>
      refine ⟨members, rfl, ?_⟩
      cases hlook : members.lookup key with
      | none => simp [Json.subscript, hlook] at h
      | some w => rw [show w = .string s by simpa [Json.subscript, hlook] using h]
  | _ => simp [Json.subscript] at h

/-- What follows the connection, for any value the body parses to. -/
theorem applyOffer_cases (lib : Library) (offerJson : Json) :
    (∃ members offer, offerJson = .object members ∧
        members.lookup "sdp" = some (.string offer) ∧
        lib.createSessionDescription offer = true) ∨
      applyOffer lib offerJson = .ok "error" ∨ ∃ exn, applyOffer lib offerJson = .error exn := by
  cases hsub : offerJson.subscript "sdp" with
  | error exn => exact Or.inr (Or.inr ⟨exn, by simp [applyOffer, hsub, bind, Except.bind]⟩)
  | ok member =>
      cases hstr : member.toStdString with
      | error exn =>
          exact Or.inr (Or.inr ⟨exn, by simp [applyOffer, hsub, hstr, bind, Except.bind]⟩)
      | ok offer =>
          cases hcsd : lib.createSessionDescription offer with
          | false =>
              refine Or.inr (Or.inl ?_)
              simp [applyOffer, hsub, hstr, hcsd, bind, Except.bind, pure, Except.pure]
          | true =>
              rw [toStdString_eq_ok hstr] at hsub
              obtain ⟨members, hobj, hlook⟩ := subscript_eq_string hsub
              exact Or.inl ⟨members, offer, hobj, hlook, hcsd⟩

/-- **A call either reaches the wait, or returns the text `error`, or throws.** -/
theorem createPeerConnection_cases (lib : Library) (self : PcFactory) (buffer : Bytes)
    (length : Int) :
    (∃ offer, Accepts lib buffer length offer) ∨
      (createPeerConnection lib self buffer length).2 = .ok "error" ∨
      ∃ exn, (createPeerConnection lib self buffer length).2 = .error exn := by
  by_cases hlen : length < 0
  · refine Or.inr (Or.inr ⟨.lengthError, ?_⟩)
    simp [createPeerConnection, hlen]
  cases hparse : lib.parse (buffer.take length.toNat) with
  | none =>
      refine Or.inr (Or.inr ⟨.parseError, ?_⟩)
      simp [createPeerConnection, hlen, hparse]
  | some offerJson =>
      by_cases hmade : lib.createPeerConnectionOrError ∧ lib.createAudioTrack ∧ lib.addTrack
      · obtain ⟨hpc, htrack, hsender⟩ := hmade
        have heq : (createPeerConnection lib self buffer length).2 = applyOffer lib offerJson := by
          simp [createPeerConnection, hlen, hparse, hpc, htrack, hsender]
        rw [heq]
        refine (applyOffer_cases lib offerJson).imp_left ?_
        intro ⟨members, offer, hobj, hsdp, hcsd⟩
        rw [hobj] at hparse
        exact ⟨offer, by omega, ⟨members, hparse, hsdp⟩, hpc, htrack, hsender, hcsd⟩
      · refine Or.inr (Or.inl ?_)
        unfold createPeerConnection
        rw [if_neg hlen, hparse]
        simp only
        split_ifs with hpc htrack hsender
        · exact absurd ⟨hpc, htrack, hsender⟩ hmade
        · rfl
        · rfl
        · rfl

/-- No text the function returns is cut short where it is printed with `%s`. -/
theorem nul_not_mem_of_createPeerConnection {lib : Library} {self : PcFactory} {buffer : Bytes}
    {length : Int} {text : String}
    (h : (createPeerConnection lib self buffer length).2 = .ok text) : '\x00' ∉ text.toList := by
  rcases createPeerConnection_cases lib self buffer length with ⟨offer, ha⟩ | he | ⟨exn, he⟩
  · rw [ha.result] at h
    cases hwait : lib.wait with
    | timedOut =>
        have htext : "" = text := by simpa [hwait, afterWait] using h
        rw [← htext]
        decide
    | ready localDescription =>
        cases localDescription with
        | none =>
            have htext : "Failed to set local description." = text := by
              simpa [hwait, afterWait] using h
            rw [← htext]
            decide
        | some d =>
            rw [hwait] at h
            exact nul_not_mem_of_dumpAnswer h
  · rw [he] at h
    rw [← Except.ok.inj h]
    decide
  · rw [he] at h
    simp at h

/-- What follows the wait is an answer only as the dump of the description that is there. -/
theorem afterWait_isAnswer {wait : Wait} {text : String} (h : afterWait wait = .ok text)
    (hanswer : IsAnswer (bytesOf text)) :
    ∃ d, wait = .ready (some d) ∧ dumpAnswer d = .ok text := by
  cases wait with
  | timedOut =>
      have htext : "" = text := by simpa [afterWait] using h
      rw [← htext] at hanswer
      exact absurd hanswer (not_isAnswer (by decide))
  | ready localDescription =>
      cases localDescription with
      | none =>
          have htext : "Failed to set local description." = text := by simpa [afterWait] using h
          rw [← htext] at hanswer
          exact absurd hanswer (not_isAnswer (by decide))
      | some d => exact ⟨d, rfl, h⟩

end WebrtcEchoes.Libwebrtc
