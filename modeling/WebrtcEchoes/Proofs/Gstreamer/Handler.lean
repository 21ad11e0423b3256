/-
When the gstreamer handler keeps its contract.

A request has an offer when its body is an object with a string as its first member `sdp`.
Without one the handler replies 400, and with one it replies 200 or 501 by what became of
the answer, except in two places where it does not get to a reply: an assertion of
`set_offer` fails for a text that is no SDP, and the local `answer` is read although nothing
has written it when the promise is replied without an answer.

What the handler prints for an answer escapes every byte as a string of the grammar does, so
it is read as the answer by any reader.
-/
import WebrtcEchoes.Gstreamer.Handler
import WebrtcEchoes.Proofs.AnswerText

namespace WebrtcEchoes.Gstreamer.Handler

open Server

variable {δ : Type}

/-- The body holds an object whose first member `sdp` is the string `sdp`.  Further members of
the name may follow it, and are not looked at. -/
def HasOffer (lib : Library δ) (body sdp : Bytes) : Prop :=
  body ≠ [] ∧ ∃ members, lib.parse (cString body) = some (.object members) ∧
    (members.find? fun m => m.1 = ascii "sdp").map Prod.snd = some (.string sdp)

/-- The answer description was obtained for the offer. -/
def Obtained (lib : Library δ) (body : Bytes) (answer : δ) : Prop :=
  ∃ sdp, HasOffer lib body sdp ∧ createWebrtc lib = true ∧ lib.createAnswer sdp = .answer answer

/-- What a client may rely on. -/
structure Contract (lib : Library δ) (body : Bytes) (h : Handled) : Prop where
  /-- No assertion fails and no unwritten local is read. -/
  running : h.process = .running
  oneReply : ∃ r, h.replies = [r] ∧
    (r.code = 200 ↔ ∃ answer, Obtained lib body answer) ∧
    (∀ answer, Obtained lib body answer → ("Content-type", "application/json") ∈ r.headers ∧
      ∃ text, r.body = some text ∧ AnswerText (cString (lib.asText answer)) text) ∧
    (r.code = 400 ↔ ¬ ∃ sdp, HasOffer lib body sdp) ∧
    (r.code = 501 ↔ (∃ sdp, HasOffer lib body sdp) ∧ ¬ ∃ answer, Obtained lib body answer)

/-- The offer is no SDP, or the answer promise is replied without an answer. -/
def Faults (lib : Library δ) (body : Bytes) : Prop :=
  ∃ sdp, HasOffer lib body sdp ∧ createWebrtc lib = true ∧
    (lib.parseBuffer sdp = false ∨ lib.createAnswer sdp = .noAnswer)

/-! ### The text of an answer -/

theorem pieceOf_text (b : UInt8) : (Json.pieceOf b).text = escape b := by
  have hall : ∀ n : Fin 256, (Json.pieceOf (UInt8.ofNat n)).text = escape (UInt8.ofNat n) := by
    decide +kernel
  have hb := hall ⟨b.toNat, b.toNat_lt⟩
  rwa [UInt8.ofNat_toNat] at hb

theorem printString_eq (text : Bytes) :
    printString text = Json.stringText (Json.pieces (cString text)) := by
  unfold printString Json.stringText Json.content Json.pieces
  rw [List.flatMap_map]
  simp only [pieceOf_text]
  rfl

/-- **What the handler prints is read as an answer with its text.** -/
theorem printAnswer_answerText (text : Bytes) : AnswerText (cString text) (printAnswer text) := by
  have hopen : ascii "\x7b\n\t\"type\":\t\"answer\",\n\t\"sdp\":\t" =
      123 :: 10 :: 9 :: (Json.stringText (Json.pieces (Utf8.encode "type".toList)) ++
        58 :: 9 :: (Json.stringText (Json.pieces (Utf8.encode "answer".toList)) ++
          44 :: 10 :: 9 ::
            (Json.stringText (Json.pieces (Utf8.encode "sdp".toList)) ++ [58, 9]))) := by
    decide +kernel
  have hclose : ascii "\n\x7d" = [10, 125] := by decide
  have hdoc : printAnswer text =
      (answerDoc false [.newline, .tab] [.tab] [.newline] (cString text)).text := by
    rw [printAnswer, hopen, hclose, printString_eq]
    simp [answerDoc, Json.Doc.text, Json.Members.text, Json.Space.text, Json.Blank.byte]
  rw [hdoc]
  exact answerDoc_answerText false [.newline, .tab] [.tab] [.newline] (cString text)

/-! ### The offer -/

theorem getMember_eq (name : Bytes) (members : List (Bytes × CJson)) :
    getMember name members = (members.find? fun m => m.1 = name).map Prod.snd := by
  induction members with
  | nil => rfl
  | cons m rest ih =>
      obtain ⟨string, item⟩ := m
      by_cases h : string = name
      · simp [getMember, h]
      · simp [getMember, h, ih]

theorem getObjectItem_eq_string {name sdp : Bytes} {json : Option CJson} :
    getObjectItem name json = some (.string sdp) ↔
      ∃ members, json = some (.object members) ∧
        (members.find? fun m => m.1 = name).map Prod.snd = some (.string sdp) := by
  refine ⟨?_, ?_⟩
  · intro h
    match json, h with
    | some (.object members), h => exact ⟨members, rfl, by rw [← getMember_eq]; exact h⟩
  · rintro ⟨members, rfl, h⟩
    show getMember name members = _
    rw [getMember_eq, h]

theorem HasOffer.unique {lib : Library δ} {body sdp sdp' : Bytes} (h : HasOffer lib body sdp)
    (h' : HasOffer lib body sdp') : sdp = sdp' := by
  obtain ⟨-, members, hparse, hfind⟩ := h
  obtain ⟨-, members', hparse', hfind'⟩ := h'
  obtain rfl : members = members' := by simpa using hparse.symm.trans hparse'
  simpa using hfind.symm.trans hfind'

/-- What holds of some offer of a body holds of the one offer that it has. -/
theorem HasOffer.exists_iff {lib : Library δ} {body sdp : Bytes} (h : HasOffer lib body sdp)
    {P : Bytes → Prop} : (∃ sdp', HasOffer lib body sdp' ∧ P sdp') ↔ P sdp := by
  refine ⟨?_, fun hP => ⟨sdp, h, hP⟩⟩
  rintro ⟨sdp', hsdp', hP⟩
  rw [h.unique hsdp']
  exact hP

theorem obtained_iff {lib : Library δ} {body sdp : Bytes} (hsdp : HasOffer lib body sdp)
    (answer : δ) :
    Obtained lib body answer ↔
      createWebrtc lib = true ∧ lib.createAnswer sdp = .answer answer :=
  hsdp.exists_iff

/-- The branches of the handler are those of the offer. -/
theorem onHttpRequest_cases (lib : Library δ) {req : Request} (htype : req.type ≠ .options) :
    (∃ sdp, HasOffer lib req.body sdp ∧ onHttpRequest lib req = handleSdp lib sdp) ∨
      (¬ ∃ sdp, HasOffer lib req.body sdp) ∧
        ∃ text, onHttpRequest lib req = ⟨[badRequest text], .running⟩ := by
  by_cases hbody : req.body = []
  · refine Or.inr ⟨fun ⟨sdp, hne, _⟩ => hne hbody, "Request was missing the SDP offer.", ?_⟩
    simp only [onHttpRequest, if_neg htype, hbody, List.length_nil, Nat.lt_irrefl, if_false]
  · have hpos : 0 < req.body.length := List.length_pos_iff.mpr hbody
    by_cases hoffer : ∃ sdp, HasOffer lib req.body sdp
    · obtain ⟨sdp, hsdp⟩ := hoffer
      refine Or.inl ⟨sdp, hsdp, ?_⟩
      simp only [onHttpRequest, if_neg htype, if_pos hpos, getObjectItem_eq_string.mpr hsdp.2]
    · refine Or.inr ⟨hoffer, "Could not parse SDP offer.", ?_⟩
      simp only [onHttpRequest, if_neg htype, if_pos hpos]
      split
      · rename_i sdp hitem
        exact absurd ⟨sdp, hbody, getObjectItem_eq_string.mp hitem⟩ hoffer
      · rfl

/-! ### The replies -/

/-- A request without an offer is turned down as it should be. -/
theorem contract_of_no_offer {lib : Library δ} {body : Bytes}
    (h : ¬ ∃ sdp, HasOffer lib body sdp) (text : String) :
    Contract lib body ⟨[badRequest text], .running⟩ := by
  have hno : ¬ ∃ answer, Obtained lib body answer := fun ⟨_, sdp, hsdp, _⟩ => h ⟨sdp, hsdp⟩
  refine ⟨rfl, badRequest text, rfl, ?_, ?_, ?_, ?_⟩
  · exact iff_of_false (by simp [badRequest, replyText]) hno
  · intro answer ha
    exact absurd ⟨answer, ha⟩ hno
  · exact iff_of_true rfl h
  · exact iff_of_false (by simp [badRequest, replyText]) fun hc => h hc.1

/-- An offer for which there is no answer gets the error of the server. -/
theorem contract_of_no_answer {lib : Library δ} {body sdp : Bytes} (hsdp : HasOffer lib body sdp)
    (hno : ¬ ∃ answer, Obtained lib body answer) (text : String) :
    Contract lib body ⟨[serverError text], .running⟩ := by
  refine ⟨rfl, serverError text, rfl, ?_, ?_, ?_, ?_⟩
  · exact iff_of_false (by simp [serverError, replyText]) hno
  · intro answer ha
    exact absurd ⟨answer, ha⟩ hno
  · exact iff_of_false (by simp [serverError, replyText]) fun hc => hc ⟨sdp, hsdp⟩
  · exact iff_of_true rfl ⟨⟨sdp, hsdp⟩, hno⟩

/-- The answer is sent. -/
theorem contract_of_answer {lib : Library δ} {body : Bytes} {answer : δ}
    (ha : Obtained lib body answer) : Contract lib body ⟨[answerReply lib answer], .running⟩ := by
  obtain ⟨sdp, hsdp, hcreated, hanswer⟩ := ha
  refine ⟨rfl, answerReply lib answer, rfl, ?_, ?_, ?_, ?_⟩
  · exact iff_of_true rfl ⟨answer, sdp, hsdp, hcreated, hanswer⟩
  · intro answer' ha'
    obtain ⟨-, hanswer'⟩ := (obtained_iff hsdp answer').mp ha'
    obtain rfl : answer = answer' := by simpa using hanswer.symm.trans hanswer'
    exact ⟨by simp [answerReply], _, rfl, printAnswer_answerText _⟩
  · exact iff_of_false (by simp [answerReply]) fun hc => hc ⟨sdp, hsdp⟩
  · exact iff_of_false (by simp [answerReply]) fun hc => hc.2 ⟨answer, sdp, hsdp, hcreated, hanswer⟩

theorem faults_iff {lib : Library δ} {body sdp : Bytes} (hsdp : HasOffer lib body sdp) :
    Faults lib body ↔ createWebrtc lib = true ∧
      (lib.parseBuffer sdp = false ∨ lib.createAnswer sdp = .noAnswer) :=
  hsdp.exists_iff

/-- The branch with an offer keeps the contract just when it gets to a reply. -/
theorem contract_handleSdp {lib : Library δ} {body sdp : Bytes} (hsdp : HasOffer lib body sdp) :
    Contract lib body (handleSdp lib sdp) ↔ ¬ Faults lib body := by
  rw [faults_iff hsdp]
  by_cases hcreated : createWebrtc lib = true
  · cases hparse : lib.parseBuffer sdp with
    | false =>
        refine iff_of_false (fun hc => ?_) (by simp [hcreated])
        have hrun := hc.running
        simp [handleSdp, hcreated, hparse] at hrun
    | true =>
        simp only [handleSdp, hcreated, hparse, if_true]
        cases hanswer : lib.createAnswer sdp with
        | answer answer =>
            refine iff_of_true ?_ (by simp)
            exact contract_of_answer ((obtained_iff hsdp answer).mpr ⟨hcreated, hanswer⟩)
        | noAnswer =>
            refine iff_of_false (fun hc => ?_) (by simp)
            exact absurd hc.running (by simp [afterWait, structureGet, sendAnswer])
        | notReplied =>
            refine iff_of_true ?_ (by simp)
            refine contract_of_no_answer hsdp ?_ _
            rintro ⟨answer, ha⟩
            simp [obtained_iff hsdp, hanswer] at ha
  · refine iff_of_true ?_ (by simp [hcreated])
    simp only [handleSdp, hcreated]
    refine contract_of_no_answer hsdp ?_ _
    rintro ⟨answer, ha⟩
    exact hcreated ((obtained_iff hsdp answer).mp ha).1

/--
**A request gets the reply it should get just when nothing faults.**

For every body and whatever the libraries do, there is exactly one reply, 200 with the
answer, 400 without an offer and 501 otherwise, and no unwritten local is read, if and only
if it is not the case that a connection was made for an offer which is no SDP or for which
the promise was replied without an answer.
-/
theorem reply_contract_iff (lib : Library δ) (req : Request) (htype : req.type ≠ .options) :
    Contract lib req.body (onHttpRequest lib req) ↔ ¬ Faults lib req.body := by
  rcases onHttpRequest_cases lib htype with ⟨sdp, hsdp, heq⟩ | ⟨hno, text, heq⟩
  · rw [heq]
    exact contract_handleSdp hsdp
  · rw [heq]
    exact iff_of_true (contract_of_no_offer hno text) fun ⟨sdp, hsdp, _⟩ => hno ⟨sdp, hsdp⟩

/-- A library that reads every body as an object with the SDP `v=0`. -/
def offerLibrary (reply : Reply Unit) : Library Unit where
  parse := fun _ => some (.object [(ascii "sdp", .string (ascii "v=0"))])
  parseLaunch := true
  setState := true
  parseBuffer := fun sdp => sdp ≠ []
  createAnswer := fun _ => reply
  asText := fun _ => ascii "v=0"

/-- The body of a request with that SDP. -/
def offerRequest : Request := ⟨.post, ascii "\x7b\"sdp\":\"v=0\"\x7d"⟩

theorem offerRequest_hasOffer (reply : Reply Unit) :
    HasOffer (offerLibrary reply) offerRequest.body (ascii "v=0") := by
  refine ⟨by decide, _, rfl, ?_⟩
  simp

/-- An answer is obtained and sent. -/
theorem offerRequest_answered :
    Contract (offerLibrary (.answer ())) offerRequest.body
      (onHttpRequest (offerLibrary (.answer ())) offerRequest) := by
  refine (reply_contract_iff _ offerRequest (by decide)).mpr ?_
  rw [faults_iff (offerRequest_hasOffer _)]
  simp [offerLibrary, ascii]

/-- The promise is replied without an answer: `answer` is read all the same. -/
theorem noAnswer_reads_unwritten :
    offerRequest.type ≠ .options ∧
      onHttpRequest (offerLibrary .noAnswer) offerRequest = ⟨[], .undefined⟩ ∧
      ¬ Contract (offerLibrary .noAnswer) offerRequest.body
        (onHttpRequest (offerLibrary .noAnswer) offerRequest) := by
  have hhandled : onHttpRequest (offerLibrary .noAnswer) offerRequest = ⟨[], .undefined⟩ := rfl
  refine ⟨by decide, hhandled, fun hc => ?_⟩
  have hrun := hc.running
  rw [hhandled] at hrun
  exact absurd hrun (by decide)

/-! ### The wait inside a schedule -/

/-- The reply that the negotiation stands for. -/
def Response.reply (lib : Library δ) : Response δ → HttpReply
  | .answer answer => answerReply lib answer
  | .timedOut => serverError "Timed out waiting for webrtc SDP answer."

/-- **In every schedule the handler does behind its wait what it does here.** -/
theorem waitOver_eq (lib : Library δ) {s : Negotiation δ} {reply : Reply δ}
    (hpromise : s.createAnswerPromise = .ended reply) (hresponse : s.response = none)
    (hprocess : s.process = .running) :
    ∃ s', waitOver s = some s' ∧
      afterWait lib reply = ⟨s'.response.toList.map (Response.reply lib), s'.process⟩ := by
  cases reply with
  | answer answer =>
      refine ⟨_, by rw [waitOver, hpromise], ?_⟩
      simp [afterWait, structureGet, sendAnswer, hprocess, Response.reply]
  | noAnswer =>
      refine ⟨_, by rw [waitOver, hpromise], ?_⟩
      simp [afterWait, structureGet, sendAnswer, hresponse]
  | notReplied =>
      refine ⟨_, by rw [waitOver, hpromise], ?_⟩
      simp [afterWait, hprocess, Response.reply]

end WebrtcEchoes.Gstreamer.Handler
