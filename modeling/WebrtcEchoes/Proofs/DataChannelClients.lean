/-
Three verdicts on one data channel.

The specification of the data channel test lets a client succeed when the server responds
with the string that was sent, and fail when it responds with a different message.  The
libdatachannel client does that.  The sipsorcery client logs a different message and the
werift client ignores it, and both go on waiting, so a matching message that comes later
still makes them succeed.  The sipsorcery client also takes a binary message for the text
that its bytes spell.
-/
import WebrtcEchoes.Proofs.Libdatachannel.Client
import WebrtcEchoes.Sipsorcery.Client
import WebrtcEchoes.Werift.Client

namespace WebrtcEchoes

/-! ### The sipsorcery client -/

namespace Sipsorcery.Client

@[simp] theorem getString_payload (content : String) :
    getString (Message.text content).payload = content := by
  simp [getString, Message.payload, Utf8.decode_encode]

/-- Any matching message sets the flag, and none clears it. -/
theorem foldl_onMessage_success (sent : String) (messages : List Message) : ∀ s : State,
    ((messages.map fun m => Event.message m.payload).foldl (handle .dataChannelEcho sent)
        s).success = true ↔
      s.success = true ∨ ∃ m ∈ messages, getString m.payload = sent := by
  induction messages with
  | nil => intro s; simp
  | cons m rest ih =>
      intro s
      rw [List.map_cons, List.foldl_cons, ih]
      by_cases h : getString m.payload = sent
      · simp [handle, onMessage, h]
      · simp [handle, onMessage, h]

theorem dataChannelTest_eq_zero_iff (sent : String) (messages : List Message) :
    dataChannelTest sent messages = 0 ↔ ∃ m ∈ messages, getString m.payload = sent := by
  have hiff := foldl_onMessage_success sent messages
    { success := false, testComplete := false, closed := false }
  simp only [Bool.false_eq_true, false_or] at hiff
  rw [← hiff, dataChannelTest, main, State.result]
  split <;> simp_all

end Sipsorcery.Client

/-! ### The werift client -/

namespace Werift.Client

/-- Without a match the promise is settled by the timeout only. -/
theorem foldl_onMessage (sent : String) (messages : List Message) : ∀ settled : Settled,
    (messages.map Event.message).foldl (handle .dataChannelEcho sent) settled =
      settled.or (if .text sent ∈ messages then some true else none) := by
  induction messages with
  | nil => intro settled; simp
  | cons m rest ih =>
      intro settled
      rw [List.map_cons, List.foldl_cons, ih]
      by_cases h : m = .text sent
      · cases settled <;> simp [handle, onMessage, done, h]
      · have hne : ¬ (.text sent = m) := fun heq => h heq.symm
        simp [handle, onMessage, h, hne]

theorem dataChannelTest_eq (sent : String) (messages : List Message) :
    dataChannelTest sent messages = some (if .text sent ∈ messages then 0 else 1) := by
  rw [dataChannelTest, List.foldl_append, foldl_onMessage]
  by_cases h : .text sent ∈ messages <;> simp [h, handle, failed, exitStatus]

end Werift.Client

/-! ### Agreement -/

/-- The verdict of the specification: the first message decides. -/
def Echoed (sent : String) (messages : List Message) : Prop :=
  messages.head? = some (.text sent)

/-- Every client exits with status 0 just when the specification says so. -/
structure VerdictsAgree (sent : String) (messages : List Message) : Prop where
  libdatachannel :
    (Libdatachannel.Client.dataChannelTest sent messages).status = 0 ↔ Echoed sent messages
  sipsorcery : Sipsorcery.Client.dataChannelTest sent messages = 0 ↔ Echoed sent messages
  werift : Werift.Client.dataChannelTest sent messages = some 0 ↔ Echoed sent messages

theorem Echoed.mem {sent : String} {messages : List Message} (h : Echoed sent messages) :
    .text sent ∈ messages :=
  List.mem_of_mem_head? h

/--
**When the three clients reach the verdict of the specification.**

They do just when the first message is the text sent, or no message at all reads as that
text, be it sent as a text or as its bytes.
-/
theorem verdicts_agree_iff (sent : String) (messages : List Message) :
    VerdictsAgree sent messages ↔
      messages.head? = some (.text sent) ∨
        ∀ m ∈ messages, Sipsorcery.Client.getString m.payload ≠ sent := by
  refine ⟨?_, ?_⟩
  · intro h
    by_cases hecho : Echoed sent messages
    · exact Or.inl hecho
    · refine Or.inr ?_
      intro m hm heq
      exact hecho (h.sipsorcery.mp
        ((Sipsorcery.Client.dataChannelTest_eq_zero_iff sent messages).mpr ⟨m, hm, heq⟩))
  · intro h
    refine ⟨Libdatachannel.Client.dataChannelTest_status sent messages, ?_, ?_⟩
    · rw [Sipsorcery.Client.dataChannelTest_eq_zero_iff]
      refine ⟨?_, fun hecho => ⟨_, hecho.mem, by simp⟩⟩
      intro ⟨m, hm, heq⟩
      rcases h with hecho | hnone
      · exact hecho
      · exact absurd heq (hnone m hm)
    · rw [Werift.Client.dataChannelTest_eq]
      refine ⟨?_, fun hecho => by simp [hecho.mem]⟩
      intro hzero
      have hmem : .text sent ∈ messages := by
        by_contra hnot
        simp [hnot] at hzero
      rcases h with hecho | hnone
      · exact hecho
      · exact absurd (by simp) (hnone _ hmem)

/-- A wrong answer before the right one: a failure for libdatachannel only. -/
theorem late_echo_disagrees :
    let messages : List Message := [.text "other", .text "12345"]
    (Libdatachannel.Client.dataChannelTest "12345" messages).status = 255 ∧
      Sipsorcery.Client.dataChannelTest "12345" messages = 0 ∧
      Werift.Client.dataChannelTest "12345" messages = some 0 ∧
      ¬ VerdictsAgree "12345" messages := by
  refine ⟨by decide +kernel, by decide +kernel, by decide +kernel, ?_⟩
  intro h
  have hecho := h.werift.mp (by decide +kernel)
  exact absurd hecho (by simp [Echoed])

end WebrtcEchoes
