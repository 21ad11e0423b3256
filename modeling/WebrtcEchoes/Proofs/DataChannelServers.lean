/-
Three data channel servers.

The specification wants a server to send back an identical string on the channel that the
string came on.  The libdatachannel and the werift server hand a message back as it
arrived, text or binary.  The sipsorcery server sends every message as a text, and what is
not UTF-8 in it is replaced on the way.
-/
import WebrtcEchoes.Libdatachannel.Echo
import WebrtcEchoes.Sipsorcery.Echo
import WebrtcEchoes.Werift.Echo

namespace WebrtcEchoes

/-! ### The runs of a server -/

namespace Channels

theorem mem_onChannel {dc : Nat} {log : List Sent} {m : RawMessage} :
    m ∈ onChannel dc log ↔ ⟨dc, m⟩ ∈ log := by
  simp only [onChannel, List.mem_map, List.mem_filter, decide_eq_true_eq]
  refine ⟨?_, ?_⟩
  · rintro ⟨⟨channel, message⟩, ⟨hmem, rfl⟩, rfl⟩
    exact hmem
  · intro h
    exact ⟨⟨dc, m⟩, ⟨h, rfl⟩, rfl⟩

/-- What a step can do. -/
theorem step_cases {onMessage : Handler} {s s' : State} {e : Event}
    (h : step onMessage s e = some s') :
    (∃ dc, e = .dataChannel dc ∧ dc ∉ s.handled ∧ s' = { s with handled := dc :: s.handled }) ∨
    (∃ dc m, e = .message dc m ∧ dc ∈ s.handled ∧
      s' = { s with sent := s.sent ++ [onMessage dc m] }) := by
  cases e with
  | dataChannel dc =>
      simp only [step] at h
      split at h
      · simp at h
      · rename_i hnew
        exact Or.inl ⟨dc, rfl, hnew, by simpa using h.symm⟩
  | message dc m =>
      simp only [step] at h
      split at h
      · rename_i hopen
        exact Or.inr ⟨dc, m, rfl, hopen, by simpa using h.symm⟩
      · simp at h

/-- **A server sends what its handler makes of the messages, in their order.** -/
theorem sent_of_run {onMessage : Handler} : ∀ es s, (connection onMessage).run es = some s →
    s.sent = (es.filterMap Event.arrival).map fun a => onMessage a.channel a.message := by
  refine Machine.run_induction rfl ?_
  intro es s e s' _ ih hse
  rw [List.filterMap_append, List.map_append, ← ih]
  rcases step_cases (show step onMessage s e = some s' from hse) with
    ⟨dc, rfl, -, rfl⟩ | ⟨dc, m, rfl, -, rfl⟩
  · simp [Event.arrival]
  · simp [Event.arrival]

/-- Every possible order of events is a run of every server. -/
theorem exists_runFrom (onMessage : Handler) (es : List Event) : ∀ s : State,
    Possible s.handled es → ∃ s', (connection onMessage).runFrom s es = some s' := by
  induction es with
  | nil => intro s _; exact ⟨s, rfl⟩
  | cons e rest ih =>
      intro s h
      cases e with
      | dataChannel dc =>
          obtain ⟨hnew, hrest⟩ := h
          have hstep : step onMessage s (.dataChannel dc) =
              some { s with handled := dc :: s.handled } := by simp [step, hnew]
          obtain ⟨s', hs'⟩ := ih { s with handled := dc :: s.handled } hrest
          exact ⟨s', by simpa [Machine.runFrom, connection, hstep] using hs'⟩
      | message dc m =>
          obtain ⟨hopen, hrest⟩ := h
          have hstep : step onMessage s (.message dc m) =
              some { s with sent := s.sent ++ [onMessage dc m] } := by simp [step, hopen]
          obtain ⟨s', hs'⟩ := ih { s with sent := s.sent ++ [onMessage dc m] } hrest
          exact ⟨s', by simpa [Machine.runFrom, connection, hstep] using hs'⟩

/-- The server goes along with the session, and sends on each channel the messages that
arrived on it. -/
def Faithful (onMessage : Handler) (session : Session) : Prop :=
  ∃ s, (connection onMessage).run session.events = some s ∧
    ∀ dc, onChannel dc s.sent = onChannel dc session.received

/-- A handler that answers on the channel of the message. -/
theorem onChannel_map {onMessage : Handler} {change : RawMessage → RawMessage}
    (h : ∀ dc m, onMessage dc m = ⟨dc, change m⟩) (dc : Nat) (log : List Sent) :
    onChannel dc (log.map fun a => onMessage a.channel a.message) =
      (onChannel dc log).map change := by
  induction log with
  | nil => rfl
  | cons a rest ih =>
      simp only [onChannel, List.map_cons, List.filter_cons, h] at ih ⊢
      by_cases hdc : a.channel = dc
      · simpa [hdc] using ih
      · simpa [hdc] using ih

theorem map_eq_self_iff {change : RawMessage → RawMessage} {log : List RawMessage} :
    log.map change = log ↔ ∀ m ∈ log, change m = m := by
  have h := List.map_inj_left (l := log) (f := change) (g := id)
  rwa [List.map_id] at h

/-- **Such a server is faithful just when its handler changes no message that arrives.** -/
theorem faithful_iff {onMessage : Handler} {change : RawMessage → RawMessage}
    (h : ∀ dc m, onMessage dc m = ⟨dc, change m⟩) (session : Session) :
    Faithful onMessage session ↔ ∀ a ∈ session.received, change a.message = a.message := by
  obtain ⟨s, hs⟩ := exists_runFrom onMessage session.events ⟨[], []⟩ session.possible
  have hrun : (connection onMessage).run session.events = some s := hs
  have hsent : ∀ dc, onChannel dc s.sent = (onChannel dc session.received).map change := by
    intro dc
    rw [sent_of_run _ _ hrun]
    exact onChannel_map h dc _
  refine ⟨?_, ?_⟩
  · rintro ⟨t, ht, hall⟩ a ha
    obtain rfl : s = t := Option.some.inj (hrun.symm.trans ht)
    have hdc := hall a.channel
    rw [hsent, map_eq_self_iff] at hdc
    exact hdc a.message (mem_onChannel.mpr ha)
  · intro hall
    refine ⟨s, hrun, ?_⟩
    intro dc
    rw [hsent, map_eq_self_iff]
    intro m hm
    exact hall ⟨dc, m⟩ (mem_onChannel.mp hm)

end Channels

open Channels

/-! ### The libdatachannel server -/

namespace Libdatachannel.Echo

/-- The variant keeps the kind and the bytes. -/
theorem onMessage_eq (dc : Nat) (m : RawMessage) : onMessage dc m = ⟨dc, m⟩ := by
  obtain ⟨kind, payload⟩ := m
  cases kind with
  | text => rfl
  | binary => rfl

theorem faithful (session : Session) : Faithful onMessage session := by
  refine (faithful_iff onMessage_eq session).mpr ?_
  intro a _
  rfl

end Libdatachannel.Echo

/-- A text message in UTF-8. -/
def RawMessage.IsText (m : RawMessage) : Prop := m.kind = .text ∧ Utf8.WellFormed m.payload

instance (m : RawMessage) : Decidable m.IsText := inferInstanceAs (Decidable (_ ∧ _))

/-! ### The sipsorcery server -/

namespace Sipsorcery.Echo

/-- What the handler makes of a message. -/
def change (m : RawMessage) : RawMessage := (Message.text (Client.getString m.payload)).raw

/-- What goes out is a text, in UTF-8. -/
theorem change_eq_iff {m : RawMessage} : change m = m ↔ m.IsText := by
  obtain ⟨kind, payload⟩ := m
  have hpayload : (Message.text (Client.getString payload)).payload =
      Utf8.encode (Utf8.decode payload) := by simp [Message.payload, Client.getString]
  simp only [change, Message.raw, hpayload, RawMessage.mk.injEq, RawMessage.IsText,
    Utf8.encode_decode_iff]
  exact and_congr_left' eq_comm

theorem faithful_iff_isText (session : Session) :
    Faithful onMessage session ↔ ∀ a ∈ session.received, a.message.IsText := by
  have hchange : ∀ dc m, onMessage dc m = ⟨dc, change m⟩ := fun dc m => rfl
  rw [faithful_iff hchange]
  exact forall₂_congr fun a _ => change_eq_iff

end Sipsorcery.Echo

/-! ### The werift server -/

namespace Werift.Echo

/-- A binary message comes back as it is, and so does a text that the library can read. -/
theorem raw_arrived (decoder : TextDecoder) {m : RawMessage}
    (h : m.kind = .text → Utf8.WellFormed m.payload) : (arrived decoder m).raw = m := by
  obtain ⟨kind, payload⟩ := m
  cases kind with
  | text =>
      obtain ⟨text, rfl⟩ : Utf8.WellFormed payload := h rfl
      have hread := decoder.read_payload (String.ofList text)
      simp only [Message.payload, String.toList_ofList] at hread
      simp [arrived, Message.raw, Message.payload, hread]
  | binary => rfl

/-- A text that comes back is the encoding of what was read. -/
theorem wellFormed_of_raw_arrived {decoder : TextDecoder} {m : RawMessage}
    (h : (arrived decoder m).raw = m) (htext : m.kind = .text) : Utf8.WellFormed m.payload := by
  obtain ⟨kind, payload⟩ := m
  obtain rfl : kind = .text := htext
  have hpayload := congrArg RawMessage.payload h
  exact ⟨_, hpayload⟩

/-- **The werift server sends back every message but a text that is not UTF-8.** -/
theorem faithful_iff_wellFormed (decoder : TextDecoder) (session : Session) :
    Faithful (onMessage decoder) session ↔
      ∀ a ∈ session.received, a.message.kind = .text → Utf8.WellFormed a.message.payload := by
  have hchange : ∀ dc m, onMessage decoder dc m = ⟨dc, (arrived decoder m).raw⟩ :=
    fun dc m => rfl
  rw [faithful_iff hchange]
  exact forall₂_congr fun a _ => ⟨wellFormed_of_raw_arrived, raw_arrived decoder⟩

/-- `Buffer.toString` -/
def bufferToString : TextDecoder where
  read bytes := String.ofList (Utf8.decode bytes)
  read_payload content := by simp [Message.payload, Utf8.decode_encode]

end Werift.Echo

/-! ### Agreement -/

/-- Every server sends back what it receives. -/
structure ServersFaithful (decoder : Werift.Echo.TextDecoder) (session : Session) : Prop where
  libdatachannel : Faithful Libdatachannel.Echo.onMessage session
  sipsorcery : Faithful Sipsorcery.Echo.onMessage session
  werift : Faithful (Werift.Echo.onMessage decoder) session

/--
**When the three servers send back what they receive.**

They do just when every message is a text in UTF-8.  Of each server alone: the libdatachannel
server does always, the sipsorcery server just when every message is a text in UTF-8, and the
werift server just when every text is in UTF-8, whatever the binary messages are.
-/
theorem servers_faithful_iff (decoder : Werift.Echo.TextDecoder) (session : Session) :
    (ServersFaithful decoder session ↔
      ∀ a ∈ session.received, a.message.kind = .text ∧ Utf8.WellFormed a.message.payload) ∧
    Faithful Libdatachannel.Echo.onMessage session ∧
    (Faithful Sipsorcery.Echo.onMessage session ↔
      ∀ a ∈ session.received, a.message.kind = .text ∧ Utf8.WellFormed a.message.payload) ∧
    (Faithful (Werift.Echo.onMessage decoder) session ↔
      ∀ a ∈ session.received, a.message.kind = .text → Utf8.WellFormed a.message.payload) := by
  have hlibdatachannel := Libdatachannel.Echo.faithful session
  have hsipsorcery := Sipsorcery.Echo.faithful_iff_isText session
  have hwerift := Werift.Echo.faithful_iff_wellFormed decoder session
  refine ⟨⟨fun h => hsipsorcery.mp h.sipsorcery, fun h => ?_⟩, hlibdatachannel, hsipsorcery,
    hwerift⟩
  refine ⟨hlibdatachannel, hsipsorcery.mpr h, hwerift.mpr ?_⟩
  intro a ha _
  exact (h a ha).2

/-- The peer opens a channel and sends five characters as a binary message. -/
def binarySession : Session where
  events := [.dataChannel 1, .message 1 ⟨.binary, [49, 50, 51, 52, 53]⟩]
  possible := ⟨by simp, by simp, trivial⟩

/-- The same bytes come back as a text. -/
theorem binary_comes_back_as_text :
    Faithful Libdatachannel.Echo.onMessage binarySession ∧
      Faithful (Werift.Echo.onMessage Werift.Echo.bufferToString) binarySession ∧
      (∃ s, (connection Sipsorcery.Echo.onMessage).run binarySession.events = some s ∧
        s.sent = [⟨1, ⟨.text, [49, 50, 51, 52, 53]⟩⟩]) ∧
      ¬ ServersFaithful Werift.Echo.bufferToString binarySession := by
  have hreceived : binarySession.received = [⟨1, ⟨.binary, [49, 50, 51, 52, 53]⟩⟩] := rfl
  refine ⟨Libdatachannel.Echo.faithful _, ?_, ⟨_, rfl, by decide +kernel⟩, ?_⟩
  · refine (Werift.Echo.faithful_iff_wellFormed _ _).mpr ?_
    intro a ha htext
    obtain rfl : a = ⟨1, ⟨.binary, [49, 50, 51, 52, 53]⟩⟩ := by simpa [hreceived] using ha
    exact absurd htext (by decide)
  · intro h
    have htext := (Sipsorcery.Echo.faithful_iff_isText _).mp h.sipsorcery
      ⟨1, ⟨.binary, [49, 50, 51, 52, 53]⟩⟩ (by simp [hreceived])
    exact absurd htext.1 (by decide)

end WebrtcEchoes
