/-
The verdict of the libdatachannel test client.

Whatever completes the promise first decides.  A second completion throws, wherever it
is attempted, and the library drops the exception; the message callback attempts it twice,
the second time from its own `catch` block.  So after a run the promise holds what the
first completing event put there, and `main` reads its verdict off that.
-/
import WebrtcEchoes.Libdatachannel.Client

namespace WebrtcEchoes.Libdatachannel.Client

variable {setup : Setup}

/-- The event that the test waits for. -/
def Succeeds (setup : Setup) (e : Event) : Prop :=
  match setup.test with
  | .peerConnection => e = .trackOpen
  | .dataChannel => e = .message (.text setup.sent)

/-- A completed gathering that ends the test: there is no local description, the POST fails,
its status is not 200, or its body does not parse or is not accepted. -/
def GatheringFails (dumped : Option String) (post : Post) : Prop :=
  dumped = none ∨ (∃ error, post = .failed error) ∨
    ∃ status body, post = .replied status body ∧
      (status ≠ 200 ∨ (∃ content what, body = .unparsable content what) ∨
        ∃ what, body = .rejected what)

/-- The events that end the test without success. -/
def Fails (setup : Setup) : Event → Prop
  | .gatheringComplete dumped post => GatheringFails dumped post
  | .disconnected => True
  | .message message => message ≠ .text setup.sent
  | _ => False

/-- The events that complete a pending promise. -/
def Completes (setup : Setup) (e : Event) : Prop := Succeeds setup e ∨ Fails setup e

/-- The `try` block throws in just these cases. -/
theorem gatheringFails_iff {dumped : Option String} {post : Post} :
    GatheringFails dumped post ↔ ∃ what, exchange setup dumped post = .error what := by
  cases dumped with
  | none => exact iff_of_true (Or.inl rfl) ⟨_, rfl⟩
  | some dumped =>
      cases post with
      | failed error => exact iff_of_true (Or.inr (Or.inl ⟨error, rfl⟩)) ⟨_, rfl⟩
      | replied status body =>
          by_cases hstatus : status = 200
          · cases body with
            | unparsable content what => simp [GatheringFails, exchange, hstatus]
            | rejected what => simp [GatheringFails, exchange, hstatus]
            | accepted => simp [GatheringFails, exchange, hstatus]
          · simp [GatheringFails, exchange, hstatus]

/-! ### What one event does to the promise -/

/-- What an event completes the promise with, if it is the first to do so. -/
def completion (setup : Setup) : Event → Option (Except String Unit)
  | .gatheringComplete dumped post =>
      match exchange setup dumped post with
      | .error what => some (.error what)
      | .ok () => none
  | .disconnected => some (.error "Peer Connection failed")
  | .trackOpen => some (.ok ())
  | .message message =>
      match checkMessage setup message with
      | .error _ => some (.error sliced)
      | .ok () => some (.ok ())
  | .channelOpen | .ready | .timeout => none

/-- The promise when nothing but the outcome of the first completing event is known. -/
def promiseOf : Option (Except String Unit) → Promise
  | none => .pending
  | some outcome => .result outcome

/-- Completing it again throws, and the promise stays as it was. -/
theorem getD_setResult (first : Option (Except String Unit)) (outcome : Except String Unit) :
    ((promiseOf first).setResult outcome).getD (promiseOf first) =
      promiseOf (first.or (some outcome)) := by
  cases first <;> rfl

theorem getD_onMessage (message : Message) (first : Option (Except String Unit)) :
    (onMessage setup message (promiseOf first)).getD (promiseOf first) =
      promiseOf (first.or (completion setup (.message message))) := by
  simp only [onMessage, completion]
  cases checkMessage setup message with
  | error what => exact getD_setResult first (.error sliced)
  | ok done =>
      cases first with
      | none => rfl
      -- Both `set_value` and the `set_exception` behind it throw.
      | some outcome => rfl

theorem getD_onGatheringComplete (dumped : Option String) (post : Post)
    (first : Option (Except String Unit)) :
    (onGatheringComplete setup dumped post (promiseOf first)).getD (promiseOf first) =
      promiseOf (first.or (completion setup (.gatheringComplete dumped post))) := by
  simp only [onGatheringComplete, completion]
  cases exchange setup dumped post with
  | error what => exact getD_setResult first (.error what)
  | ok done => cases first <;> rfl

/-! ### What a step does -/

/-- A step of `main` ends the process with what the promise holds. -/
def endsWait (e : Event) : Prop := e = .ready ∨ e = .timeout

theorem step_cases {s s' : State} {e : Event} {first : Option (Except String Unit)}
    (h : step setup s e = some s') (hs : s.promise = promiseOf first) :
    s.exited = none ∧ s'.promise = promiseOf (first.or (completion setup e)) ∧
      (e = .trackOpen → setup.test = .peerConnection) ∧
      (∀ message, e = .message message → setup.test = .dataChannel) ∧
      (endsWait e ∧ s'.exited = some (afterWait s'.promise) ∨ ¬ endsWait e ∧ s'.exited = none) := by
  unfold step at h
  split at h
  · simp at h
  · rename_i hlive
    have hlive : s.exited = none := by simpa using hlive
    refine ⟨hlive, ?_⟩
    cases e with
    | gatheringComplete dumped post =>
        obtain rfl := Option.some.inj h
        simp [State.called, endsWait, hs, getD_onGatheringComplete, hlive]
    | disconnected =>
        obtain rfl := Option.some.inj h
        simp [State.called, endsWait, hs, hlive, onDisconnected, setException, getD_setResult,
          completion]
    | trackOpen =>
        simp only at h
        split at h
        · rename_i htest
          obtain rfl := Option.some.inj h
          simp [State.called, endsWait, hs, hlive, setValue, getD_setResult, completion, htest]
        · simp at h
    | channelOpen =>
        simp only at h
        split at h
        · obtain rfl := Option.some.inj h
          simp [endsWait, hs, hlive, completion]
        · simp at h
    | message message =>
        simp only at h
        split at h
        · rename_i htest
          obtain rfl := Option.some.inj h
          simp [State.called, endsWait, hs, getD_onMessage, hlive, htest]
        · simp at h
    | ready =>
        simp only at h
        split at h
        · simp at h
        · obtain rfl := Option.some.inj h
          simp [endsWait, hs, completion]
    | timeout =>
        simp only at h
        split at h
        · obtain rfl := Option.some.inj h
          simp [endsWait, hs, completion]
        · simp at h

/-! ### The invariant of a run -/

/-- What the state of the client says about the events so far. -/
structure DecidedByFirst (setup : Setup) (es : List Event) (s : State) : Prop where
  /-- The first completing event decides. -/
  promise : s.promise = promiseOf (es.findSome? (completion setup))
  exited : ∀ exit, s.exited = some exit → exit = afterWait s.promise
  /-- Each callback belongs to one of the two tests. -/
  trackOpen : .trackOpen ∈ es → setup.test = .peerConnection
  message : ∀ message, .message message ∈ es → setup.test = .dataChannel

theorem decidedByFirst_run :
    ∀ es s, (client setup).run es = some s → DecidedByFirst setup es s := by
  refine Machine.run_induction ⟨rfl, by simp [client], by simp, by simp⟩ ?_
  intro es s e s' _ ih h
  obtain ⟨hlive, hpromise, htrack, hmessage, hexit⟩ := step_cases h ih.promise
  refine ⟨?_, ?_, ?_, ?_⟩
  · rw [List.findSome?_append, hpromise]
    cases hc : completion setup e <;> simp [hc]
  · intro exit hx
    rcases hexit with ⟨-, hexit⟩ | ⟨-, hexit⟩
    · rw [hexit] at hx
      exact (Option.some.inj hx).symm
    · simp [hexit] at hx
  · intro hmem
    rcases List.mem_append.mp hmem with hin | hlast
    · exact ih.trackOpen hin
    · exact htrack (List.mem_singleton.mp hlast).symm
  · intro message hmem
    rcases List.mem_append.mp hmem with hin | hlast
    · exact ih.message message hin
    · exact hmessage message (List.mem_singleton.mp hlast).symm

/-- The end of a process in terms of its events. -/
theorem Execution.result_eq (x : Execution setup) :
    x.result = afterWait (promiseOf (x.events.findSome? (completion setup))) := by
  obtain ⟨s, hrun, hex⟩ := x.final
  have hd := decidedByFirst_run x.events s hrun
  rw [← hd.promise]
  exact hd.exited x.result hex

@[simp] theorem afterWait_status (first : Option (Except String Unit)) :
    (afterWait (promiseOf first)).status = 0 ↔ first = some (.ok ()) := by
  rcases first with - | what | ok
  · simp [promiseOf, afterWait, failure]
  · simp [promiseOf, afterWait, failure]
  · simp [promiseOf, afterWait]

/-! ### The events of a run in the terms of the test -/

theorem checkMessage_eq_ok_iff {message : Message} :
    checkMessage setup message = .ok () ↔ message = .text setup.sent := by
  cases message with
  | binary bytes => simp [checkMessage]
  | text content =>
      by_cases h : content = setup.sent
      · simp [checkMessage, h]
      · simp [checkMessage, h]

/-- A message completes the promise in any case. -/
theorem completion_message (message : Message) :
    completion setup (.message message) =
      some (if message = .text setup.sent then .ok () else .error sliced) := by
  by_cases h : message = .text setup.sent
  · simp [completion, h, checkMessage]
  · cases hc : checkMessage setup message with
    | error what => simp [completion, h, hc]
    | ok done => exact absurd (checkMessage_eq_ok_iff.mp hc) h

/-- An event that a run can take succeeds when it completes the promise with a value. -/
theorem succeeds_iff {e : Event} (htrack : e = .trackOpen → setup.test = .peerConnection)
    (hmessage : ∀ message, e = .message message → setup.test = .dataChannel) :
    Succeeds setup e ↔ completion setup e = some (.ok ()) := by
  unfold Succeeds
  cases e with
  | gatheringComplete dumped post =>
      cases hx : exchange setup dumped post <;> cases setup.test <;> simp [completion, hx]
  | trackOpen => simp [htrack rfl, completion]
  | message message => simp [hmessage message rfl, completion_message]
  | disconnected => cases setup.test <;> simp [completion]
  | channelOpen => cases setup.test <;> simp [completion]
  | ready => cases setup.test <;> simp [completion]
  | timeout => cases setup.test <;> simp [completion]

theorem fails_iff {e : Event} :
    Fails setup e ↔ ∃ what, completion setup e = some (.error what) := by
  cases e with
  | gatheringComplete dumped post =>
      rw [Fails, @gatheringFails_iff setup]
      cases hx : exchange setup dumped post <;> simp [completion, hx]
  | message message =>
      by_cases h : message = .text setup.sent <;> simp [Fails, completion_message, h]
  | disconnected => simp [Fails, completion]
  | trackOpen => simp [Fails, completion]
  | channelOpen => simp [Fails, completion]
  | ready => simp [Fails, completion]
  | timeout => simp [Fails, completion]

/-- A running client waits for one thing: the promise, or the end of the ten seconds. -/
theorem progress (es : List Event) (s : State) (_ : (client setup).run es = some s)
    (hlive : s.exited = none) :
    ∃ e s', (client setup).step s e = some s' ∧
      (if s'.exited.isSome then 0 else 1) < if s.exited.isSome then 0 else 1 := by
  by_cases hp : s.promise = .pending
  · refine ⟨.timeout, { s with exited := some (afterWait s.promise) }, ?_, ?_⟩
    · simp [client, step, hlive, hp]
    · simp [hlive]
  · refine ⟨.ready, { s with exited := some (afterWait s.promise) }, ?_, ?_⟩
    · simp [client, step, hlive, hp]
    · simp [hlive]

/-- **Every run of the client can be run to its exit.** -/
theorem run_exits :
    ∀ es s, (client setup).run es = some s → ∃ x : Execution setup, es <+: x.events :=
  Machine.exists_execution (fun s => if s.exited.isSome then 0 else 1) progress

/-! ### The verdict -/

theorem foldl_onMessage (messages : List Message) : ∀ first,
    messages.foldl (fun promise m => (onMessage setup m promise).getD promise)
        (promiseOf first) =
      promiseOf (first.or (messages.findSome? fun m => completion setup (.message m))) := by
  induction messages with
  | nil => intro first; simp
  | cons m rest ih =>
      intro first
      rw [List.foldl_cons, getD_onMessage, ih, List.findSome?_cons]
      cases hc : completion setup (.message m) <;> cases first <;> simp

/-- As every message completes the promise, the first one decides. -/
theorem findSome?_message (messages : List Message) :
    messages.findSome? (fun m => completion setup (.message m)) = some (.ok ()) ↔
      messages.head? = some (.text setup.sent) := by
  cases messages with
  | nil => simp
  | cons m rest =>
      rw [List.findSome?_cons, completion_message]
      by_cases h : m = .text setup.sent <;> simp [h]

/-- The test over these messages is the execution in which nothing else happens. -/
theorem Execution.result_messages {sent : String} {messages : List Message} {e : Event}
    (x : Execution ⟨.dataChannel, "", sent⟩) (hx : x.events = messages.map .message ++ [e])
    (he : endsWait e) : x.result = dataChannelTest sent messages := by
  have hnone : completion ⟨.dataChannel, "", sent⟩ e = none := by
    rcases he with rfl | rfl <;> rfl
  have hreceive := @foldl_onMessage ⟨.dataChannel, "", sent⟩ messages none
  rw [x.result_eq, hx, List.findSome?_append, List.findSome?_map]
  rw [dataChannelTest, receive]
  refine congrArg afterWait (Eq.trans ?_ hreceive.symm)
  simp [hnone, Function.comp_def]

theorem dataChannelTest_status (sent : String) (messages : List Message) :
    (dataChannelTest sent messages).status = 0 ↔ messages.head? = some (.text sent) := by
  have hreceive := @foldl_onMessage ⟨.dataChannel, "", sent⟩ messages none
  have hiff := @findSome?_message ⟨.dataChannel, "", sent⟩ messages
  rw [dataChannelTest, receive, show (Completion.pending : Promise) = promiseOf none from rfl,
    hreceive, afterWait_status, Option.none_or, hiff]

end WebrtcEchoes.Libdatachannel.Client
