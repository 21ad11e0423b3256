/-
The three clients against the three servers.

Each client is a tester, whose probe is the string on its channel, and each server is a
reflector for every string, since a string is UTF-8 (`client`, `server`).  So what the
library says of testers and reflectors holds for all nine pairs.
-/
import WebrtcEchoes.Interop
import WebrtcEchoes.Proofs.DataChannelServers
import WebrtcEchoes.Proofs.Libdatachannel.Client
import WebrtcEchoes.Proofs.Sipsorcery.Process

namespace WebrtcEchoes.Interop

/-- A run through a label in its middle. -/
theorem run_middle {σ ε : Type} {m : Machine σ ε} {pre post : List ε} {e : ε} {s : σ}
    (h : m.run (pre ++ e :: post) = some s) :
    ∃ t t', m.run pre = some t ∧ m.step t e = some t' ∧ m.runFrom t' post = some s := by
  rw [m.run_append, Option.bind_eq_some_iff] at h
  obtain ⟨t, ht, hrest⟩ := h
  obtain ⟨t', hstep, hpost⟩ := Option.bind_eq_some_iff.mp hrest
  exact ⟨t, t', ht, hstep, hpost⟩

theorem textOn_inj {dc : Nat} {sent : String} {m : Message}
    (h : (⟨dc, m.raw⟩ : Sent) = textOn dc sent) : m = .text sent := by
  have hraw : m.raw = (Message.text sent).raw := congrArg Sent.message h
  cases m with
  | binary bytes => simp [Message.raw] at hraw
  | text content =>
      simp only [Message.raw, Message.payload, RawMessage.mk.injEq, true_and] at hraw
      have hchars := congrArg Utf8.decode hraw
      rw [Utf8.decode_encode, Utf8.decode_encode] at hchars
      rw [String.toList_inj.mp hchars]

/-! ### The libdatachannel client -/

namespace Libdatachannel

open WebrtcEchoes.Libdatachannel.Client

variable {url sent : String} {dc : Nat}

theorem takes_eq_probe {e : Event} :
    takes dc e = some (textOn dc sent) ↔ e = .message (.text sent) := by
  refine ⟨?_, ?_⟩
  · intro h
    cases e with
    | message m => rw [textOn_inj (Option.some.inj h)]
    | _ => simp [takes] at h
  · rintro rfl
    rfl

theorem completion_sent :
    completion (setup url sent) (.message (.text sent)) = some (.ok ()) := by
  rw [completion_message]
  exact congrArg some (if_pos rfl)

theorem sends_probe (e : Event) : ∀ m ∈ (party dc url sent).sends e, m = textOn dc sent := by
  intro m hm
  cases e with
  | channelOpen => exact List.mem_singleton.mp hm
  | _ => simp [party, sends] at hm

/-- The status of a process that has ended. -/
def exit (s : State) : Option Nat := s.exited.map Exit.status

/-- Behind a pending promise nothing has completed it. -/
theorem findSome_eq_none {es : List Event} {s : State} (hs : (party dc url sent).run es = some s)
    (hwaiting : Waiting s) : es.findSome? (completion (setup url sent)) = none := by
  have hfirst := (decidedByFirst_run es s hs).promise
  cases hc : es.findSome? (completion (setup url sent)) with
  | none => rfl
  | some outcome => simp [hwaiting.2, hc, promiseOf] at hfirst

theorem complete (pre : List Event) (e : Event) (post : List Event) (s s' : State) (n : Nat)
    (hs : (party dc url sent).run pre = some s) (hwaiting : Waiting s)
    (htakes : (party dc url sent).takes e = some (textOn dc sent))
    (hs' : (party dc url sent).run (pre ++ e :: post) = some s') (hexit : exit s' = some n) :
    n = 0 := by
  obtain rfl := takes_eq_probe.mp htakes
  have hnone := findSome_eq_none hs hwaiting
  have hdecided := decidedByFirst_run _ s' hs'
  obtain ⟨exit, hexited, rfl⟩ := Option.map_eq_some_iff.mp hexit
  rw [hdecided.exited exit hexited, hdecided.promise]
  refine (afterWait_status _).mpr ?_
  rw [List.findSome?_append, hnone, Option.none_or, List.findSome?_cons, completion_sent]

theorem sound (es : List Event) (s : State) (hs : (party dc url sent).run es = some s)
    (hexit : exit s = some 0) :
    ∃ pre e post t, es = pre ++ e :: post ∧ (party dc url sent).run pre = some t ∧ Waiting t ∧
      (party dc url sent).takes e = some (textOn dc sent) := by
  have hdecided := decidedByFirst_run es s hs
  obtain ⟨exit, hexited, hzero⟩ := Option.map_eq_some_iff.mp hexit
  rw [hdecided.exited exit hexited, hdecided.promise, afterWait_status] at hzero
  obtain ⟨pre, e, post, rfl, he, hpre⟩ := List.findSome?_eq_some_iff.mp hzero
  obtain ⟨t, t', ht, hstep, -⟩ := run_middle hs
  have hpending : t.promise = .pending := by
    rw [(decidedByFirst_run pre t ht).promise, List.findSome?_eq_none_iff.mpr hpre]
    rfl
  have htrack : e = .trackOpen → (setup url sent).test = .peerConnection :=
    fun heq => hdecided.trackOpen (by simp [heq])
  have hmessage : ∀ m, e = .message m → (setup url sent).test = .dataChannel := fun _ _ => rfl
  have hsucceeds := (succeeds_iff htrack hmessage).mpr he
  have hlive := (step_cases hstep (decidedByFirst_run pre t ht).promise).1
  exact ⟨pre, e, post, t, rfl, ht, ⟨hlive, hpending⟩, takes_eq_probe.mpr hsucceeds⟩

theorem canSend (s : State) (h : Waiting s) :
    ∃ es s', (party dc url sent).runFrom s es = some s' ∧ Waiting s' ∧
      (party dc url sent).taken es = [] ∧ (party dc url sent).sent es = [textOn dc sent] := by
  refine ⟨[.channelOpen], s, ?_, h, rfl, rfl⟩
  simp [party, Machine.runFrom, client, step, h.1, setup]

theorem canEnd (s : State) (h : Waiting s) :
    ∃ es s', (party dc url sent).runFrom s es = some s' ∧
      (party dc url sent).taken es = [textOn dc sent] ∧ (party dc url sent).sent es = [] ∧
      exit s' = some 0 := by
  refine ⟨[.message (.text sent), .ready], ⟨.result (.ok ()), some ⟨0, none⟩⟩, ?_, rfl, rfl, rfl⟩
  have hmessage : onMessage (setup url sent) (.text sent) s.promise = some (.result (.ok ())) := by
    simp [onMessage, checkMessage, setup, setValue, h.2, Completion.setResult]
  have hstep : (client (setup url sent)).step s (.message (.text sent)) =
      some ⟨.result (.ok ()), none⟩ := by
    have hcalled : s.called (onMessage (setup url sent) (.text sent) s.promise) =
        ⟨.result (.ok ()), none⟩ := by rw [hmessage, State.called, h.1]; rfl
    simp [client, step, h.1, hcalled, show (setup url sent).test = .dataChannel from rfl]
  have hready : (client (setup url sent)).step ⟨.result (.ok ()), none⟩ .ready =
      some ⟨.result (.ok ()), some ⟨0, none⟩⟩ := rfl
  simp [party, Machine.runFrom, hstep, hready]

/-- A client that has had its string does not wait any more. -/
theorem not_waiting {es : List Event} {s : State} (hs : (party dc url sent).run es = some s)
    (hmem : textOn dc sent ∈ (party dc url sent).taken es) : ¬ Waiting s := by
  intro hwaiting
  obtain ⟨e, he, htakes⟩ := Party.mem_taken.mp hmem
  obtain rfl := takes_eq_probe.mp htakes
  have hnone := List.findSome?_eq_none_iff.mp (findSome_eq_none hs hwaiting) _ he
  rw [completion_sent] at hnone
  simp at hnone

end Libdatachannel

/-! ### The sipsorcery client -/

namespace Sipsorcery

open WebrtcEchoes.Sipsorcery.Process

variable {pseudo : String} {dc : Nat}

theorem getString_sent :
    WebrtcEchoes.Sipsorcery.Client.getString (textOn dc pseudo).message.payload = pseudo := by
  simp [WebrtcEchoes.Sipsorcery.Client.getString, textOn, Message.raw, Message.payload,
    Utf8.decode_encode]

theorem sends_probe (e : Label) : ∀ m ∈ (party dc pseudo).sends e, m = textOn dc pseudo := by
  intro m hm
  cases e with
  | onopen => exact List.mem_singleton.mp hm
  | _ => simp [party, sends] at hm

/-- The flag is never taken back. -/
theorem seen_mono {es : List Label} (h : (seen (setup pseudo) es).success = true)
    (fs : List Label) : (seen (setup pseudo) (es ++ fs)).success = true := by
  induction fs using List.reverseRecOn with
  | nil => simpa using h
  | append_singleton fs l ih =>
      rw [← List.append_assoc, seen_snoc]
      cases hl : l.event with
      | none => exact ih
      | some event =>
          cases event with
          | message data =>
              simp only [WebrtcEchoes.Sipsorcery.Client.handle,
                WebrtcEchoes.Sipsorcery.Client.onMessage]
              split
              · split
                · rfl
                · exact ih
              · exact ih
          | connectionStateChange state =>
              simp only [WebrtcEchoes.Sipsorcery.Client.handle,
                WebrtcEchoes.Sipsorcery.Client.onConnectionStateChange]
              split
              · exact ih
              · split
                · rfl
                · exact ih

/-- A message that reads as the string sets it. -/
theorem seen_message (es : List Label) (proto : MessageKind) {data : List UInt8}
    (h : WebrtcEchoes.Sipsorcery.Client.getString data = pseudo) :
    (seen (setup pseudo) (es ++ [.onmessage proto data])).success = true := by
  rw [seen_snoc]
  simp [Label.event, WebrtcEchoes.Sipsorcery.Client.handle,
    WebrtcEchoes.Sipsorcery.Client.onMessage, setup, h]

/-- Nothing else sets it in a data channel test. -/
theorem exists_message {es : List Label} (h : (seen (setup pseudo) es).success = true) :
    ∃ pre proto data post, es = pre ++ .onmessage proto data :: post := by
  induction es using List.reverseRecOn with
  | nil => simp [seen] at h
  | append_singleton es l ih =>
      have hold : (seen (setup pseudo) es).success = true →
          ∃ pre proto data post, es ++ [l] = pre ++ .onmessage proto data :: post := by
        intro hes
        obtain ⟨pre, proto, data, post, rfl⟩ := ih hes
        exact ⟨pre, proto, data, post ++ [l], by simp⟩
      rw [seen_snoc] at h
      cases l with
      | onmessage proto data => exact ⟨es, proto, data, [], rfl⟩
      | onconnectionstatechange state =>
          have htest : (setup pseudo).testType ≠ .peerConnection := by simp [setup]
          refine hold ?_
          simp only [Label.event, WebrtcEchoes.Sipsorcery.Client.handle,
            WebrtcEchoes.Sipsorcery.Client.onConnectionStateChange, htest, and_false,
            if_false] at h
          split at h
          · exact h
          · exact h
      | _ => exact hold h

/-- Behind the string the flag is set. -/
theorem success_of_takes {pre : List Label} {e : Label} {post : List Label} {s' : State}
    (htakes : (party dc pseudo).takes e = some (textOn dc pseudo))
    (hs' : (party dc pseudo).run (pre ++ e :: post) = some s') : s'.vars.success = true := by
  cases e with
  | onmessage proto data =>
      have hdata : (⟨dc, ⟨proto, data⟩⟩ : Sent) = textOn dc pseudo := Option.some.inj htakes
      have hget : WebrtcEchoes.Sipsorcery.Client.getString data = pseudo := by
        have hpayload : data = (textOn dc pseudo).message.payload := by rw [← hdata]
        rw [hpayload, getString_sent]
      have hseen := seen_mono (seen_message pre proto hget) post
      rw [(returns_run _ s' hs').success]
      simpa using hseen
  | _ => simp [party, takes] at htakes

theorem complete (pre : List Label) (e : Label) (post : List Label) (s' : State) (n : Nat)
    (htakes : (party dc pseudo).takes e = some (textOn dc pseudo))
    (hs' : (party dc pseudo).run (pre ++ e :: post) = some s') (hexit : s'.exited = some n) :
    n = 0 ∨ n = aborted := by
  have hsuccess := success_of_takes htakes hs'
  rcases (returns_run _ s' hs').exited n hexit with haborted | hresult
  · exact Or.inr haborted
  · refine Or.inl ?_
    rw [hresult, WebrtcEchoes.Sipsorcery.Client.State.result, hsuccess]
    rfl

theorem sound (es : List Label) (s : State) (hs : (party dc pseudo).run es = some s)
    (hprobe : ∀ m ∈ (party dc pseudo).taken es, m = textOn dc pseudo) (hexit : s.exited = some 0) :
    ∃ pre e post t, es = pre ++ e :: post ∧ (party dc pseudo).run pre = some t ∧ Waiting t ∧
      (party dc pseudo).takes e = some (textOn dc pseudo) := by
  have hreturns := returns_run es s hs
  have hsuccess : (seen (setup pseudo) es).success = true := by
    rw [← hreturns.success]
    rcases hreturns.exited 0 hexit with haborted | hresult
    · simp [aborted] at haborted
    · cases hflag : s.vars.success with
      | true => rfl
      | false => simp [WebrtcEchoes.Sipsorcery.Client.State.result, hflag] at hresult
  obtain ⟨pre, proto, data, post, rfl⟩ := exists_message hsuccess
  obtain ⟨t, t', ht, hstep, -⟩ := run_middle hs
  have hmoves :=
    moves_of_step (show step (setup pseudo) t (.onmessage proto data) = some t' from hstep)
  refine ⟨pre, _, post, t, rfl, ht, hmoves.1, ?_⟩
  have htaken : (⟨dc, ⟨proto, data⟩⟩ : Sent) ∈ (party dc pseudo).taken
      (pre ++ .onmessage proto data :: post) := by
    rw [Party.taken_append, Party.taken_cons]
    simp [party, takes]
  exact congrArg some (hprobe _ htaken)

/-- The connection is started, and the channel opens. -/
theorem canSend (s : State) (h : Open s) :
    ∃ es s', (party dc pseudo).runFrom s es = some s' ∧ Open s' ∧
      (party dc pseudo).taken es = [] ∧ (party dc pseudo).sent es = [textOn dc pseudo] := by
  cases hphase : s.phase with
  | posting =>
      refine ⟨[.answered, .started, .onopen], { s with phase := .waiting }, ?_, h, rfl, rfl⟩
      simp [party, Machine.runFrom, process, step, h.1, hphase]
  | starting =>
      refine ⟨[.started, .onopen], { s with phase := .waiting }, ?_, h, rfl, rfl⟩
      simp [party, Machine.runFrom, process, step, h.1, hphase]
  | waiting =>
      refine ⟨[.onopen], s, ?_, h, rfl, rfl⟩
      simp [party, Machine.runFrom, process, step, h.1]
  | delaying =>
      refine ⟨[.onopen], s, ?_, h, rfl, rfl⟩
      simp [party, Machine.runFrom, process, step, h.1]

theorem not_aborted : ¬ 0 = aborted := by decide

/-- Without another message the process can end with status 0. -/
def Ends (dc : Nat) (pseudo : String) (s : State) : Prop :=
  ∃ es s', (party dc pseudo).runFrom s es = some s' ∧ (party dc pseudo).taken es = [] ∧
    (party dc pseudo).sent es = [] ∧ s'.exited = some 0

theorem Ends.step {s t : State} {l : Label} (h : (party dc pseudo).step s l = some t)
    (hl : takes dc l = none) (hl' : sends dc pseudo l = []) (ht : Ends dc pseudo t) :
    Ends dc pseudo s := by
  obtain ⟨es, s', hrun, htaken, hsent, hexit⟩ := ht
  refine ⟨l :: es, s', ?_, ?_, ?_, hexit⟩
  · rw [Machine.runFrom, h]
    exact hrun
  · rw [Party.taken_cons, htaken]
    simp [party, hl]
  · rw [Party.sent_cons, hsent]
    simp [party, hl']

/-- `Main` can go on to its end, when the flag is set. -/
theorem ends_of_success (dc : Nat) (pseudo : String) {s : State} (h : Waiting s)
    (hsuccess : s.vars.success = true) (hcomplete : s.vars.testComplete = true) :
    Ends dc pseudo s := by
  have hlive : ∀ {t : State}, t.exited = none → ¬ t.exited.isSome = true := by
    intro t ht
    simp [ht]
  have hresult : ∀ {vars : WebrtcEchoes.Sipsorcery.Client.State}, vars.success = true →
      vars.result = 0 := by
    intro vars hvars
    simp [WebrtcEchoes.Sipsorcery.Client.State.result, hvars]
  have hdone : ∀ t : State, t.exited = some 0 → Ends dc pseudo t :=
    fun t ht => ⟨[], t, rfl, rfl, rfl, ht⟩
  have hdelaying : ∀ t : State, t.exited = none → t.vars.success = true → t.phase = .delaying →
      Ends dc pseudo t := by
    intro t ht hflag hphase
    have hstep : (party dc pseudo).step t .delayed = some { t with exited := some 0 } := by
      simp [party, process, step, hlive ht, hphase, hresult hflag]
    exact Ends.step hstep rfl rfl (hdone _ rfl)
  have hwaiting : ∀ t : State, t.exited = none → t.vars.success = true →
      t.vars.testComplete = true → t.phase = .waiting → Ends dc pseudo t := by
    intro t ht hflag hset hphase
    have hwait : WebrtcEchoes.Sipsorcery.Timeouts.wait (setup pseudo).pcTimeout ≠ .throws := by
      show WebrtcEchoes.Sipsorcery.Timeouts.wait 10 ≠ .throws
      decide
    have hstep : (party dc pseudo).step t .released = some (leave t) := by
      simp [party, process, step, hlive ht, hphase, hset, hwait]
    refine Ends.step hstep rfl rfl ?_
    unfold leave
    split
    · exact hdone _ (congrArg some (hresult hflag))
    · exact hdelaying _ ht (by simpa using hflag) rfl
  have hstarting : ∀ t : State, t.exited = none → t.vars.success = true →
      t.vars.testComplete = true → t.phase = .starting → Ends dc pseudo t := by
    intro t ht hflag hset hphase
    have hstep : (party dc pseudo).step t .started = some { t with phase := .waiting } := by
      simp [party, process, step, hlive ht, hphase]
    exact Ends.step hstep rfl rfl (hwaiting _ ht hflag hset rfl)
  cases hphase : s.phase with
  | posting =>
      have hstep : (party dc pseudo).step s .answered = some { s with phase := .starting } := by
        simp [party, process, step, hlive h, hphase]
      exact Ends.step hstep rfl rfl (hstarting _ h hsuccess hcomplete rfl)
  | starting => exact hstarting s h hsuccess hcomplete hphase
  | waiting => exact hwaiting s h hsuccess hcomplete hphase
  | delaying => exact hdelaying s h hsuccess hphase

theorem canEnd (s : State) (h : Open s) :
    ∃ es s', (party dc pseudo).runFrom s es = some s' ∧
      (party dc pseudo).taken es = [textOn dc pseudo] ∧ (party dc pseudo).sent es = [] ∧
      s'.exited = some 0 := by
  let arrival : Label := .onmessage .text (textOn dc pseudo).message.payload
  let t : State := { s with vars := { s.vars with success := true, testComplete := true } }
  have hstep : (party dc pseudo).step s arrival = some t := by
    have hmessage : WebrtcEchoes.Sipsorcery.Client.onMessage (setup pseudo).testType
        (setup pseudo).pseudo (textOn dc pseudo).message.payload s.vars =
          { s.vars with success := true, testComplete := true } := by
      rw [WebrtcEchoes.Sipsorcery.Client.onMessage, getString_sent]
      exact (if_pos rfl).trans (if_pos rfl)
    simp [party, process, step, arrival, t, hmessage, h.1]
  obtain ⟨es, s', hrun, htaken, hsent, hexit⟩ := ends_of_success dc pseudo (s := t) h.1 rfl rfl
  refine ⟨arrival :: es, s', ?_, ?_, ?_, hexit⟩
  · rw [Machine.runFrom, hstep]
    exact hrun
  · rw [Party.taken_cons, htaken]
    rfl
  · rw [Party.sent_cons, hsent]
    rfl

/-- `Main` delays its return only behind a `Close`. -/
theorem closed_of_delaying : ∀ es s, (process (setup pseudo)).run es = some s →
    s.phase = .delaying → s.vars.closed = true := by
  refine Machine.run_induction (by simp [process]) ?_
  intro es s l s' _ ih hse hphase
  obtain ⟨-, hmoves⟩ := moves_of_step (show step (setup pseudo) s l = some s' from hse)
  cases hmoves with
  | onopen => exact ih hphase
  | handler hl => exact handled_closed (ih hphase)
  | answered => simp at hphase
  | started => simp at hphase
  | thrown hl => exact ih hphase
  | left hl hwaiting =>
      unfold leave at hphase ⊢
      split
      · assumption
      · simp
  | delayed => exact ih hphase

/-- A client that has had its string returns with status 0. -/
theorem canReturn (es : List Label) (s : State) (hs : (party dc pseudo).run es = some s)
    (hmem : textOn dc pseudo ∈ (party dc pseudo).taken es) (hopen : Open s) :
    Ends dc pseudo s := by
  obtain ⟨e, he, htakes⟩ := Party.mem_taken.mp hmem
  obtain ⟨pre, post, rfl⟩ := List.append_of_mem he
  have hsuccess := success_of_takes htakes hs
  have hphase : s.phase ≠ .delaying := fun hphase => by
    have hclosed := closed_of_delaying _ s hs hphase
    rw [hopen.2] at hclosed
    exact absurd hclosed (by decide)
  refine ends_of_success dc pseudo hopen.1 hsuccess ?_
  rw [(notices_run _ s hs).testComplete hphase, hsuccess, Bool.true_or]

end Sipsorcery

/-! ### The werift client -/

namespace Werift

open WebrtcEchoes.Werift.Process

variable {pseudo : String} {dc : Nat}

theorem takes_eq_probe {e : Label} :
    takes dc e = some (textOn dc pseudo) ↔ e = .callback (.message (.text pseudo)) := by
  refine ⟨?_, ?_⟩
  · intro h
    match e, h with
    | .callback (.message m), h => rw [textOn_inj (Option.some.inj h)]
  · rintro rfl
    rfl

theorem sends_probe (e : Label) : ∀ m ∈ (party dc pseudo).sends e, m = textOn dc pseudo := by
  intro m hm
  cases e with
  | onopen => exact List.mem_singleton.mp hm
  | _ => simp [party, sends] at hm

theorem step_cases {setup : Setup} {s s' : State} {l : Label} (h : step setup s l = some s') :
    s.exited = none ∧
      (l = .onopen ∧ s' = s ∨
        (∃ event, l = .callback event ∧
          s'.settled =
            WebrtcEchoes.Werift.Client.handle setup.testType setup.pseudo s.settled event ∧
          s'.exited = WebrtcEchoes.Werift.Client.exitStatus s'.settled) ∨
        l = .unhandledRejection ∧ s' = { s with exited := some 1 }) := by
  unfold step at h
  split at h
  · simp at h
  · rename_i hlive
    refine ⟨by simpa using hlive, ?_⟩
    cases l with
    | onopen =>
        simp only [Option.ite_none_right_eq_some, Option.some.injEq] at h
        exact Or.inl ⟨rfl, h.2.symm⟩
    | callback event =>
        obtain rfl := Option.some.inj h
        exact Or.inr (Or.inl ⟨event, rfl, rfl, rfl⟩)
    | unhandledRejection => exact Or.inr (Or.inr ⟨rfl, (Option.some.inj h).symm⟩)

/-- A promise that is settled has ended the process. -/
theorem settled_run : ∀ es s, (party dc pseudo).run es = some s →
    s.exited = none → s.settled = none := by
  refine Machine.run_induction (fun _ => rfl) ?_
  intro es s e s' _ ih hse hexit
  obtain ⟨hlive, ⟨-, rfl⟩ | ⟨event, -, -, hexited⟩ | ⟨-, rfl⟩⟩ := step_cases hse
  · exact ih hlive
  · rw [hexit] at hexited
    exact Option.map_eq_none_iff.mp hexited.symm
  · simp at hexit

/-- Only the string settles a data channel test with success. -/
theorem handle_eq_true_iff {event : WebrtcEchoes.Werift.Client.Event} :
    WebrtcEchoes.Werift.Client.handle .dataChannelEcho pseudo none event = some true ↔
      event = .message (.text pseudo) := by
  cases event with
  | message m =>
      by_cases h : m = .text pseudo
      · simp [WebrtcEchoes.Werift.Client.handle, WebrtcEchoes.Werift.Client.onMessage,
          WebrtcEchoes.Werift.Client.done, h]
      · simp [WebrtcEchoes.Werift.Client.handle, WebrtcEchoes.Werift.Client.onMessage, h]
  | receiveRtp => simp [WebrtcEchoes.Werift.Client.handle]
  | remoteTrackNotFound => simp [WebrtcEchoes.Werift.Client.handle]
  | failed => simp [WebrtcEchoes.Werift.Client.handle, WebrtcEchoes.Werift.Client.failed]

theorem exitStatus_eq_zero {settled : WebrtcEchoes.Werift.Client.Settled}
    (h : WebrtcEchoes.Werift.Client.exitStatus settled = some 0) : settled = some true := by
  obtain ⟨ok, rfl, hok⟩ := Option.map_eq_some_iff.mp h
  cases ok with
  | true => rfl
  | false => simp at hok

/-- The string ends a process whose promise is not settled. -/
theorem step_sent {s : State} (h : Waiting s) :
    (party dc pseudo).step s (.callback (.message (.text pseudo))) = some ⟨some true, some 0⟩ := by
  have hhandle : WebrtcEchoes.Werift.Client.handle .dataChannelEcho pseudo none
      (.message (.text pseudo)) = some true := handle_eq_true_iff.mpr rfl
  simp [party, process, step, setup, h.1, h.2, hhandle, WebrtcEchoes.Werift.Client.exitStatus]

theorem complete (pre : List Label) (e : Label) (post : List Label) (s s' : State) (n : Nat)
    (hs : (party dc pseudo).run pre = some s) (hwaiting : Waiting s)
    (htakes : (party dc pseudo).takes e = some (textOn dc pseudo))
    (hs' : (party dc pseudo).run (pre ++ e :: post) = some s') (hexit : s'.exited = some n) :
    n = 0 := by
  obtain rfl := takes_eq_probe.mp htakes
  obtain ⟨t, t', ht, hstep, hpost⟩ := run_middle hs'
  obtain rfl : s = t := Option.some.inj (hs.symm.trans ht)
  obtain rfl : ⟨some true, some 0⟩ = t' := Option.some.inj ((step_sent hwaiting).symm.trans hstep)
  cases post with
  | nil =>
      obtain rfl : ⟨some true, some 0⟩ = s' := Option.some.inj hpost
      exact (Option.some.inj hexit).symm
  | cons l rest =>
      -- A process that has ended takes no step.
      obtain ⟨t, hl, -⟩ := Option.bind_eq_some_iff.mp hpost
      have hl' : step (setup pseudo) ⟨some true, some 0⟩ l = some t := hl
      have hlive := (step_cases hl').1
      simp at hlive

theorem sound (es : List Label) (s : State) (hs : (party dc pseudo).run es = some s)
    (hexit : s.exited = some 0) :
    ∃ pre e post t, es = pre ++ e :: post ∧ (party dc pseudo).run pre = some t ∧ Waiting t ∧
      (party dc pseudo).takes e = some (textOn dc pseudo) := by
  rcases List.eq_nil_or_concat' es with rfl | ⟨pre, e, rfl⟩
  · obtain rfl : (⟨none, none⟩ : State) = s := Option.some.inj hs
    simp at hexit
  · obtain ⟨t, ht, hstep⟩ := (party dc pseudo).run_snoc_eq_some.mp hs
    obtain ⟨hlive, hcases⟩ := step_cases hstep
    have hsettled := settled_run pre t ht hlive
    refine ⟨pre, e, [], t, rfl, ht, ⟨hlive, hsettled⟩, ?_⟩
    rcases hcases with ⟨-, rfl⟩ | ⟨event, rfl, hhandle, hexited⟩ | ⟨-, rfl⟩
    · rw [hlive] at hexit
      simp at hexit
    · rw [hexit, hhandle, hsettled] at hexited
      refine takes_eq_probe.mpr (congrArg Label.callback (handle_eq_true_iff.mp ?_))
      exact exitStatus_eq_zero hexited.symm
    · simp at hexit

theorem canSend (s : State) (h : Waiting s) :
    ∃ es s', (party dc pseudo).runFrom s es = some s' ∧ Waiting s' ∧
      (party dc pseudo).taken es = [] ∧ (party dc pseudo).sent es = [textOn dc pseudo] := by
  refine ⟨[.onopen], s, ?_, h, rfl, rfl⟩
  simp [party, Machine.runFrom, process, step, h.1, setup]

theorem canEnd (s : State) (h : Waiting s) :
    ∃ es s', (party dc pseudo).runFrom s es = some s' ∧
      (party dc pseudo).taken es = [textOn dc pseudo] ∧ (party dc pseudo).sent es = [] ∧
      s'.exited = some 0 := by
  refine ⟨[.callback (.message (.text pseudo))], ⟨some true, some 0⟩, ?_, rfl, rfl, rfl⟩
  rw [Machine.runFrom, step_sent h]
  rfl

/-- A client that has had its string has exited. -/
theorem not_waiting : ∀ es s, (party dc pseudo).run es = some s →
    textOn dc pseudo ∈ (party dc pseudo).taken es → s.exited ≠ none := by
  refine Machine.run_induction (by simp [Party.taken]) ?_
  intro es s e s' hs ih hse hmem
  have hlive := (step_cases hse).1
  rw [Party.taken_append, List.mem_append] at hmem
  rcases hmem with hmem | hmem
  · exact absurd hlive (ih hmem)
  · obtain ⟨e', he', htakes⟩ := Party.mem_taken.mp hmem
    obtain rfl := List.mem_singleton.mp he'
    obtain rfl := takes_eq_probe.mp htakes
    have hwaiting : Waiting s := ⟨hlive, settled_run es s hs hlive⟩
    obtain rfl := Option.some.inj ((step_sent hwaiting).symm.trans hse)
    simp

end Werift

/-! ### The servers -/

namespace Server

open Channels

variable {onMessage : Handler} {dc : Nat} {sent : String}

/-- A connection can take a message on any channel, once the channel has a handler. -/
theorem serves (s : State) (probe : Sent) :
    ∃ es s', (party onMessage).runFrom s es = some s' ∧ (party onMessage).taken es = [probe] := by
  obtain ⟨dc, m⟩ := probe
  by_cases hopen : dc ∈ s.handled
  · refine ⟨[.message dc m], { s with sent := s.sent ++ [onMessage dc m] }, ?_, rfl⟩
    simp [party, Machine.runFrom, connection, step, hopen]
  · refine ⟨[.dataChannel dc, .message dc m],
      ⟨dc :: s.handled, s.sent ++ [onMessage dc m]⟩, ?_, rfl⟩
    simp [party, Machine.runFrom, connection, step, hopen]

theorem reflects {probe : Sent} (h : onMessage probe.channel probe.message = probe) (e : Event)
    (he : (party onMessage).takes e = some probe) : (party onMessage).sends e = [probe] := by
  cases e with
  | dataChannel dc => simp [party, takes] at he
  | message dc m =>
      obtain rfl : (⟨dc, m⟩ : Sent) = probe := Option.some.inj he
      exact congrArg (fun x => [x]) h

theorem silent (e : Event) (he : (party onMessage).takes e = none) :
    (party onMessage).sends e = [] := by
  cases e with
  | dataChannel dc => rfl
  | message dc m => simp [party, takes] at he

end Server

/-- Every server hands a string back as it is. -/
theorem handler_text (decoder : WebrtcEchoes.Werift.Echo.TextDecoder) (library : Library) (dc : Nat)
    (sent : String) :
    handler decoder library (textOn dc sent).channel (textOn dc sent).message = textOn dc sent := by
  have hwellFormed : Utf8.WellFormed (textOn dc sent).message.payload := ⟨sent.toList, rfl⟩
  cases library with
  | libdatachannel => exact WebrtcEchoes.Libdatachannel.Echo.onMessage_eq _ _
  | sipsorcery =>
      have hchange := WebrtcEchoes.Sipsorcery.Echo.change_eq_iff.mpr
        (show (textOn dc sent).message.IsText from ⟨rfl, hwellFormed⟩)
      exact congrArg (Sent.mk dc) hchange
  | werift =>
      have hraw := WebrtcEchoes.Werift.Echo.raw_arrived decoder
        (m := (textOn dc sent).message) fun _ => hwellFormed
      exact congrArg (Sent.mk dc) hraw

/-! ### The nine pairs -/

/-- The clients as testers of their string. -/
def client (dc : Nat) (url sent : String) : Library → Tester (textOn dc sent)
  | .libdatachannel =>
      { State := WebrtcEchoes.Libdatachannel.Client.State
        Label := WebrtcEchoes.Libdatachannel.Client.Event
        party := Libdatachannel.party dc url sent
        exit := Libdatachannel.exit
        Aborted := fun _ => False
        not_aborted := id
        Waiting := Libdatachannel.Waiting
        Open := Libdatachannel.Waiting
        sends_probe := Libdatachannel.sends_probe
        complete := fun pre e post s s' n hs hw ht hs' hx =>
          Or.inl (Libdatachannel.complete pre e post s s' n hs hw ht hs' hx)
        sound := fun es s hs _ hx => Libdatachannel.sound es s hs hx
        canSend := Libdatachannel.canSend
        canEnd := Libdatachannel.canEnd
        canReturn := fun _ _ hs hmem hopen =>
          absurd hopen (Libdatachannel.not_waiting hs hmem) }
  | .sipsorcery =>
      { State := WebrtcEchoes.Sipsorcery.Process.State
        Label := WebrtcEchoes.Sipsorcery.Process.Label
        party := Sipsorcery.party dc sent
        exit := WebrtcEchoes.Sipsorcery.Process.State.exited
        Aborted := fun n => n = WebrtcEchoes.Sipsorcery.Process.aborted
        not_aborted := Sipsorcery.not_aborted
        Waiting := Sipsorcery.Waiting
        Open := Sipsorcery.Open
        sends_probe := Sipsorcery.sends_probe
        complete := fun pre e post _ s' n _ _ ht hs' hx =>
          Sipsorcery.complete pre e post s' n ht hs' hx
        sound := Sipsorcery.sound
        canSend := Sipsorcery.canSend
        canEnd := Sipsorcery.canEnd
        canReturn := Sipsorcery.canReturn }
  | .werift =>
      { State := WebrtcEchoes.Werift.Process.State
        Label := WebrtcEchoes.Werift.Process.Label
        party := Werift.party dc sent
        exit := WebrtcEchoes.Werift.Process.State.exited
        Aborted := fun _ => False
        not_aborted := id
        Waiting := Werift.Waiting
        Open := Werift.Waiting
        sends_probe := Werift.sends_probe
        complete := fun pre e post s s' n hs hw ht hs' hx =>
          Or.inl (Werift.complete pre e post s s' n hs hw ht hs' hx)
        sound := fun es s hs _ hx => Werift.sound es s hs hx
        canSend := Werift.canSend
        canEnd := Werift.canEnd
        canReturn := fun es s hs hmem hopen => absurd hopen.1 (Werift.not_waiting es s hs hmem) }

/-- The servers as reflectors of a string. -/
def server (decoder : WebrtcEchoes.Werift.Echo.TextDecoder) (dc : Nat) (sent : String)
    (library : Library) : Reflector (textOn dc sent) where
  State := Channels.State
  Label := Channels.Event
  party := Server.party (handler decoder library)
  reflects := Server.reflects (handler_text decoder library dc sent)
  silent := Server.silent
  serves := fun s => Server.serves s (textOn dc sent)

open EchoTest

/-- What one client does with one server. -/
abbrev Job (decoder : WebrtcEchoes.Werift.Echo.TextDecoder) (dc : Nat) (url sent : String)
    (serverLibrary clientLibrary : Library) : Type :=
  (system (client dc url sent clientLibrary) (server decoder dc sent serverLibrary)).Execution
    fun s => (client dc url sent clientLibrary).exit s.left

/--
**The verdict of the data channel test, for every client, server and string.**

However the steps of the two programs are interleaved: no other message than the string
ever reaches either of them, and a client that ends has status 0 just when the string
has come back to it in time, unless an exception has ended it.  In that case the server
has had the string and has sent it back.
-/
theorem interop_verdict (decoder : WebrtcEchoes.Werift.Echo.TextDecoder) (dc : Nat)
    (url sent : String) (serverLibrary clientLibrary : Library)
    (x : Job decoder dc url sent serverLibrary clientLibrary) :
    let c := client dc url sent clientLibrary
    let r := server decoder dc sent serverLibrary
    (x.result = 0 ↔ RoundTrip c r x.events ∧ ¬ c.Aborted x.result) ∧
      (RoundTrip c r x.events →
        textOn dc sent ∈ c.party.sent (Link.lefts x.events) ∧
          textOn dc sent ∈ r.party.taken (Link.rights x.events) ∧
          textOn dc sent ∈ r.party.sent (Link.rights x.events) ∧
          textOn dc sent ∈ c.party.taken (Link.lefts x.events)) ∧
      (∀ m ∈ r.party.taken (Link.rights x.events), m = textOn dc sent) ∧
      ∀ m ∈ c.party.taken (Link.lefts x.events), m = textOn dc sent := by
  intro c r
  obtain ⟨s, hs, hexit⟩ := x.final
  have honly := onlyProbe_run (c := c) (r := r) hs
  exact ⟨exit_zero_iff hs hexit, fun htrip => htrip.ends hs, honly.server, honly.client⟩

end WebrtcEchoes.Interop
