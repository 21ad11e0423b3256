/-
When the clients of the pion server are isolated from each other.

A process that has not ended serves everybody: every track has its loop, which stays until
the end of its stream and can forward the next packet, and every request can be brought to
its response.  So isolation fails exactly with the process, and the calls that end it are
found step by step.  What a callback does to the registry is taken over from the registry's
own machine, and what the loops do from theirs: every run of the process is a run of both.
-/
import WebrtcEchoes.Pion.Process
import WebrtcEchoes.Proofs.Pion.Echo
import WebrtcEchoes.Proofs.Pion.Server

namespace WebrtcEchoes.Pion.Process

open Rtp

variable {ssrc : Nat → Kind → UInt32}

/-! ### What a step can do -/

theorem step_call {s s' : State} {i : Nat} {ok : Bool}
    (h : (process ssrc).step s (.call i ok) = some s') :
    ¬ s.stopped ∧ ∃ call rest, (s.requests i).todo = call :: rest ∧
      (ok = false ∧ s' = { s with fatal := some (.offer call) } ∨
        ok = true ∧
          s' = if call = .register then s.registered i rest else s.called i call rest) := by
  simp only [process, step] at h
  split at h
  · simp at h
  · rename_i hlive
    refine ⟨hlive, ?_⟩
    simp only [callStep] at h
    split at h
    · simp at h
    · rename_i call rest htodo
      refine ⟨call, rest, htodo, ?_⟩
      cases ok with
      | false =>
          rw [if_pos rfl] at h
          split at h
          · exact Or.inl ⟨rfl, (Option.some.inj h).symm⟩
          · simp at h
      | true =>
          rw [if_neg (by decide)] at h
          split at h
          · rename_i hcall
            rw [if_pos hcall]
            exact Or.inr ⟨rfl, (Option.some.inj h).symm⟩
          · rename_i hcall
            rw [if_neg hcall]
            exact Or.inr ⟨rfl, (Option.some.inj h).symm⟩

theorem step_ice {s s' : State} {i : Nat} {state : ICEConnectionState} {closed : Bool}
    (h : (process ssrc).step s (.iceConnectionStateChange i state closed) = some s') :
    ¬ s.stopped ∧ ∃ pc, (s.requests i).pc = some pc ∧
      s' =
        if state = .failed ∧ pc ∈ s.registry.pcs ∧ closed = false then
          { s with fatal := some .close }
        else { s with registry := Server.onICEConnectionStateChange pc state s.registry } := by
  simp only [process, step] at h
  split at h
  · simp at h
  · rename_i hlive
    simp only [iceStep] at h
    split at h
    · simp at h
    · obtain ⟨pc, hpc, hs⟩ := Option.map_eq_some_iff.mp h
      exact ⟨hlive, pc, hpc, hs.symm⟩

theorem step_echo {s s' : State} {i : Nat} {e : Echo.Event}
    (h : (process ssrc).step s (.echo i e) = some s') :
    ¬ s.stopped ∧ .onTrack ∉ (s.requests i).todo ∧
      ∃ t, Echo.step (ssrc i) (s.echo i) e = some t ∧
        s' = { s with echo := Function.update s.echo i t, fatal := t.fatal.map Fatal.echo } := by
  simp only [process, step] at h
  split at h
  · simp at h
  · rename_i hlive
    simp only [echoStep] at h
    split at h
    · simp at h
    · rename_i hset
      obtain ⟨t, ht, hs⟩ := Option.map_eq_some_iff.mp h
      exact ⟨hlive, hset, t, ht, hs.symm⟩

theorem not_stopped_iff {s : State} :
    ¬ s.stopped ↔ s.fatal = none ∧ s.registry.panicked = none := by
  simp only [State.stopped, not_or, ne_eq, not_not]

/-! ### The machines inside the process -/

/-- The step that the loops of one connection take in an event. -/
def echoOf (i : Nat) : Event → Option Echo.Event
  | .echo j e => if j = i then some e else none
  | _ => none

/-- **The loops of every connection run as they do alone.** -/
theorem echo_run (i : Nat) (es : List Event) (s : State) (h : (process ssrc).run es = some s) :
    (Echo.connection (ssrc i)).run (es.filterMap (echoOf i)) = some (s.echo i) := by
  have hsim := Machine.run_of_simulation (m := process ssrc) (Echo.connection (ssrc i))
    (G := fun _ _ _ => True) (R := fun s t => t = s.echo i) (echoOf i) rfl ?_ es s h
    fun _ _ _ _ _ _ _ _ => trivial
  · obtain ⟨t, ht, rfl⟩ := hsim
    exact ht
  · rintro s t e s' rfl hse -
    cases e with
    | call j ok =>
        obtain ⟨-, call, rest, -, ⟨-, rfl⟩ | ⟨-, rfl⟩⟩ := step_call hse
        · rfl
        · show s.echo i = State.echo (if call = .register then _ else _) i
          split <;> rfl
    | iceConnectionStateChange j state closed =>
        obtain ⟨-, pc, -, rfl⟩ := step_ice hse
        show s.echo i = State.echo (if _ then _ else _) i
        split <;> rfl
    | echo j e =>
        obtain ⟨-, -, t, ht, rfl⟩ := step_echo hse
        by_cases hj : j = i
        · subst hj
          simp only [echoOf, if_true]
          exact ⟨t, ht, by simp⟩
        · simp only [echoOf, if_neg hj]
          exact (Function.update_of_ne (Ne.symm hj) _ _).symm

/-- The registered connections were created. -/
theorem pc_lt_created :
    ∀ es s, (process ssrc).run es = some s →
      ∀ i pc, (s.requests i).pc = some pc → pc < s.registry.created := by
  refine Machine.run_induction
    (P := fun _ (s : State) => ∀ i pc, (s.requests i).pc = some pc → pc < s.registry.created) ?_ ?_
  · intro i pc h
    simp [process] at h
  · intro es s e s' _ ih hse i pc hpc
    cases e with
    | call j ok =>
        obtain ⟨-, call, rest, -, ⟨-, rfl⟩ | ⟨-, rfl⟩⟩ := step_call hse
        · exact ih i pc hpc
        · by_cases hcall : call = .register
          · rw [if_pos hcall] at hpc ⊢
            show pc < s.registry.created + 1
            by_cases hi : i = j
            · subst hi
              obtain rfl : s.registry.created = pc := by
                simpa [State.registered] using hpc
              exact Nat.lt_succ_self _
            · have hold : (s.requests i).pc = some pc := by
                simpa [State.registered, Function.update_of_ne hi] using hpc
              exact Nat.lt_succ_of_lt (ih i pc hold)
          · rw [if_neg hcall] at hpc ⊢
            refine ih i pc ?_
            by_cases hi : i = j
            · subst hi
              simpa [State.called] using hpc
            · simpa [State.called, Function.update_of_ne hi] using hpc
    | iceConnectionStateChange j state closed =>
        obtain ⟨-, q, -, rfl⟩ := step_ice hse
        split at hpc
        · rw [if_pos ‹_›]
          exact ih i pc hpc
        · rw [if_neg ‹_›]
          have hcreated : ∀ q r, (Server.onICEConnectionStateChange q state r).created
              = r.created := by
            intro q r
            simp only [Server.onICEConnectionStateChange]
            split
            · split <;> rfl
            · rfl
          rw [hcreated]
          exact ih i pc hpc
    | echo j e =>
        obtain ⟨-, -, t, -, rfl⟩ := step_echo hse
        exact ih i pc hpc

/-- **The registry of the process runs as it does alone.** -/
theorem registry_run :
    ∀ es s, (process ssrc).run es = some s → ∃ fs, Server.server.run fs = some s.registry := by
  refine Machine.run_induction
    (P := fun _ (s : State) => ∃ fs, Server.server.run fs = some s.registry) ⟨[], rfl⟩ ?_
  intro es s e s' hs ⟨fs, hfs⟩ hse
  cases e with
  | call i ok =>
      obtain ⟨hlive, call, rest, -, ⟨-, rfl⟩ | ⟨-, rfl⟩⟩ := step_call hse
      · exact ⟨fs, hfs⟩
      · split
        · refine ⟨fs ++ [.offer], Server.server.run_snoc_eq_some.mpr ⟨_, hfs, ?_⟩⟩
          show Server.step s.registry .offer = some (Server.offer s.registry)
          simp [Server.step, (not_stopped_iff.mp hlive).2]
        · exact ⟨fs, hfs⟩
  | iceConnectionStateChange i state closed =>
      obtain ⟨hlive, pc, hpc, rfl⟩ := step_ice hse
      split
      · exact ⟨fs, hfs⟩
      · refine ⟨fs ++ [.iceConnectionStateChange pc state],
          Server.server.run_snoc_eq_some.mpr ⟨_, hfs, ?_⟩⟩
        have hlt := pc_lt_created es s hs i pc hpc
        simp [Server.server, Server.step, (not_stopped_iff.mp hlive).2, hlt]
  | echo i e =>
      obtain ⟨-, -, t, -, rfl⟩ := step_echo hse
      exact ⟨fs, hfs⟩

/-! ### A live process serves everybody -/

/-- A loop runs only behind the callback that starts it, and has not ended the process. -/
structure Linked (s : State) : Prop where
  installed : ∀ i, (s.echo i).loops ≠ [] → .onTrack ∉ (s.requests i).todo
  quiet : s.fatal = none → ∀ i, (s.echo i).fatal = none

/-- A request that has made a call has its callback set as before, or by now. -/
theorem Linked.update {s : State} (h : Linked s) {i : Nat} {call : Call} {rest : List Call}
    (htodo : (s.requests i).todo = call :: rest) {pc : Option Server.PeerConnection}
    {registry : Server.State} {responses : List Nat} :
    Linked { s with
      requests := Function.update s.requests i ⟨rest, pc⟩
      registry := registry
      responses := responses } := by
  refine ⟨fun j hj => ?_, h.quiet⟩
  have hold : .onTrack ∉ (s.requests j).todo := h.installed j hj
  by_cases hji : j = i
  · subst hji
    rw [htodo, List.mem_cons, not_or] at hold
    simpa using hold.2
  · simpa [Function.update_of_ne hji] using hold

theorem linked_of_run : ∀ es s, (process ssrc).run es = some s → Linked s := by
  refine Machine.run_induction (P := fun _ s => Linked s) ?_ ?_
  · exact ⟨fun i h => absurd rfl h, fun _ i => rfl⟩
  · intro es s e s' _ ih hse
    cases e with
    | call i ok =>
        obtain ⟨-, call, rest, htodo, ⟨-, rfl⟩ | ⟨-, rfl⟩⟩ := step_call hse
        · exact ⟨ih.installed, fun h => by simp at h⟩
        · split
          · exact ih.update htodo
          · exact ih.update htodo
    | iceConnectionStateChange i state closed =>
        obtain ⟨-, pc, -, rfl⟩ := step_ice hse
        split
        · exact ⟨ih.installed, fun h => by simp at h⟩
        · exact ⟨ih.installed, ih.quiet⟩
    | echo i e =>
        obtain ⟨hlive, hset, t, -, rfl⟩ := step_echo hse
        refine ⟨fun j hj => ?_, fun hf j => ?_⟩
        · by_cases hji : j = i
          · subst hji
            exact hset
          · exact ih.installed j (by simpa [Function.update_of_ne hji] using hj)
        · by_cases hji : j = i
          · subst hji
            simpa using hf
          · simpa [Function.update_of_ne hji] using
              ih.quiet (not_stopped_iff.mp hlive).1 j

/-- A request that has made its last call has its response written. -/
structure Responds (s : State) : Prop where
  responded : ∀ i, (s.requests i).todo = [] → i ∈ s.responses
  lastCall : ∀ i call rest, (s.requests i).todo = call :: rest →
    (call :: rest).getLast? = some .write

theorem Responds.update {s : State} (h : Responds s) {i : Nat} {call : Call} {rest : List Call}
    (htodo : (s.requests i).todo = call :: rest) {pc : Option Server.PeerConnection}
    {registry : Server.State} {responses : List Nat} (hold : ∀ j ∈ s.responses, j ∈ responses)
    (hnew : call = .write → i ∈ responses) :
    Responds { s with
      requests := Function.update s.requests i ⟨rest, pc⟩
      registry := registry
      responses := responses } := by
  have hlast := h.lastCall i call rest htodo
  refine ⟨fun j hj => ?_, fun j call' rest' hj => ?_⟩
  · by_cases hji : j = i
    · subst hji
      obtain rfl : rest = [] := by simpa using hj
      exact hnew (by simpa using hlast)
    · exact hold j (h.responded j (by simpa [Function.update_of_ne hji] using hj))
  · by_cases hji : j = i
    · subst hji
      obtain rfl : rest = call' :: rest' := by simpa using hj
      simpa using hlast
    · exact h.lastCall j call' rest' (by simpa [Function.update_of_ne hji] using hj)

theorem responds_called {s : State} (h : Responds s) {i : Nat} {call : Call} {rest : List Call}
    (htodo : (s.requests i).todo = call :: rest) :
    Responds (if call = .register then s.registered i rest else s.called i call rest) := by
  split
  · rename_i hcall
    exact h.update htodo (fun _ hj => hj) (fun hwrite => by simp [hcall] at hwrite)
  · refine h.update htodo (fun j hj => ?_) (fun hwrite => by simp [hwrite])
    split
    · exact List.mem_append_left _ hj
    · exact hj

theorem responds_of_run : ∀ es s, (process ssrc).run es = some s → Responds s := by
  refine Machine.run_induction (P := fun _ s => Responds s) ?_ ?_
  · refine ⟨fun i h => absurd h (by simp [process, offer]), fun i call rest h => ?_⟩
    have hoffer : offer = call :: rest := h
    rw [← hoffer]
    rfl
  · intro es s e s' _ ih hse
    cases e with
    | call i ok =>
        obtain ⟨-, call, rest, htodo, ⟨-, rfl⟩ | ⟨-, rfl⟩⟩ := step_call hse
        · exact ⟨ih.responded, ih.lastCall⟩
        · exact responds_called ih htodo
    | iceConnectionStateChange i state closed =>
        obtain ⟨-, pc, -, rfl⟩ := step_ice hse
        split <;> exact ⟨ih.responded, ih.lastCall⟩
    | echo i e =>
        obtain ⟨-, -, t, -, rfl⟩ := step_echo hse
        exact ⟨ih.responded, ih.lastCall⟩

/-- The loop has written the packet on the out track of its kind, and reads on. -/
structure Forwards (ssrc : Nat → Kind → UInt32) (s : State) (i k : Nat) (track : RemoteTrack)
    (rtp : Packet) (s' : State) : Prop where
  written : (s'.echo i).written =
    (s.echo i).written ++ [⟨k, track.kind, rtp.withSSRC (ssrc i track.kind)⟩]
  reading : (s'.echo i).loops[k]? = some ⟨track, .reading⟩

/-- Nobody is affected by the others: the server runs; the loops of every connection are where
its own events have brought them, with one for every track that was reported, which has
returned only at the end of its stream; every other loop forwards the next packet and reads
on; and every request comes to its response. -/
structure Isolated (ssrc : Nat → Kind → UInt32) (es : List Event) (s : State) : Prop where
  running : ¬ s.stopped
  alone : ∀ i, (Echo.connection (ssrc i)).run (es.filterMap (echoOf i)) = some (s.echo i)
  served : ∀ i, Echo.Served (es.filterMap (echoOf i)) (s.echo i)
  forwards : ∀ i k track, (s.echo i).loops[k]? = some ⟨track, .reading⟩ → ∀ rtp,
    ∃ s', (process ssrc).runFrom s [.echo i (.read k (.packet rtp)), .echo i (.write k true)] =
        some s' ∧ Forwards ssrc s i k track rtp s'
  writes : ∀ i k track rtp, (s.echo i).loops[k]? = some ⟨track, .holding rtp⟩ →
    ∃ s', (process ssrc).step s (.echo i (.write k true)) = some s' ∧
      Forwards ssrc s i k track rtp s'
  answers : ∀ i, ∃ s',
    (process ssrc).runFrom s (List.replicate (s.requests i).todo.length (.call i true)) =
        some s' ∧ (s'.requests i).todo = [] ∧ i ∈ s'.responses

/-- A loop of a live process takes its step, whatever else goes on. -/
theorem step_of_echo (ssrc : Nat → Kind → UInt32) {s : State} {i : Nat} {e : Echo.Event}
    {t : Echo.State} (hlive : ¬ s.stopped) (hset : .onTrack ∉ (s.requests i).todo)
    (ht : Echo.step (ssrc i) (s.echo i) e = some t) :
    (process ssrc).step s (.echo i e) =
      some { s with echo := Function.update s.echo i t, fatal := t.fatal.map Fatal.echo } := by
  simp [process, step, hlive, echoStep, hset, ht]

/-- A request of a live process makes its next call. -/
theorem step_of_call (ssrc : Nat → Kind → UInt32) {s : State} {i : Nat} {call : Call}
    {rest : List Call} (hlive : ¬ s.stopped) (htodo : (s.requests i).todo = call :: rest) :
    (process ssrc).step s (.call i true) =
      some (if call = .register then s.registered i rest else s.called i call rest) := by
  by_cases hcall : call = .register
  · simp [process, step, hlive, callStep, htodo, hcall]
  · simp [process, step, hlive, callStep, htodo, hcall]

theorem writes_of_live (ssrc : Nat → Kind → UInt32) {s : State} (hs : Linked s)
    (hlive : ¬ s.stopped) {i k : Nat} {track : RemoteTrack} {rtp : Packet}
    (hk : (s.echo i).loops[k]? = some ⟨track, .holding rtp⟩) :
    ∃ s', (process ssrc).step s (.echo i (.write k true)) = some s' ∧
      Forwards ssrc s i k track rtp s' := by
  have hset := hs.installed i (by rintro h; simp [h] at hk)
  have hquiet := hs.quiet (not_stopped_iff.mp hlive).1 i
  have hlt : k < (s.echo i).loops.length := (List.getElem?_eq_some_iff.mp hk).1
  have ht : Echo.step (ssrc i) (s.echo i) (.write k true) =
      some { (s.echo i).moved k track .reading with
        written := (s.echo i).written ++
          [⟨k, track.kind, rtp.withSSRC (ssrc i track.kind)⟩] } := by
    simp [Echo.step, hquiet, Echo.write, hk]
  exact ⟨_, step_of_echo ssrc hlive hset ht, by simp, by simp [Echo.State.moved, hlt]⟩

theorem forwards_of_live {s : State} (hs : Linked s) (hlive : ¬ s.stopped) {i k : Nat}
    {track : RemoteTrack} (hk : (s.echo i).loops[k]? = some ⟨track, .reading⟩) (rtp : Packet) :
    ∃ s', (process ssrc).runFrom s
        [.echo i (.read k (.packet rtp)), .echo i (.write k true)] = some s' ∧
      Forwards ssrc s i k track rtp s' := by
  have hset := hs.installed i (by rintro h; simp [h] at hk)
  have hquiet := hs.quiet (not_stopped_iff.mp hlive).1 i
  have hlt : k < (s.echo i).loops.length := (List.getElem?_eq_some_iff.mp hk).1
  have ht : Echo.step (ssrc i) (s.echo i) (.read k (.packet rtp)) =
      some ((s.echo i).moved k track (.holding rtp)) := by
    simp [Echo.step, hquiet, Echo.read, hk, Echo.State.received]
  have hread := step_of_echo ssrc hlive hset ht
  -- the loop holds the packet now, and the process is as live as it was
  generalize hs' : ({ s with echo := _, fatal := _ } : State) = s' at hread
  have hlinked : Linked s' := by
    rw [← hs']
    refine ⟨fun j hj => ?_, fun hf j => ?_⟩
    · by_cases hji : j = i
      · subst hji
        exact hset
      · exact hs.installed j (by simpa [Function.update_of_ne hji] using hj)
    · by_cases hji : j = i
      · subst hji
        simpa [Echo.State.moved] using hquiet
      · simpa [Function.update_of_ne hji] using hs.quiet (not_stopped_iff.mp hlive).1 j
  have hlive' : ¬ s'.stopped := by
    rw [← hs', not_stopped_iff]
    exact ⟨by simp [Echo.State.moved, hquiet], (not_stopped_iff.mp hlive).2⟩
  have hk' : (s'.echo i).loops[k]? = some ⟨track, .holding rtp⟩ := by
    rw [← hs']
    simp [Echo.State.moved, hlt]
  have hwritten : (s'.echo i).written = (s.echo i).written := by
    rw [← hs']
    simp [Echo.State.moved]
  obtain ⟨s'', hwrite, hlog, hreading⟩ := writes_of_live ssrc hlinked hlive' hk'
  exact ⟨s'', by simp [Machine.runFrom, hread, hwrite], by rw [hlog, hwritten], hreading⟩

/-- A request of a live process can be brought to its end, and then has its response. -/
theorem answers_of_live {i : Nat} :
    ∀ (todo : List Call) (s : State), ¬ s.stopped → Responds s → (s.requests i).todo = todo →
      ∃ s', (process ssrc).runFrom s (List.replicate todo.length (.call i true)) = some s' ∧
        (s'.requests i).todo = [] ∧ i ∈ s'.responses := by
  intro todo
  induction todo with
  | nil =>
      intro s _ hresponds htodo
      exact ⟨s, rfl, htodo, hresponds.responded i htodo⟩
  | cons call rest ih =>
      intro s hlive hresponds htodo
      have hresponds' := responds_called hresponds htodo
      have hstep := step_of_call ssrc hlive htodo
      generalize hs' : (if call = .register then s.registered i rest else s.called i call rest) = s'
        at hstep hresponds'
      have hlive' : ¬ s'.stopped := by
        rw [← hs']
        split
        · exact hlive
        · exact hlive
      have htodo' : (s'.requests i).todo = rest := by
        rw [← hs']
        split
        · simp [State.registered]
        · simp [State.called]
      obtain ⟨s'', hrun, hdone⟩ := ih s' hlive' hresponds' htodo'
      refine ⟨s'', ?_, hdone⟩
      rw [List.length_cons, List.replicate_succ, Machine.runFrom, hstep]
      exact hrun

/-- **The clients are isolated just as long as the process lives.** -/
theorem isolated_iff_not_stopped {es : List Event} {s : State}
    (hrun : (process ssrc).run es = some s) : Isolated ssrc es s ↔ ¬ s.stopped := by
  have hs := linked_of_run es s hrun
  refine ⟨fun h => h.running, fun hlive => ?_⟩
  exact
    { running := hlive
      alone := fun i => echo_run i es s hrun
      served := fun i => Echo.served_of_run _ _ (echo_run i es s hrun)
      forwards := fun i k track hk rtp => forwards_of_live hs hlive hk rtp
      writes := fun i k track rtp hk => writes_of_live ssrc hs hlive hk
      answers := fun i => answers_of_live _ s hlive (responds_of_run es s hrun) rfl }

/-! ### What ends the process -/

/-- An event that ends the process of every client: a call of a request or a write that
fails, a read that fails otherwise than at the end of the stream, and a connection that
fails while it is registered, unless it is the last of the registry and can be closed. -/
def Stops (s : State) : Event → Prop
  | .call _ ok => ok = false
  | .iceConnectionStateChange i state closed =>
      state = .failed ∧ ∃ pc, (s.requests i).pc = some pc ∧ pc ∈ s.registry.pcs ∧
        (closed = true → s.registry.pcs.getLast? ≠ some pc)
  | .echo _ (.onTrack _) => False
  | .echo _ (.read _ result) => result = .error
  | .echo _ (.write _ ok) => ok = false

/-- The callback of the registry panics for a connection that is registered but not last. -/
theorem panicked_callback {r : Server.State} (hnd : r.pcs.Nodup) (hr : r.panicked = none)
    (pc : Server.PeerConnection) (state : ICEConnectionState) :
    (Server.onICEConnectionStateChange pc state r).panicked = none ↔
      (state = .failed → pc ∈ r.pcs → r.pcs.getLast? = some pc) := by
  by_cases hf : state = .failed
  · subst hf
    simp only [Server.onICEConnectionStateChange, if_true, Server.closeFailed_eq hnd]
    by_cases hlast : pc ∈ r.pcs → r.pcs.getLast? = some pc
    · simp only [if_pos hlast, hr]
      exact iff_of_true trivial fun _ => hlast
    · rw [if_neg hlast]
      refine iff_of_false (by simp) ?_
      intro h
      exact hlast (h trivial)
  · simp [Server.onICEConnectionStateChange, hf, hr]

/-- **A step ends the process exactly when it is one of these.** -/
theorem stopped_iff {s s' : State} {e : Event} (hnd : s.registry.pcs.Nodup)
    (h : (process ssrc).step s e = some s') : ¬ s'.stopped ↔ ¬ Stops s e := by
  cases e with
  | call i ok =>
      obtain ⟨hlive, call, rest, -, ⟨rfl, rfl⟩ | ⟨rfl, rfl⟩⟩ := step_call h
      · exact iff_of_false (by simp [State.stopped]) (by simp [Stops])
      · refine iff_of_true ?_ (by simp [Stops])
        split
        · exact hlive
        · exact hlive
  | iceConnectionStateChange i state closed =>
      obtain ⟨hlive, pc, hpc, rfl⟩ := step_ice h
      obtain ⟨hf, hr⟩ := not_stopped_iff.mp hlive
      simp only [Stops, hpc, Option.some.injEq, exists_eq_left']
      split
      · rename_i hc
        obtain ⟨hstate, hmem, rfl⟩ := hc
        exact iff_of_false (by simp [State.stopped]) (by simp [hstate, hmem])
      · rename_i hc
        rw [not_stopped_iff]
        simp only [hf, true_and, panicked_callback hnd hr]
        cases closed with
        | true => tauto
        | false => tauto
  | echo i e =>
      obtain ⟨hlive, -, t, ht, rfl⟩ := step_echo h
      have hr := (not_stopped_iff.mp hlive).2
      rw [not_stopped_iff]
      simp only [hr, and_true, Option.map_eq_none_iff]
      cases e with
      | onTrack track =>
          obtain ⟨hq, ht⟩ : (s.echo i).fatal = none ∧ Echo.onTrack track (s.echo i) = t := by
            simpa [Echo.step] using ht
          exact iff_of_true (by rw [← ht]; exact hq) (by simp [Stops])
      | read k result =>
          obtain ⟨hq, track, -, rfl⟩ := Echo.step_read ht
          cases result with
          | packet rtp => exact iff_of_true hq (by simp [Stops])
          | eof => exact iff_of_true hq (by simp [Stops])
          | error => exact iff_of_false (by simp [Echo.State.received]) (by simp [Stops])
      | write k ok =>
          obtain ⟨hq, track, rtp, -, rfl⟩ := Echo.step_write ht
          cases ok with
          | true => exact iff_of_true hq (by simp [Stops])
          | false => exact iff_of_false (by simp) (by simp [Stops])

/-- The clients are isolated in every state of the run. -/
def IsolatedThroughout (ssrc : Nat → Kind → UInt32) (es : List Event) : Prop :=
  ∀ pre post s, es = pre ++ post → (process ssrc).run pre = some s → Isolated ssrc pre s

/-- The process lives as long as no step ends it. -/
theorem live_throughout_iff (es : List Event) :
    (process ssrc).Throughout (fun s => ¬ s.stopped) es ↔
      (process ssrc).Each (fun s e _ => ¬ Stops s e) es := by
  refine (Machine.each_iff_throughout (not_stopped_iff.mpr ⟨rfl, rfl⟩) ?_ es).symm
  intro es s e s' hs _ hse
  obtain ⟨fs, hfs⟩ := registry_run es s hs
  exact stopped_iff (Server.nodup_of_run fs _ hfs).1 hse

/--
**The clients are isolated in every state of a run just when no step stops the server.**

However many clients there are and however their requests, callbacks and loops
interleave, every track keeps its loop to the end of its stream, every loop keeps forwarding
and every offer can be answered as long as no call of a request and no write returns an
error, no read returns one but `io.EOF`, and every connection that fails while it is
registered is the last of the registry and can be closed; from the first step on that is not
like this, nobody is served any more.
-/
theorem isolated_iff (ssrc : Nat → Kind → UInt32) (es : List Event) :
    IsolatedThroughout ssrc es ↔ (process ssrc).Each (fun s e _ => ¬ Stops s e) es := by
  rw [← live_throughout_iff]
  refine ⟨fun h pre post s heq hrun => ?_, fun h pre post s heq hrun => ?_⟩
  · exact (isolated_iff_not_stopped hrun).mp (h pre post s heq hrun)
  · exact (isolated_iff_not_stopped hrun).mpr (h pre post s heq hrun)

/-- A client is connected and sends a packet; then another one posts a body that cannot be
decoded. -/
def undecodableBody : List Event :=
  List.replicate 12 (.call 0 true) ++
    [.echo 0 (.onTrack ⟨.audio, "opus".toList⟩), .call 1 false]

/-- The server is stopped by the second client's body, for the first one as well. -/
theorem undecodable_body_stops_everybody :
    ((process fun _ _ => 1).run undecodableBody).map State.fatal = some (some (.offer .decode)) ∧
      ¬ IsolatedThroughout (fun _ _ => 1) undecodableBody := by
  refine ⟨by decide, fun h => ?_⟩
  have hrun : ∃ s, (process fun _ _ => 1).run undecodableBody = some s ∧
      s.fatal = some (.offer .decode) := Option.map_eq_some_iff.mp (by decide)
  obtain ⟨s, hs, hfatal⟩ := hrun
  refine (h undecodableBody [] s (by simp) hs).running (Or.inl ?_)
  simp [hfatal]

end WebrtcEchoes.Pion.Process
