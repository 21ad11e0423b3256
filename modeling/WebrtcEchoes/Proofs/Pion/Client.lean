/-
The verdict of the pion client.

The client exits with the success status exactly when no call of `main` panicked and
one of the states `Connected`, `Disconnected`, `Failed` and `Closed` was delivered:
both branches of the callback set `connectResult` to `true`.  So its verdict is the
one of the test specification in three cases only, which `verdict_iff` lists.
-/
import WebrtcEchoes.Pion.Client

namespace WebrtcEchoes.Pion.Client

/-- The states the callback reacts to. -/
def Decisive (state : PeerConnectionState) : Prop :=
  state = .connected ∨ state = .disconnected ∨ state = .failed ∨ state = .closed

/-- Some call of `main` panicked. -/
def Panicked (es : List Event) : Prop := .main false ∈ es

/-- `Connected` was delivered while the context had not ended. -/
def ConnectedInTime (es : List Event) : Prop :=
  ∃ pre post s, es = pre ++ .deliver .connected :: post ∧ client.run pre = some s ∧
    s.ctxDone = false

/-- Some state the callback reacts to was delivered. -/
def Decided (es : List Event) : Prop := ∃ state, Decisive state ∧ .deliver state ∈ es

/-! ### What a step does -/

/-- A call of `main` returns, or it is the last one and exits, or it panics. -/
theorem main_cases {s s' : State} {ok : Bool} (h : step s (.main ok) = some s') :
    s.exited = none ∧
      ((ok = true ∧ ∃ call rest, call ≠ .readResult ∧ (call = .ctxDone → s.ctxDone = true) ∧
          s.todo = call :: rest ∧ s' = { s with todo := rest }) ∨
        (ok = true ∧ ∃ rest, s.todo = .readResult :: rest ∧ s' = { s with
          todo := rest
          exited := some (if s.connectResult then successReturnValue else errorReturnValue) }) ∨
        (ok = false ∧ s' = { s with exited := some errorReturnValue })) := by
  simp only [step] at h
  split at h
  · simp at h
  · rename_i hlive
    refine ⟨by simpa using hlive, ?_⟩
    simp only [mainStep] at h
    split at h
    · simp at h
    · rename_i rest htodo
      split at h
      · rename_i hok
        obtain rfl := Option.some.inj h
        exact Or.inl ⟨hok.1, _, _, by simp, fun _ => hok.2, htodo, rfl⟩
      · simp at h
    · rename_i rest htodo
      split at h
      · rename_i hok
        obtain rfl := Option.some.inj h
        exact Or.inr (Or.inl ⟨hok, rest, htodo, rfl⟩)
      · simp at h
    · rename_i call rest hdone hread htodo
      split at h
      · rename_i hok
        obtain rfl := Option.some.inj h
        exact Or.inl ⟨hok, call, rest, hread, fun hc => (hdone hc).elim, htodo, rfl⟩
      · rename_i hok
        split at h
        · obtain rfl := Option.some.inj h
          exact Or.inr (Or.inr ⟨by simpa using hok, rfl⟩)
        · simp at h

theorem deliver_cases {s s' : State} {state : PeerConnectionState}
    (h : step s (.deliver state) = some s') :
    s.exited = none ∧ s' = onConnectionStateChange state s := by
  simp only [step] at h
  split at h
  · simp at h
  · rename_i hlive
    split at h
    · simp at h
    · exact ⟨by simpa using hlive, (Option.some.inj h).symm⟩

/-- A callback's `cancel()` and the timer both end the context and do nothing else. -/
theorem ctx_cases {s s' : State} {e : Event} (he : e = .cancel ∨ e = .expire)
    (h : step s e = some s') :
    s.exited = none ∧ ∃ n, s' = { s with cancels := n, ctxDone := true } := by
  simp only [step] at h
  split at h
  · simp at h
  · rename_i hlive
    refine ⟨by simpa using hlive, ?_⟩
    rcases he with rfl | rfl
    · simp only at h
      split at h
      · simp at h
      · exact ⟨s.cancels - 1, (Option.some.inj h).symm⟩
    · simp only at h
      split at h
      · simp at h
      · exact ⟨s.cancels, (Option.some.inj h).symm⟩

@[simp] theorem onConnectionStateChange_exited (state : PeerConnectionState) (s : State) :
    (onConnectionStateChange state s).exited = s.exited := by
  unfold onConnectionStateChange
  split
  · rfl
  · split <;> rfl

@[simp] theorem onConnectionStateChange_todo (state : PeerConnectionState) (s : State) :
    (onConnectionStateChange state s).todo = s.todo := by
  unfold onConnectionStateChange
  split
  · rfl
  · split <;> rfl

theorem onConnectionStateChange_result (state : PeerConnectionState) (s : State) :
    (onConnectionStateChange state s).connectResult = true ↔
      s.connectResult = true ∨ Decisive state := by
  unfold onConnectionStateChange Decisive
  by_cases hc : state = .connected
  · simp [hc]
  · by_cases hd : state = .disconnected ∨ state = .failed ∨ state = .closed
    · simp [hc, hd]
    · simp [hc, hd]

/-! ### The invariant of a run -/

/-- What the variables of the client say about the events so far. -/
structure VerdictOK (es : List Event) (s : State) : Prop where
  /-- `connectResult` is set by any decisive state, not only by `Connected`. -/
  result : s.connectResult = true ↔ Decided es
  /-- A running process has not panicked. -/
  running : s.exited = none → ¬ Panicked es
  /-- The status is the error status after a panic, else the one `connectResult` selects. -/
  exited : ∀ status, s.exited = some status →
    (status = successReturnValue ↔ ¬ Panicked es ∧ s.connectResult = true)

theorem verdictOK_init : VerdictOK [] client.init :=
  ⟨by simp [client, Decided], by simp [Panicked], by simp [client]⟩

theorem decided_snoc {es : List Event} {e : Event} :
    Decided (es ++ [e]) ↔ Decided es ∨ ∃ state, Decisive state ∧ e = .deliver state := by
  unfold Decided
  refine ⟨?_, ?_⟩
  · intro ⟨state, hd, hmem⟩
    rcases List.mem_append.mp hmem with hin | hlast
    · exact Or.inl ⟨state, hd, hin⟩
    · exact Or.inr ⟨state, hd, (List.mem_singleton.mp hlast).symm⟩
  · rintro (⟨state, hd, hmem⟩ | ⟨state, hd, rfl⟩)
    · exact ⟨state, hd, List.mem_append_left _ hmem⟩
    · exact ⟨state, hd, by simp⟩

/-- Ending the context changes neither the verdict nor the history it is read from. -/
theorem verdictOK_ctx {es : List Event} {s : State} {e : Event} {s' : State}
    (he : e = .cancel ∨ e = .expire) (hs : VerdictOK es s) (h : step s e = some s') :
    VerdictOK (es ++ [e]) s' := by
  obtain ⟨hlive, n, rfl⟩ := ctx_cases he h
  have hp : ¬ Panicked (es ++ [e]) := by
    intro hp
    rcases List.mem_append.mp hp with hin | hlast
    · exact hs.running hlive hin
    · rw [← List.mem_singleton.mp hlast] at he
      simp at he
  have hdec : Decided (es ++ [e]) ↔ Decided es := by
    rw [decided_snoc]
    refine or_iff_left ?_
    intro ⟨state, _, heq⟩
    rw [heq] at he
    simp at he
  exact ⟨by rw [hdec]; exact hs.result, fun _ => hp, by simp [hlive]⟩

theorem verdictOK_step {es : List Event} {s : State} {e : Event} {s' : State}
    (hs : VerdictOK es s) (h : client.step s e = some s') : VerdictOK (es ++ [e]) s' := by
  cases e with
  | main ok =>
      obtain ⟨hlive, hcase⟩ := main_cases h
      have hnp := hs.running hlive
      have hdec : Decided (es ++ [.main ok]) ↔ Decided es := by simp [decided_snoc]
      rcases hcase with ⟨rfl, call, rest, -, -, -, rfl⟩ | ⟨rfl, rest, -, rfl⟩ | ⟨rfl, rfl⟩
      · have hp : ¬ Panicked (es ++ [.main true]) := by simpa [Panicked] using hnp
        exact ⟨by rw [hdec]; exact hs.result, fun _ => hp, by simp [hlive]⟩
      · have hp : ¬ Panicked (es ++ [.main true]) := by simpa [Panicked] using hnp
        refine ⟨by rw [hdec]; exact hs.result, fun _ => hp, ?_⟩
        intro status hst
        obtain rfl := Option.some.inj hst
        cases hres : s.connectResult <;> simp [hp, successReturnValue, errorReturnValue]
      · have hp : Panicked (es ++ [.main false]) := by simp [Panicked]
        refine ⟨by rw [hdec]; exact hs.result, by simp, ?_⟩
        intro status hst
        obtain rfl : errorReturnValue = status := by simpa using hst
        simp [hp, successReturnValue, errorReturnValue]
  | deliver state =>
      obtain ⟨hlive, rfl⟩ := deliver_cases h
      have hp : ¬ Panicked (es ++ [.deliver state]) := by
        simpa [Panicked] using hs.running hlive
      refine ⟨?_, fun _ => hp, by simp [hlive]⟩
      rw [onConnectionStateChange_result, hs.result, decided_snoc]
      simp
  | cancel => exact verdictOK_ctx (Or.inl rfl) hs h
  | expire => exact verdictOK_ctx (Or.inr rfl) hs h

theorem verdictOK_run : ∀ es s, client.run es = some s → VerdictOK es s :=
  Machine.run_induction verdictOK_init fun _ _ _ _ _ hs h => verdictOK_step hs h

/-- **The status of a client that has exited.** -/
theorem status_eq_success_iff (x : Execution) :
    x.result = successReturnValue ↔ ¬ Panicked x.events ∧ Decided x.events := by
  obtain ⟨s, hrun, hex⟩ := x.final
  have hok := verdictOK_run x.events s hrun
  rw [hok.exited x.result hex, hok.result]

theorem ConnectedInTime.decided {es : List Event} (h : ConnectedInTime es) : Decided es := by
  obtain ⟨pre, post, -, rfl, -, -⟩ := h
  exact ⟨.connected, Or.inl rfl, by simp⟩

/-! ### Every run comes to an end

Once the context has ended nothing blocks `main` any more, and its last call exits.
The context ends at the latest by its timer.
-/

/-- A running `main` has its last call still ahead. -/
theorem todo_getLast : ∀ es s, client.run es = some s → s.exited = none →
    s.todo.getLast? = some .readResult := by
  refine Machine.run_induction (fun _ => rfl) ?_
  intro es s e s' _ ih h hlive'
  cases e with
  | main ok =>
      obtain ⟨hlive, hcase⟩ := main_cases h
      have hlast := ih hlive
      rcases hcase with ⟨-, call, rest, hne, -, htodo, rfl⟩ | ⟨-, rest, -, rfl⟩ | ⟨-, rfl⟩
      · rw [htodo] at hlast
        exact Machine.getLast?_tail hlast hne
      · simp at hlive'
      · simp at hlive'
  | deliver state =>
      obtain ⟨hlive, rfl⟩ := deliver_cases h
      rw [onConnectionStateChange_todo]
      exact ih hlive
  | cancel =>
      obtain ⟨hlive, n, rfl⟩ := ctx_cases (Or.inl rfl) h
      exact ih hlive
  | expire =>
      obtain ⟨hlive, n, rfl⟩ := ctx_cases (Or.inr rfl) h
      exact ih hlive

/-- What is left to happen: the end of the context, and the calls of `main`. -/
def remaining (s : State) : Nat := s.todo.length + if s.ctxDone then 0 else 1

/-- A running client can take a step towards its exit. -/
theorem progress (es : List Event) (s : State) (h : client.run es = some s)
    (hlive : s.exited = none) :
    ∃ e s', client.step s e = some s' ∧ remaining s' < remaining s := by
  cases hctx : s.ctxDone with
  | false =>
      refine ⟨.expire, { s with ctxDone := true }, ?_, ?_⟩
      · simp [client, step, hlive, hctx]
      · simp [remaining, hctx]
  | true =>
      have hlast := todo_getLast es s h hlive
      cases htodo : s.todo with
      | nil =>
          rw [htodo] at hlast
          simp at hlast
      | cons call rest =>
          refine ⟨.main true, ?_⟩
          cases call <;> simp [client, step, mainStep, remaining, hlive, hctx, htodo]

/-- **Every run of the client can be run to its exit.** -/
theorem run_exits : ∀ es s, client.run es = some s → ∃ x : Execution, es <+: x.events :=
  Machine.exists_execution remaining progress

/-! ### The verdict of the specification -/

/--
**When the exit status is the verdict of the test specification.**

Every run can be run to an exit.  The status of one that has exited says whether no call
panicked and `Connected` was delivered before the context ended just in these cases: a
call panicked, or `Connected` was delivered in time, or none of the four states that set
`connectResult` was delivered at all.
-/
theorem verdict_iff (es : List Event) :
    (∀ s, client.run es = some s → ∃ x : Execution, es <+: x.events) ∧
      ∀ status, (client.run es).bind State.exited = some status →
        ((status = successReturnValue ↔ ¬ Panicked es ∧ ConnectedInTime es) ↔
          (Panicked es ∨ ConnectedInTime es ∨ ¬ Decided es)) := by
  refine ⟨run_exits es, fun status h => ?_⟩
  have hstatus : status = successReturnValue ↔ ¬ Panicked es ∧ Decided es :=
    status_eq_success_iff ⟨es, status, h⟩
  have hdec : ConnectedInTime es → Decided es := ConnectedInTime.decided
  rw [hstatus]
  tauto

/-- A run in which the connection fails and nothing else happens. -/
def failedRun : List Event :=
  List.replicate 12 (.main true) ++ [.deliver .failed, .cancel, .main true, .main true]

/-- The client reports it as a success. -/
theorem failed_reported_as_success :
    ∃ x : Execution, x.events = failedRun ∧ x.result = successReturnValue ∧
      ¬ (x.result = successReturnValue ↔ ¬ Panicked x.events ∧ ConnectedInTime x.events) := by
  refine ⟨⟨failedRun, successReturnValue, by decide⟩, rfl, rfl, fun h => ?_⟩
  obtain ⟨-, pre, post, -, heq, -, -⟩ := h.mp rfl
  have hmem : Event.deliver .connected ∈ pre ++ .deliver .connected :: post := by simp
  rw [← heq] at hmem
  exact absurd hmem (by decide)

end WebrtcEchoes.Pion.Client
