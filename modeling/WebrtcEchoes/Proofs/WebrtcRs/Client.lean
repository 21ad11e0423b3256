/-
The verdict of the webrtc-rs client.

Of the four ways out of the process only a propagated error carries a status other
than zero: the callback exits with `SUCCESS_RETURN_VALUE` for a failed connection, and
the timer branch of the `select!` falls through to `Ok(())` like the other one.  So the
status is the verdict of the test specification only for runs that fail with an error
and for runs in which `Connected` came first.
-/
import WebrtcEchoes.WebrtcRs.Client

namespace WebrtcEchoes.WebrtcRs.Client

/-- Some call of `main` returned an error. -/
def Errored (es : List Event) : Prop := .main false ∈ es

/-- A state that ends the connection was delivered. -/
def Lost (es : List Event) : Prop := ∃ state, endsProcess state = true ∧ .deliver state ∈ es

/-- `Connected` was delivered before the timer fired and before the connection was lost. -/
def ConnectedFirst (es : List Event) : Prop :=
  ∃ pre post, es = pre ++ .deliver .connected :: post ∧ .timer ∉ pre ∧ ¬ Lost pre

/-! ### What a step does -/

/-- A step that is not a delivery leaves the process running, unless it is its end. -/
theorem step_live {s s' : State} {e : Event} (h : step s e = some s') : s.exited = none := by
  simp only [step] at h
  split at h
  · simp at h
  · rename_i hlive
    simpa using hlive

theorem deliver_cases {s s' : State} {state : PeerConnectionState}
    (h : step s (.deliver state) = some s') : s' = onPeerConnectionStateChange state s := by
  have hlive := step_live h
  simp only [step, hlive, Option.isSome_none, Bool.false_eq_true, if_false] at h
  split at h
  · simp at h
  · exact (Option.some.inj h).symm

theorem exit_cases {s s' : State} (h : step s .exit = some s') :
    ∃ status, s.returned = some status ∧ s' = { s with exited := some status } := by
  have hlive := step_live h
  simp only [step, hlive, Option.isSome_none, Bool.false_eq_true, if_false] at h
  obtain ⟨status, hret, heq⟩ := Option.map_eq_some_iff.mp h
  exact ⟨status, hret, heq.symm⟩

/-- A call of `main` goes on to the next one, returns `Ok`, or returns an error. -/
theorem main_cases {s s' : State} {ok : Bool} (h : step s (.main ok) = some s') :
    s.returned = none ∧
      ((ok = true ∧ ∃ call rest, call ≠ .select ∧ call ≠ .returnOk ∧ s.todo = call :: rest ∧
          s' = { s with todo := rest }) ∨
        (ok = true ∧ ∃ rest, s.todo = .returnOk :: rest ∧
          s' = { s with todo := rest, returned := some 0 }) ∨
        (ok = false ∧ ∃ status, status ≠ 0 ∧ s' = { s with returned := some status })) := by
  have hlive := step_live h
  simp only [step, hlive, Option.isSome_none, Bool.false_eq_true, if_false] at h
  split at h
  · simp at h
  · rename_i hret
    refine ⟨by simpa using hret, ?_⟩
    simp only [mainStep] at h
    split at h
    · simp at h
    · simp at h
    · rename_i rest htodo
      split at h
      · rename_i hok
        exact Or.inr (Or.inl ⟨hok, rest, htodo, (Option.some.inj h).symm⟩)
      · simp at h
    · rename_i call rest hsel hret htodo
      split at h
      · rename_i hok
        exact Or.inl ⟨hok, call, rest, hsel, hret, htodo, (Option.some.inj h).symm⟩
      · rename_i hok
        obtain ⟨status, hst, heq⟩ := Option.map_eq_some_iff.mp h
        refine Or.inr (Or.inr ⟨by simpa using hok, status, ?_, heq.symm⟩)
        cases call <;> simp_all [Call.errorStatus] <;> omega

/-- `select!` goes on through a ready branch. -/
theorem select_cases {s s' : State} {branch : Branch} (h : step s (.select branch) = some s') :
    s.returned = none ∧ branch.ready s = true ∧
      ∃ rest, s.todo = .select :: rest ∧ s' = { s with todo := rest } := by
  have hlive := step_live h
  simp only [step, hlive, Option.isSome_none, Bool.false_eq_true, if_false] at h
  split at h
  · simp at h
  · rename_i hret
    simp only [selectStep] at h
    split at h
    · rename_i rest htodo
      split at h
      · rename_i hready
        exact ⟨by simpa using hret, hready, rest, htodo, (Option.some.inj h).symm⟩
      · simp at h
    · simp at h

theorem timer_cases {s s' : State} (h : step s .timer = some s') :
    s.returned = none ∧ s.timerFired = false ∧ (∃ rest, s.todo = .select :: rest) ∧
      s' = { s with timerFired := true } := by
  have hlive := step_live h
  simp only [step, hlive, Option.isSome_none, Bool.false_eq_true, if_false] at h
  split at h
  · simp at h
  · rename_i hret
    simp only [timerStep] at h
    split at h
    · rename_i rest htodo
      split at h
      · simp at h
      · rename_i hfired
        exact ⟨by simpa using hret, by simpa using hfired, ⟨rest, htodo⟩,
          (Option.some.inj h).symm⟩
    · simp at h

/-! ### The invariant of a run -/

/-- What the state of the client says about the events so far. -/
structure StatusOK (es : List Event) (s : State) : Prop where
  /-- A state that ends the connection ends the process at once. -/
  lost : s.exited = none → ¬ Lost es
  /-- `main` has returned an error just when a call failed. -/
  errored : s.exited = none → (Errored es ↔ ∃ status, s.returned = some status ∧ status ≠ 0)
  /-- The status is zero after a lost connection and after every run without an error. -/
  exited : ∀ status, s.exited = some status → (status = 0 ↔ Lost es ∨ ¬ Errored es)

theorem lost_snoc {es : List Event} {e : Event} :
    Lost (es ++ [e]) ↔ Lost es ∨ ∃ state, endsProcess state = true ∧ e = .deliver state := by
  unfold Lost
  refine ⟨?_, ?_⟩
  · intro ⟨state, hd, hmem⟩
    rcases List.mem_append.mp hmem with hin | hlast
    · exact Or.inl ⟨state, hd, hin⟩
    · exact Or.inr ⟨state, hd, (List.mem_singleton.mp hlast).symm⟩
  · intro h
    rcases h with ⟨state, hd, hmem⟩ | ⟨state, hd, heq⟩
    · exact ⟨state, hd, List.mem_append_left _ hmem⟩
    · exact ⟨state, hd, by simp [heq]⟩

theorem errored_snoc {es : List Event} {e : Event} :
    Errored (es ++ [e]) ↔ Errored es ∨ e = .main false := by
  simp [Errored, eq_comm]

theorem statusOK_init : StatusOK [] client.init :=
  ⟨fun _ => by simp [Lost], fun _ => by simp [Errored, client], by simp [client]⟩

/-- A step that leaves `returned` and `exited` alone and reports no state keeps the invariant. -/
theorem StatusOK.quiet {es : List Event} {s s' : State} {e : Event} (hs : StatusOK es s)
    (hlive : s.exited = none) (hret : s'.returned = s.returned) (hex : s'.exited = s.exited)
    (hfail : e ≠ .main false) (hdel : ∀ state, endsProcess state = true → e ≠ .deliver state) :
    StatusOK (es ++ [e]) s' := by
  have hlost : Lost (es ++ [e]) ↔ Lost es := by
    rw [lost_snoc]
    exact or_iff_left fun ⟨state, hd, heq⟩ => hdel state hd heq
  have herr : Errored (es ++ [e]) ↔ Errored es := by
    rw [errored_snoc]
    exact or_iff_left hfail
  refine ⟨fun _ => by rw [hlost]; exact hs.lost hlive, fun _ => ?_, ?_⟩
  · rw [herr, hret]
    exact hs.errored hlive
  · intro status hst
    rw [hex, hlive] at hst
    simp at hst

theorem statusOK_main {es : List Event} {s s' : State} {ok : Bool} (hs : StatusOK es s)
    (h : step s (.main ok) = some s') : StatusOK (es ++ [.main ok]) s' := by
  have hlive := step_live h
  obtain ⟨hret, hcase⟩ := main_cases h
  have hnone : ¬ Errored es := by
    rw [hs.errored hlive, hret]
    simp
  have hlost : ¬ Lost (es ++ [.main ok]) := by
    rw [lost_snoc]
    simpa using hs.lost hlive
  rcases hcase with ⟨rfl, call, rest, -, -, -, rfl⟩ | ⟨rfl, rest, -, rfl⟩ | ⟨rfl, status, hne, rfl⟩
  · exact hs.quiet hlive rfl rfl (by simp) (by simp)
  · refine ⟨fun _ => hlost, fun _ => ?_, by simp [hlive]⟩
    rw [errored_snoc]
    simpa using hnone
  · refine ⟨fun _ => hlost, fun _ => ?_, by simp [hlive]⟩
    rw [errored_snoc]
    simpa using hne

theorem statusOK_deliver {es : List Event} {s s' : State} {state : PeerConnectionState}
    (hs : StatusOK es s) (h : step s (.deliver state) = some s') :
    StatusOK (es ++ [.deliver state]) s' := by
  have hlive := step_live h
  obtain rfl := deliver_cases h
  by_cases hc : state = .connected
  · have hdel : ∀ st, endsProcess st = true → Event.deliver state ≠ .deliver st := by
      intro st hst heq
      rw [← Event.deliver.inj heq, hc] at hst
      simp [endsProcess] at hst
    refine hs.quiet hlive ?_ ?_ (by simp) hdel
    · simp [onPeerConnectionStateChange, hc]
    · simp [onPeerConnectionStateChange, hc]
  · by_cases hend : endsProcess state = true
    · have hlost : Lost (es ++ [.deliver state]) := ⟨state, hend, by simp⟩
      have hex : (onPeerConnectionStateChange state s).exited = some successReturnValue := by
        simp [onPeerConnectionStateChange, hc, hend]
      refine ⟨fun hn => by simp [hex] at hn, fun hn => by simp [hex] at hn, ?_⟩
      intro status hst
      rw [hex] at hst
      obtain rfl := Option.some.inj hst
      simp [successReturnValue, hlost]
    · have hsame : onPeerConnectionStateChange state s = s := by
        simp [onPeerConnectionStateChange, hc, hend]
      rw [hsame]
      refine hs.quiet hlive rfl rfl (by simp) ?_
      intro st hst heq
      rw [← Event.deliver.inj heq] at hst
      exact hend hst

theorem statusOK_step {es : List Event} {s : State} {e : Event} {s' : State}
    (hs : StatusOK es s) (h : client.step s e = some s') : StatusOK (es ++ [e]) s' := by
  have hlive : s.exited = none := step_live h
  cases e with
  | main ok => exact statusOK_main hs h
  | deliver state => exact statusOK_deliver hs h
  | timer =>
      obtain ⟨-, -, -, rfl⟩ := timer_cases h
      exact hs.quiet hlive rfl rfl (by simp) (by simp)
  | select branch =>
      obtain ⟨-, -, rest, -, rfl⟩ := select_cases h
      exact hs.quiet hlive rfl rfl (by simp) (by simp)
  | exit =>
      obtain ⟨status, hret, rfl⟩ := exit_cases h
      have hlost : ¬ Lost (es ++ [.exit]) := by
        rw [lost_snoc]
        simpa using hs.lost hlive
      have herr : Errored (es ++ [.exit]) ↔ status ≠ 0 := by
        rw [errored_snoc, hs.errored hlive, hret]
        simp
      refine ⟨by simp, by simp, fun status' hst => ?_⟩
      obtain rfl := Option.some.inj hst
      rw [herr]
      simp [hlost]

theorem statusOK_run : ∀ es s, client.run es = some s → StatusOK es s :=
  Machine.run_induction statusOK_init fun _ _ _ _ _ hs h => statusOK_step hs h

/-- **The status of a client that has ended.** -/
theorem status_eq_zero_iff (x : Execution) :
    x.result = 0 ↔ Lost x.events ∨ ¬ Errored x.events := by
  obtain ⟨s, hrun, hex⟩ := x.final
  exact (statusOK_run x.events s hrun).exited x.result hex

/-! ### Every run comes to an end

The only call that waits for something outside its own result is the `select!`, and
its timer always fires.
-/

/-- A `main` that has not returned still has its `Ok(())` ahead. -/
theorem todo_getLast : ∀ es s, client.run es = some s → s.returned = none →
    s.todo.getLast? = some .returnOk := by
  refine Machine.run_induction (fun _ => rfl) ?_
  intro es s e s' _ ih h hret'
  have htail : ∀ {call rest}, call ≠ Call.returnOk → s.todo = call :: rest → s.returned = none →
      rest.getLast? = some .returnOk := by
    intro call rest hne htodo hret
    have hlast := ih hret
    rw [htodo] at hlast
    exact Machine.getLast?_tail hlast hne
  cases e with
  | main ok =>
      obtain ⟨hret, hcase⟩ := main_cases h
      rcases hcase with
        ⟨-, call, rest, -, hne, htodo, rfl⟩ | ⟨-, rest, -, rfl⟩ | ⟨-, status, -, rfl⟩
      · exact htail hne htodo hret
      · simp at hret'
      · simp at hret'
  | deliver state =>
      obtain rfl := deliver_cases h
      have hsame : (onPeerConnectionStateChange state s).todo = s.todo ∧
          (onPeerConnectionStateChange state s).returned = s.returned := by
        unfold onPeerConnectionStateChange
        split
        · exact ⟨rfl, rfl⟩
        · split <;> exact ⟨rfl, rfl⟩
      rw [hsame.1]
      exact ih (hsame.2 ▸ hret')
  | timer =>
      obtain ⟨hret, -, -, rfl⟩ := timer_cases h
      exact ih hret
  | select branch =>
      obtain ⟨hret, -, rest, htodo, rfl⟩ := select_cases h
      exact htail (by simp) htodo hret
  | exit =>
      obtain ⟨status, hret, rfl⟩ := exit_cases h
      simp [hret] at hret'

/-- What is left to happen: the calls of `main`, the timer, the return and the end. -/
def remaining (s : State) : Nat :=
  s.todo.length + (if s.timerFired then 0 else 1) + (if s.returned.isSome then 0 else 1) +
    if s.exited.isSome then 0 else 1

/-- A call of `main` that succeeds, other than the last two, leaves the rest. -/
theorem mainStep_ok {s : State} {call : Call} {rest : List Call} (htodo : s.todo = call :: rest)
    (hsel : call ≠ .select) (hok : call ≠ .returnOk) :
    mainStep s true = some { s with todo := rest } := by
  unfold mainStep
  rw [htodo]
  cases call with
  | select => exact absurd rfl hsel
  | returnOk => exact absurd rfl hok
  | _ => rfl

/-- A running client can take a step towards its end. -/
theorem progress (es : List Event) (s : State) (h : client.run es = some s)
    (hlive : s.exited = none) :
    ∃ e s', client.step s e = some s' ∧ remaining s' < remaining s := by
  cases hret : s.returned with
  | some status =>
      refine ⟨.exit, { s with exited := some status }, ?_, ?_⟩
      · simp [client, step, hlive, hret]
      · simp [remaining, hlive, hret]
  | none =>
      have hlast := todo_getLast es s h hret
      cases htodo : s.todo with
      | nil =>
          rw [htodo] at hlast
          simp at hlast
      | cons call rest =>
          by_cases hsel : call = .select
          · subst hsel
            cases hfired : s.timerFired with
            | false =>
                refine ⟨.timer, { s with timerFired := true }, ?_, ?_⟩
                · simp [client, step, timerStep, hlive, hret, htodo, hfired]
                · simp [remaining, hfired]
            | true =>
                refine ⟨.select .timeout, { s with todo := rest }, ?_, ?_⟩
                · simp [client, step, selectStep, Branch.ready, hlive, hret, htodo, hfired]
                · simp [remaining, htodo]
          · by_cases hok : call = .returnOk
            · subst hok
              refine ⟨.main true, { s with todo := rest, returned := some 0 }, ?_, ?_⟩
              · simp [client, step, mainStep, hlive, hret, htodo]
              · simp only [remaining, htodo, List.length_cons, hret, Option.isSome_some,
                  Option.isSome_none, Bool.false_eq_true, if_true, if_false]
                omega
            · refine ⟨.main true, { s with todo := rest }, ?_, ?_⟩
              · simp [client, step, hlive, hret, mainStep_ok htodo hsel hok]
              · simp only [remaining, htodo, List.length_cons]
                omega

/-- **Every run of the client can be run to its end.** -/
theorem run_exits : ∀ es s, client.run es = some s → ∃ x : Execution, es <+: x.events :=
  Machine.exists_execution remaining progress

/-! ### The verdict of the specification -/

/--
**When the exit status is the verdict of the test specification.**

Every run can be run to its end.  The status of one that has ended says whether no call
failed and `Connected` came before the timer and before every state that ends the
connection just in these cases: a call failed and no such state was delivered while the
runtime went down, or no call failed and `Connected` did come first.
-/
theorem exit_verdict_iff (es : List Event) :
    (∀ s, client.run es = some s → ∃ x : Execution, es <+: x.events) ∧
      ∀ status, (client.run es).bind State.exited = some status →
        ((status = 0 ↔ ¬ Errored es ∧ ConnectedFirst es) ↔
          ((Errored es ∧ ¬ Lost es) ∨ (¬ Errored es ∧ ConnectedFirst es))) := by
  refine ⟨run_exits es, fun status h => ?_⟩
  have hstatus := status_eq_zero_iff ⟨es, status, h⟩
  simp only at hstatus
  rw [hstatus]
  tauto

/-- A run in which the connection fails and nothing else happens. -/
def failedRun : List Event := List.replicate 16 (.main true) ++ [.deliver .failed]

/-- The client reports it as a success. -/
theorem failed_exits_with_success :
    ∃ x : Execution, x.events = failedRun ∧ x.result = 0 ∧
      ¬ (x.result = 0 ↔ ¬ Errored x.events ∧ ConnectedFirst x.events) := by
  refine ⟨⟨failedRun, 0, by decide⟩, rfl, rfl, fun h => ?_⟩
  obtain ⟨-, pre, post, heq, -, -⟩ := h.mp rfl
  have hmem : Event.deliver .connected ∈ pre ++ .deliver .connected :: post := by simp
  rw [← heq] at hmem
  exact absurd hmem (by decide)

end WebrtcEchoes.WebrtcRs.Client
