/-
The end of the sipsorcery test client, and the end of its wait.

`Main` returns the flag that its handlers have set, so the process ends with the verdict
of `Client.main` on the events that the handlers have seen, or by an exception.  Its wait
is over before the timeout when the flag is set, or when the connection is lost; but a
loss in front of the subscription to `OnClosed` is lost on it, since a connection is
closed once.
-/
import WebrtcEchoes.Sipsorcery.Process
import Mathlib.Data.List.TakeWhile

namespace WebrtcEchoes.Sipsorcery.Process

variable {setup : Setup} {s s' : State} {l : Label} {es : List Label}

/-! ### What a step can do -/

/-- What the handlers make of the variables. -/
def handled (setup : Setup) (phase : Phase) (vars : Client.State) : Client.Event → Client.State
  | .message data => Client.onMessage setup.testType setup.pseudo data vars
  | .connectionStateChange state => onConnectionStateChange setup.testType phase state vars

/-- The steps of a process that is still running. -/
inductive Moves (setup : Setup) (s : State) : Label → State → Prop
  | onopen : Moves setup s .onopen s
  | handler {l : Label} {event : Client.Event} (hl : l.event = some event) :
      Moves setup s l { s with vars := handled setup s.phase s.vars event }
  | answered (h : s.phase = .posting) : Moves setup s .answered { s with phase := .starting }
  | started (h : s.phase = .starting) : Moves setup s .started { s with phase := .waiting }
  | thrown {l : Label} (hl : l = .thrown ∨ l = .outOfRange) :
      Moves setup s l { s with exited := some aborted }
  | left {l : Label} (hl : l = .released ∨ l = .timeout) (h : s.phase = .waiting) :
      Moves setup s l (leave s)
  | delayed (h : s.phase = .delaying) :
      Moves setup s .delayed { s with exited := some s.vars.result }

theorem moves_of_step (h : step setup s l = some s') : s.exited = none ∧ Moves setup s l s' := by
  unfold step at h
  split at h
  · simp at h
  · rename_i hlive
    refine ⟨by simpa using hlive, ?_⟩
    cases l with
    | onopen =>
        obtain rfl := Option.some.inj h
        exact .onopen
    | onmessage proto data =>
        obtain rfl := Option.some.inj h
        have hl : Label.event (.onmessage proto data) = some (.message data) := rfl
        exact .handler hl
    | onconnectionstatechange state =>
        obtain rfl := Option.some.inj h
        have hl : Label.event (.onconnectionstatechange state) =
            some (.connectionStateChange state) := rfl
        exact .handler hl
    | answered =>
        simp only [Option.ite_none_right_eq_some, Option.some.injEq] at h
        obtain ⟨hphase, rfl⟩ := h
        exact .answered hphase
    | started =>
        simp only [Option.ite_none_right_eq_some, Option.some.injEq] at h
        obtain ⟨hphase, rfl⟩ := h
        exact .started hphase
    | thrown =>
        simp only [Option.ite_none_right_eq_some, Option.some.injEq] at h
        obtain ⟨-, rfl⟩ := h
        exact .thrown (Or.inl rfl)
    | released =>
        simp only [Option.ite_none_right_eq_some, Option.some.injEq] at h
        obtain ⟨hwait, rfl⟩ := h
        exact .left (Or.inl rfl) hwait.1
    | timeout =>
        simp only at h
        split at h
        · simp only [Option.ite_none_right_eq_some, Option.some.injEq] at h
          obtain ⟨hwait, rfl⟩ := h
          exact .left (Or.inr rfl) hwait.1
        · simp at h
    | outOfRange =>
        simp only [Option.ite_none_right_eq_some, Option.some.injEq] at h
        obtain ⟨-, rfl⟩ := h
        exact .thrown (Or.inr rfl)
    | delayed =>
        simp only [Option.ite_none_right_eq_some, Option.some.injEq] at h
        obtain ⟨hphase, rfl⟩ := h
        exact .delayed hphase

/-! ### The flag -/

@[simp] theorem close_success (phase : Phase) (vars : Client.State) :
    (close phase vars).success = vars.success := by
  unfold close
  split <;> rfl

@[simp] theorem close_closed (phase : Phase) (vars : Client.State) :
    (close phase vars).closed = true := by
  unfold close
  split
  · assumption
  · rfl

/-- A closed connection stays closed. -/
theorem handled_closed {vars : Client.State} (h : vars.closed = true) {phase : Phase}
    {event : Client.Event} : (handled setup phase vars event).closed = true := by
  cases event with
  | message data =>
      simp only [handled, Client.onMessage]
      split
      · split <;> exact h
      · exact h
  | connectionStateChange state =>
      simp only [handled, onConnectionStateChange]
      split
      · exact close_closed phase vars
      · split <;> exact h

/-- The flag does not depend on when the connection was closed. -/
theorem handled_success {vars vars' : Client.State} (h : vars.success = vars'.success)
    (phase : Phase) (event : Client.Event) :
    (handled setup phase vars event).success =
      (Client.handle setup.testType setup.pseudo vars' event).success := by
  cases event with
  | message data =>
      simp only [handled, Client.handle, Client.onMessage]
      split
      · split
        · rfl
        · exact h
      · exact h
  | connectionStateChange state =>
      simp only [handled, Client.handle, onConnectionStateChange, Client.onConnectionStateChange]
      by_cases hlost : state = .disconnected ∨ state = .failed
      · rw [if_pos (show Lost state from hlost), if_pos hlost, close_success]
        exact h
      · rw [if_neg (show ¬ Lost state from hlost), if_neg hlost]
        split
        · rfl
        · exact h

/-- The variables of `Client.main` after the events of a run. -/
def seen (setup : Setup) (es : List Label) : Client.State :=
  (es.filterMap Label.event).foldl (Client.handle setup.testType setup.pseudo)
    { success := false, testComplete := false, closed := false }

theorem seen_snoc (es : List Label) (l : Label) :
    seen setup (es ++ [l]) =
      match l.event with
      | some event => Client.handle setup.testType setup.pseudo (seen setup es) event
      | none => seen setup es := by
  cases h : l.event <;> simp [seen, h]

/-- What a run says about the flag and the end. -/
structure Returns (setup : Setup) (es : List Label) (s : State) : Prop where
  success : s.vars.success = (seen setup es).success
  exited : ∀ n, s.exited = some n → n = aborted ∨ n = s.vars.result

theorem returns_run : ∀ es s, (process setup).run es = some s → Returns setup es s := by
  refine Machine.run_induction ⟨rfl, by simp [process]⟩ ?_
  intro es s l s' _ ih hse
  obtain ⟨hlive, hmoves⟩ := moves_of_step hse
  have hstay : l.event = none → s.vars.success = (seen setup (es ++ [l])).success := by
    intro hnone
    rw [seen_snoc, hnone]
    exact ih.success
  cases hmoves with
  | onopen => exact ⟨hstay rfl, ih.exited⟩
  | handler hl =>
      refine ⟨?_, by simp [hlive]⟩
      rw [seen_snoc, hl]
      exact handled_success ih.success s.phase _
  | answered => exact ⟨hstay rfl, ih.exited⟩
  | started => exact ⟨hstay rfl, ih.exited⟩
  | thrown hl =>
      refine ⟨hstay (by rcases hl with rfl | rfl <;> rfl), ?_⟩
      intro n hn
      exact Or.inl (Option.some.inj hn).symm
  | left hl =>
      have hevent : l.event = none := by rcases hl with rfl | rfl <;> rfl
      unfold leave
      split
      · refine ⟨hstay hevent, ?_⟩
        intro n hn
        exact Or.inr (Option.some.inj hn).symm
      · exact ⟨by simpa using hstay hevent, by simp [hlive]⟩
  | delayed =>
      refine ⟨hstay rfl, ?_⟩
      intro n hn
      exact Or.inr (Option.some.inj hn).symm

/--
**The status of the sipsorcery test client.**

In every run, whatever the handlers do while `Main` posts, starts, waits and delays, a
process that ends has the status that `Client.main` gives for the events its handlers have
seen, or was ended by an exception.
-/
theorem exit_eq {setup : Setup} (x : (process setup).Execution State.exited) :
    x.result = aborted ∨
      x.result = Client.main setup.testType setup.pseudo (x.events.filterMap Label.event) := by
  obtain ⟨s, hs, hexit⟩ := x.final
  have hreturns := returns_run x.events s hs
  refine (hreturns.exited x.result hexit).imp id fun heq => ?_
  rw [heq, Client.State.result, hreturns.success]
  rfl

/-! ### The end of the wait -/

/-- A label by which the handler learns that the connection is lost. -/
def Label.isLost : Label → Bool
  | .onconnectionstatechange state => decide (Lost state)
  | _ => false

def Label.inFront (l : Label) : Bool := decide (l ≠ .answered)

/-- The connection was lost in front of the subscription to `OnClosed`. -/
def lostEarly (es : List Label) : Bool := (es.takeWhile Label.inFront).any Label.isLost

theorem lostEarly_snoc (es : List Label) (l : Label) :
    lostEarly (es ++ [l]) = (lostEarly es || l.isLost && decide (.answered ∉ es)) := by
  unfold lostEarly
  induction es with
  | nil =>
      cases hl : l.inFront with
      | true => simp [hl]
      | false =>
          obtain rfl : l = .answered := by simpa [Label.inFront] using hl
          rfl
  | cons e rest ih =>
      cases he : e.inFront with
      | true =>
          have hne : ¬ .answered = e := by
            rintro rfl
            simp [Label.inFront] at he
          simp [he, ih, hne, Bool.or_assoc]
      | false =>
          obtain rfl : e = .answered := by simpa [Label.inFront] using he
          simp [he]

theorem lostEarly_of_not_mem {es : List Label} (h : .answered ∉ es) :
    lostEarly es = es.any Label.isLost := by
  have hall : ∀ l ∈ es, l.inFront = true := by
    intro l hl
    simpa [Label.inFront] using fun heq : l = .answered => h (heq ▸ hl)
  rw [lostEarly, List.takeWhile_eq_self_iff.mpr hall]

theorem lostEarly_eq_false {es : List Label} (h : es.any Label.isLost = false) :
    lostEarly es = false := by
  refine List.any_eq_false.mpr fun l hl => ?_
  exact List.any_eq_false.mp h l ((List.takeWhile_sublist _).mem hl)

/-- What a run says about `testComplete`, up to the end of the wait. -/
structure Notices (es : List Label) (s : State) : Prop where
  answered : s.phase = .posting ↔ .answered ∉ es
  closed : s.phase ≠ .delaying → s.vars.closed = es.any Label.isLost
  testComplete : s.phase ≠ .delaying →
    s.vars.testComplete = (s.vars.success || s.vars.closed && !lostEarly es)

/-- A step outside the handlers. -/
theorem notices_skip (ih : Notices es s) (hl : l.isLost = false)
    (hphase : s'.phase = .posting ↔ s.phase = .posting ∧ l ≠ .answered)
    (hvars : s'.phase ≠ .delaying → s.phase ≠ .delaying ∧ s'.vars = s.vars) :
    Notices (es ++ [l]) s' := by
  refine ⟨?_, ?_, ?_⟩
  · rw [hphase, ih.answered]
    simp [eq_comm]
  · intro hne
    obtain ⟨hne, hvars⟩ := hvars hne
    simp [hvars, ih.closed hne, hl]
  · intro hne
    obtain ⟨hne, hvars⟩ := hvars hne
    simp [hvars, ih.testComplete hne, lostEarly_snoc, hl]

/-- The connection is closed, now or before. -/
theorem notices_lost (ih : Notices es s) (hl : l.isLost = true) :
    Notices (es ++ [l]) { s with vars := close s.phase s.vars } := by
  have hne : l ≠ .answered := by
    rintro rfl
    simp [Label.isLost] at hl
  refine ⟨?_, ?_, ?_⟩
  · show s.phase = .posting ↔ _
    rw [ih.answered]
    simp [Ne.symm hne]
  · intro _
    simp [hl]
  · intro hphase
    have hclosed := ih.closed hphase
    have hcomplete := ih.testComplete hphase
    show (close s.phase s.vars).testComplete = _
    rw [lostEarly_snoc, hl, close_success, close_closed, Bool.true_and, Bool.true_and]
    unfold close
    cases hc : s.vars.closed with
    | true =>
        -- Nothing changes: a loss in front of the answer was early the first time as well.
        by_cases hmem : .answered ∈ es
        · simp [hcomplete, hc, hmem]
        · have hearly : lostEarly es = true := by
            rw [lostEarly_of_not_mem hmem, ← hclosed, hc]
          simp [hcomplete, hearly]
    | false =>
        have hearly : lostEarly es = false := lostEarly_eq_false (hclosed ▸ hc)
        by_cases hmem : .answered ∈ es
        · have hposting : s.phase ≠ .posting := fun hphase => ih.answered.mp hphase hmem
          simp [hearly, hmem, hposting]
        · have hposting : s.phase = .posting := ih.answered.mpr hmem
          simp [hcomplete, hc, hmem, hposting]

/-- The connection stays as it is; the flag may be set. -/
theorem notices_open (ih : Notices es s) {vars : Client.State} (hl : l.isLost = false)
    (ha : l ≠ .answered) (hclosed : vars.closed = s.vars.closed)
    (hset : vars = s.vars ∨ vars.success = true ∧ vars.testComplete = true) :
    Notices (es ++ [l]) { s with vars := vars } := by
  refine ⟨?_, ?_, ?_⟩
  · show s.phase = .posting ↔ _
    rw [ih.answered]
    simp [Ne.symm ha]
  · intro hphase
    simp [hclosed, ih.closed hphase, hl]
  · intro hphase
    rcases hset with rfl | ⟨hsuccess, hcomplete⟩
    · simp [ih.testComplete hphase, lostEarly_snoc, hl]
    · simp [hsuccess, hcomplete]

theorem notices_run : ∀ es s, (process setup).run es = some s → Notices es s := by
  refine Machine.run_induction ⟨by simp [process], by simp [process], by simp [process]⟩ ?_
  intro es s l s' _ ih hse
  obtain ⟨hlive, hmoves⟩ := moves_of_step hse
  cases hmoves with
  | onopen => exact notices_skip ih rfl (by simp) fun hne => ⟨hne, rfl⟩
  | handler hl =>
      cases l with
      | onmessage proto data =>
          obtain rfl := Option.some.inj hl
          refine notices_open ih rfl (by simp) ?_ ?_
          · simp only [handled, Client.onMessage]
            split
            · split <;> rfl
            · rfl
          · simp only [handled, Client.onMessage]
            split
            · split
              · exact Or.inr ⟨rfl, rfl⟩
              · exact Or.inl rfl
            · exact Or.inl rfl
      | onconnectionstatechange state =>
          obtain rfl := Option.some.inj hl
          by_cases hlost : Lost state
          · have hclose : handled setup s.phase s.vars (.connectionStateChange state) =
                close s.phase s.vars := if_pos hlost
            rw [hclose]
            exact notices_lost ih (by simpa [Label.isLost] using hlost)
          · refine notices_open ih (by simpa [Label.isLost] using hlost) (by simp) ?_ ?_
            · simp only [handled, onConnectionStateChange, if_neg hlost]
              split <;> rfl
            · simp only [handled, onConnectionStateChange, if_neg hlost]
              split
              · exact Or.inr ⟨rfl, rfl⟩
              · exact Or.inl rfl
      | _ => simp [Label.event] at hl
  | answered hphase =>
      exact notices_skip ih rfl (by simp) fun _ => ⟨by simp [hphase], rfl⟩
  | started hphase =>
      exact notices_skip ih rfl (by simp [hphase]) fun _ => ⟨by simp [hphase], rfl⟩
  | thrown hl =>
      refine notices_skip ih ?_ ?_ fun hne => ⟨hne, rfl⟩
      · rcases hl with rfl | rfl <;> rfl
      · rcases hl with rfl | rfl <;> simp
  | left hl hphase =>
      refine notices_skip ih ?_ ?_ ?_
      · rcases hl with rfl | rfl <;> rfl
      · unfold leave
        split <;> simp [hphase]
      · unfold leave
        split
        · exact fun _ => ⟨by simp [hphase], rfl⟩
        · exact fun hne => absurd rfl hne
  | delayed hphase =>
      exact notices_skip ih rfl (by simp) fun hne => ⟨hne, rfl⟩

/--
**When `Main` stops waiting before its timeout.**

In every run it can leave the wait just when the flag is set, or when the connection was
lost and had not been lost before the answer came.  After an early loss only the timeout
is left, since the `Close` that would set `testComplete` has been called already.
-/
theorem wait_ends_iff (setup : Setup) (hwait : Timeouts.wait setup.pcTimeout ≠ .throws)
    {es : List Label} {s : State} (h : (process setup).run es = some s) (hlive : s.exited = none)
    (hphase : s.phase = .waiting) :
    (∃ s', (process setup).step s .released = some s') ↔
      (seen setup es).success = true ∨ es.any Label.isLost = true ∧ lostEarly es = false := by
  have hnotices := notices_run es s h
  have hne : s.phase ≠ .delaying := by simp [hphase]
  have hreleased : (∃ s', (process setup).step s .released = some s') ↔
      s.vars.testComplete = true := by
    simp [process, step, hlive, hphase, hwait]
  rw [hreleased, hnotices.testComplete hne, hnotices.closed hne, (returns_run es s h).success]
  simp

/-- The client of a data channel test with its default timeout. -/
def echoSetup (pseudo : String) : Setup := ⟨.dataChannelEcho, pseudo, 10⟩

/-- The connection fails while the answer is on its way, and `Main` waits all the same. -/
theorem early_loss_waits :
    ¬ ∃ s', (process (echoSetup "12345")).step
      { phase := .waiting
        vars := { success := false, testComplete := false, closed := true }
        exited := none } .released = some s' := by
  have hwait : Timeouts.wait (echoSetup "12345").pcTimeout ≠ .throws := by decide
  have hrun : (process (echoSetup "12345")).run
      [.onconnectionstatechange .failed, .answered, .started] = some
        { phase := .waiting
          vars := { success := false, testComplete := false, closed := true }
          exited := none } := rfl
  rw [wait_ends_iff (echoSetup "12345") hwait hrun rfl rfl]
  decide

end WebrtcEchoes.Sipsorcery.Process
