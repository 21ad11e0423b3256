/-
Which answer the gstreamer server sends, and which one it sets.

The answer sent is what the `create-answer` of the handler gave, and the answer set is what
the `create-answer` of `on_offer_set` gave.  That holds after every schedule, whichever of
the two the webrtcbin executes first, so the two agree only where the webrtcbin gives the
same answer twice.
-/
import Mathlib.Data.List.Nodup
import WebrtcEchoes.Gstreamer.Server

namespace WebrtcEchoes.Gstreamer.Server

variable {δ : Type} {s s' : Negotiation δ} {e : Event δ} {es : List (Event δ)}

/-! ### The steps -/

inductive Move (s : Negotiation δ) : Event δ → Negotiation δ → Prop
  | setOffer (h : s.promise = .notMade) :
      Move s (.setOffer true) { s.emit .setRemoteDescription with promise := .pending }
  | badOffer (h : s.promise = .notMade) :
      Move s (.setOffer false) { s with process := .aborted }
  | emitCreateAnswer (h : s.createAnswerPromise = .notMade) :
      Move s .emitCreateAnswer
        { s.emit (.createAnswer .handler) with createAnswerPromise := .pending }
  | respond {a : δ} (h : s.createAnswerPromise = .ended (.answer a)) :
      Move s .waitOver { s with
        createAnswerPromise := .taken (.answer a), response := some (.answer a) }
  | respondUnwritten (h : s.createAnswerPromise = .ended .noAnswer) :
      Move s .waitOver { s with process := .undefined }
  | timeOut (h : s.createAnswerPromise = .ended .notReplied) :
      Move s .waitOver { s with
        createAnswerPromise := .taken .notReplied, response := some .timedOut }
  | onOfferSet (h : s.promise = .ended ()) :
      Move s .onOfferSet { s.emit (.createAnswer .onOfferSet) with
        promise := .taken (), answerPromise := .pending }
  | onAnswerCreated {a : δ} (h : s.answerPromise = .ended (.answer a)) :
      Move s .onAnswerCreated { s.emit (.setLocalDescription a) with
        answerPromise := .taken (.answer a), setLocalPromise := .pending }
  | setUnwritten (h : s.answerPromise = .ended .noAnswer) :
      Move s .onAnswerCreated { s with process := .undefined }
  | assertReplied (h : s.answerPromise = .ended .notReplied) :
      Move s .onAnswerCreated { s with process := .aborted }
  | setRemoteDescription {rest : List (Task δ)} (h : s.queue = .setRemoteDescription :: rest) :
      Move s .setRemoteDescription { s with queue := rest, promise := .ended () }
  | createHandler {rest : List (Task δ)} {reply : Reply δ}
      (h : s.queue = .createAnswer .handler :: rest) :
      Move s (.createAnswer .handler reply)
        { s with queue := rest, createAnswerPromise := .ended reply }
  | createOnOfferSet {rest : List (Task δ)} {reply : Reply δ}
      (h : s.queue = .createAnswer .onOfferSet :: rest) :
      Move s (.createAnswer .onOfferSet reply)
        { s with queue := rest, answerPromise := .ended reply }
  | setLocalDescription {a : δ} {rest : List (Task δ)} {ok : Bool}
      (h : s.queue = .setLocalDescription a :: rest) :
      Move s (.setLocalDescription ok) { s with
        queue := rest
        setLocalPromise := .ended ok
        localDescription := if ok then some a else s.localDescription }

/-- What the handler does next. -/
theorem handler_move (h : act s e = some s')
    (he : (∃ parsed, e = .setOffer parsed) ∨ e = .emitCreateAnswer ∨ e = .waitOver) :
    Move s e s' := by
  rcases he with ⟨parsed, rfl⟩ | rfl | rfl
  · simp only [act, setOffer] at h
    split at h
    · rename_i hp
      cases parsed with
      | true => exact Option.some.inj h ▸ .setOffer hp
      | false => exact Option.some.inj h ▸ .badOffer hp
    · simp at h
  · simp only [act, emitCreateAnswer] at h
    split at h
    · simp at h
    · rename_i hnew _
      exact Option.some.inj h ▸ .emitCreateAnswer hnew
    · simp at h
  · simp only [act, waitOver] at h
    split at h
    · rename_i hp
      exact Option.some.inj h ▸ .respond hp
    · rename_i hp
      exact Option.some.inj h ▸ .respondUnwritten hp
    · rename_i hp
      exact Option.some.inj h ▸ .timeOut hp
    · simp at h

/-- What a change function does. -/
theorem callback_move (h : act s e = some s') (he : e = .onOfferSet ∨ e = .onAnswerCreated) :
    Move s e s' := by
  rcases he with rfl | rfl
  · simp only [act, onOfferSet] at h
    split at h
    · rename_i hp
      exact Option.some.inj h ▸ .onOfferSet hp
    · simp at h
  · simp only [act, onAnswerCreated] at h
    split at h
    · rename_i hp
      exact Option.some.inj h ▸ .onAnswerCreated hp
    · rename_i hp
      exact Option.some.inj h ▸ .setUnwritten hp
    · rename_i hp
      exact Option.some.inj h ▸ .assertReplied hp
    · simp at h

theorem act_move (h : act s e = some s') : Move s e s' := by
  cases e with
  | setOffer parsed => exact handler_move h (by simp)
  | emitCreateAnswer => exact handler_move h (by simp)
  | waitOver => exact handler_move h (by simp)
  | onOfferSet => exact callback_move h (by simp)
  | onAnswerCreated => exact callback_move h (by simp)
  | setRemoteDescription =>
      simp only [act, Negotiation.setRemoteDescription] at h
      split at h
      · rename_i hq
        exact Option.some.inj h ▸ .setRemoteDescription hq
      · simp at h
  | createAnswer asker reply =>
      simp only [act, Negotiation.createAnswer] at h
      split at h
      · rename_i hq
        exact Option.some.inj h ▸ .createHandler hq
      · rename_i hq
        exact Option.some.inj h ▸ .createOnOfferSet hq
      · simp at h
  | setLocalDescription ok =>
      simp only [act, Negotiation.setLocalDescription] at h
      split at h
      · rename_i hq
        exact Option.some.inj h ▸ .setLocalDescription hq
      · simp at h

/-- Every step is one of the listed ones. -/
theorem step_move (h : (negotiation δ).step s e = some s') : Move s e s' := by
  simp only [negotiation, step] at h
  split at h
  · exact act_move h
  · simp at h

@[simp] theorem emit_process (t : Task δ) : (s.emit t).process = s.process := rfl
@[simp] theorem emit_promise (t : Task δ) : (s.emit t).promise = s.promise := rfl
@[simp] theorem emit_answerPromise (t : Task δ) :
    (s.emit t).answerPromise = s.answerPromise := rfl
@[simp] theorem emit_createAnswerPromise (t : Task δ) :
    (s.emit t).createAnswerPromise = s.createAnswerPromise := rfl
@[simp] theorem emit_setLocalPromise (t : Task δ) :
    (s.emit t).setLocalPromise = s.setLocalPromise := rfl

/-! ### What is queued -/

/-- The promise of the request is pending. -/
def Pending (s : Negotiation δ) : Task δ → Prop
  | .setRemoteDescription => s.promise = .pending
  | .createAnswer .handler => s.createAnswerPromise = .pending
  | .createAnswer .onOfferSet => s.answerPromise = .pending
  | .setLocalDescription a => s.setLocalPromise = .pending ∧ s.answerPromise = .taken (.answer a)

/-- The queue holds the requests whose promises are pending, each of them once. -/
structure QueueOK (s : Negotiation δ) : Prop where
  nodup : s.queue.Nodup
  mem : ∀ t, t ∈ s.queue ↔ Pending s t

theorem QueueOK.emit {t : Task δ} (hs : QueueOK s) (hnew : ¬ Pending s t)
    (hpending : ∀ u, Pending s' u ↔ Pending s u ∨ u = t) (hq : s'.queue = s.queue ++ [t]) :
    QueueOK s' := by
  refine ⟨?_, ?_⟩
  · have ht : t ∉ s.queue := fun h => hnew ((hs.mem t).mp h)
    rw [hq]
    exact hs.nodup.append (List.nodup_singleton t) (List.disjoint_singleton.mpr ht)
  · intro u
    rw [hq, hpending, List.mem_append, List.mem_singleton, hs.mem]

theorem QueueOK.execute {t : Task δ} {rest : List (Task δ)} (hs : QueueOK s)
    (hq : s.queue = t :: rest) (hpending : ∀ u, Pending s' u ↔ Pending s u ∧ u ≠ t)
    (hq' : s'.queue = rest) : QueueOK s' := by
  have hnodup : t ∉ rest ∧ rest.Nodup := List.nodup_cons.mp (hq ▸ hs.nodup)
  refine ⟨hq' ▸ hnodup.2, ?_⟩
  intro u
  rw [hq', hpending, ← hs.mem, hq, List.mem_cons]
  refine ⟨?_, ?_⟩
  · intro hu
    refine ⟨Or.inr hu, ?_⟩
    rintro rfl
    exact hnodup.1 hu
  · rintro ⟨rfl | hu, hne⟩
    · exact absurd rfl hne
    · exact hu

/-- The head of the queue waits for its execution. -/
theorem QueueOK.head {t : Task δ} {rest : List (Task δ)} (hs : QueueOK s)
    (hq : s.queue = t :: rest) : Pending s t :=
  (hs.mem t).mp (hq ▸ List.mem_cons_self)

/-- The chain of callbacks: each makes its promise when it takes the one before. -/
structure ChainOK (s : Negotiation δ) : Prop where
  queue : QueueOK s
  answer : s.answerPromise ≠ .notMade ↔ s.promise = .taken ()
  setLocal : s.setLocalPromise ≠ .notMade ↔ ∃ a, s.answerPromise = .taken (.answer a)
  taken : ∀ reply, s.answerPromise = .taken reply → ∃ a, reply = .answer a
  interrupted : ∀ ok, s.setLocalPromise ≠ .taken ok

theorem chainOK_init : ChainOK (negotiation δ).init := by
  refine ⟨⟨by simp [negotiation], ?_⟩, ?_, ?_, ?_, ?_⟩
  · intro t
    rcases t with _ | (_ | _) | _ <;> simp [negotiation, Pending]
  all_goals simp [negotiation]

/-- While `on_offer_set` has not run, it has made no promise. -/
theorem ChainOK.answer_notMade (hs : ChainOK s) (h : s.promise ≠ .taken ()) :
    s.answerPromise = .notMade := by
  by_contra hne
  exact h (hs.answer.mp hne)

/-- While `on_answer_created` has not run, it has made no promise. -/
theorem ChainOK.setLocal_notMade (hs : ChainOK s) (h : ∀ r, s.answerPromise ≠ .taken r) :
    s.setLocalPromise = .notMade := by
  by_contra hne
  obtain ⟨a, ha⟩ := hs.setLocal.mp hne
  exact h _ ha

theorem ChainOK.step (hs : ChainOK s) (hm : Move s e s') : ChainOK s' := by
  cases hm with
  | setOffer h =>
      have hanswer : s.answerPromise = .notMade := hs.answer_notMade (by simp [h])
      refine ⟨hs.queue.emit (by simp [Pending, h]) ?_ rfl, by simp [hanswer], hs.setLocal,
        hs.taken, hs.interrupted⟩
      intro u
      rcases u with _ | (_ | _) | _ <;> simp [Pending, h]
  | badOffer h | respondUnwritten h | setUnwritten h | assertReplied h =>
      exact ⟨⟨hs.queue.nodup, hs.queue.mem⟩, hs.answer, hs.setLocal, hs.taken, hs.interrupted⟩
  | emitCreateAnswer h =>
      refine ⟨hs.queue.emit (by simp [Pending, h]) ?_ rfl, hs.answer, hs.setLocal, hs.taken,
        hs.interrupted⟩
      intro u
      rcases u with _ | (_ | _) | _ <;> simp [Pending, h]
  | respond h | timeOut h =>
      refine ⟨⟨hs.queue.nodup, ?_⟩, hs.answer, hs.setLocal, hs.taken, hs.interrupted⟩
      intro u
      rw [hs.queue.mem]
      rcases u with _ | (_ | _) | _ <;> simp [Pending, h]
  | onOfferSet h =>
      have hanswer : s.answerPromise = .notMade := hs.answer_notMade (by simp [h])
      refine ⟨hs.queue.emit (by simp [Pending, hanswer]) ?_ rfl, by simp, ?_, by simp,
        hs.interrupted⟩
      · intro u
        rcases u with _ | (_ | _) | _ <;> simp [Pending, h, hanswer]
      · simpa [hanswer] using hs.setLocal
  | onAnswerCreated h =>
      refine ⟨hs.queue.emit (by simp [Pending, h]) ?_ rfl, ?_, by simp, ?_, by simp⟩
      · intro u
        rcases u with _ | (_ | _) | _ <;> simp [Pending, h, eq_comm]
      · simpa [h] using hs.answer
      · intro reply hr
        exact ⟨_, by simpa using hr.symm⟩
  | setRemoteDescription h =>
      have hp : s.promise = .pending := hs.queue.head h
      have hanswer : s.answerPromise = .notMade := hs.answer_notMade (by simp [hp])
      refine ⟨hs.queue.execute h ?_ rfl, by simp [hanswer], hs.setLocal, hs.taken, hs.interrupted⟩
      intro u
      rcases u with _ | (_ | _) | _ <;> simp [Pending, hp]
  | createHandler h =>
      refine ⟨hs.queue.execute h ?_ rfl, hs.answer, hs.setLocal, hs.taken, hs.interrupted⟩
      intro u
      rcases u with _ | (_ | _) | _ <;> simp [Pending]
  | createOnOfferSet h =>
      have hp : s.answerPromise = .pending := hs.queue.head h
      refine ⟨hs.queue.execute h ?_ rfl, ?_, ?_, by simp, hs.interrupted⟩
      · intro u
        rcases u with _ | (_ | _) | _ <;> simp [Pending, hp]
      · simpa [hp] using hs.answer
      · simpa [hp] using hs.setLocal
  | setLocalDescription h =>
      obtain ⟨hp, hanswer⟩ := hs.queue.head h
      refine ⟨hs.queue.execute h ?_ rfl, hs.answer, ?_, hs.taken, by simp⟩
      · intro u
        rcases u with _ | (_ | _) | _ <;> simp [Pending, hp, hanswer, eq_comm]
      · simpa [hp] using hs.setLocal

theorem chainOK_run : ∀ es s, (negotiation δ).run es = some s → ChainOK s :=
  Machine.run_induction chainOK_init fun _ _ _ _ _ ih h => ih.step (step_move h)

/-! ### What the webrtcbin gave -/

/-- What a promise ended with. -/
def Promise.result {ρ : Type} : Promise ρ → Option ρ
  | .ended r | .taken r => some r
  | .notMade | .pending => none

/-- Each request is executed once, and what came of it stands in the schedule. -/
structure HistoryOK (es : List (Event δ)) (s : Negotiation δ) : Prop where
  handler : ∀ r, .createAnswer .handler r ∈ es ↔ s.createAnswerPromise.result = some r
  onOfferSet : ∀ r, .createAnswer .onOfferSet r ∈ es ↔ s.answerPromise.result = some r
  setLocal : ∀ ok, .setLocalDescription ok ∈ es ↔ s.setLocalPromise.result = some ok
  waited : .waitOver ∈ es → s.createAnswerPromise.result ≠ none
  response : ∀ a, s.response = some (.answer a) ↔
    .createAnswer .handler (.answer a) ∈ es ∧ .waitOver ∈ es
  localDescription : ∀ a, s.localDescription = some a ↔
    .createAnswer .onOfferSet (.answer a) ∈ es ∧ .setLocalDescription true ∈ es

theorem historyOK_init : HistoryOK [] (negotiation δ).init := by
  refine ⟨?_, ?_, ?_, ?_, ?_, ?_⟩ <;> simp [negotiation, Promise.result]

/-- A step that executes no request and returns no wait changes no outcome. -/
theorem HistoryOK.of_unchanged (hs : HistoryOK es s)
    (he : e ≠ .waitOver ∧ (∀ asker r, e ≠ .createAnswer asker r) ∧
      ∀ ok, e ≠ .setLocalDescription ok)
    (hhandler : s'.createAnswerPromise.result = s.createAnswerPromise.result)
    (hanswer : s'.answerPromise.result = s.answerPromise.result)
    (hset : s'.setLocalPromise.result = s.setLocalPromise.result)
    (hresponse : s'.response = s.response) (hlocal : s'.localDescription = s.localDescription) :
    HistoryOK (es ++ [e]) s' := by
  obtain ⟨hwait, hcreate, hok⟩ := he
  have hmem : ∀ e', e' ≠ e → (e' ∈ es ++ [e] ↔ e' ∈ es) := by
    intro e' hne
    simp [hne]
  refine ⟨?_, ?_, ?_, ?_, ?_, ?_⟩
  · intro r
    rw [hmem _ (hcreate _ _).symm, hhandler, hs.handler]
  · intro r
    rw [hmem _ (hcreate _ _).symm, hanswer, hs.onOfferSet]
  · intro ok
    rw [hmem _ (hok _).symm, hset, hs.setLocal]
  · rw [hmem _ hwait.symm, hhandler]
    exact hs.waited
  · intro a
    rw [hmem _ (hcreate _ _).symm, hmem _ hwait.symm, hresponse, hs.response]
  · intro a
    rw [hmem _ (hcreate _ _).symm, hmem _ (hok _).symm, hlocal, hs.localDescription]

theorem HistoryOK.step (hs : HistoryOK es s) (hc : ChainOK s) (hm : Move s e s') :
    HistoryOK (es ++ [e]) s' := by
  cases hm with
  | setOffer h | badOffer h | setUnwritten h | assertReplied h | setRemoteDescription h =>
      exact hs.of_unchanged (by simp) rfl rfl rfl rfl rfl
  | emitCreateAnswer h =>
      exact hs.of_unchanged (by simp) (by simp [h, Promise.result]) rfl rfl rfl rfl
  | onOfferSet h =>
      have hanswer : s.answerPromise = .notMade := hc.answer_notMade (by simp [h])
      exact hs.of_unchanged (by simp) rfl (by simp [hanswer, Promise.result]) rfl rfl rfl
  | onAnswerCreated h =>
      have hset : s.setLocalPromise = .notMade := hc.setLocal_notMade (by simp [h])
      exact hs.of_unchanged (by simp) rfl (by simp [h, Promise.result])
        (by simp [hset, Promise.result]) rfl rfl
  | respond h =>
      refine ⟨?_, by simpa using hs.onOfferSet, by simpa using hs.setLocal,
        by simp [Promise.result], ?_, by simpa using hs.localDescription⟩
      · simpa [h, Promise.result] using hs.handler
      · simp [hs.handler, h, Promise.result]
  | respondUnwritten h =>
      refine ⟨by simpa using hs.handler, by simpa using hs.onOfferSet, by simpa using hs.setLocal,
        by simp [h, Promise.result], ?_, by simpa using hs.localDescription⟩
      simp [hs.response, hs.handler, h, Promise.result]
  | timeOut h =>
      refine ⟨?_, by simpa using hs.onOfferSet, by simpa using hs.setLocal,
        by simp [Promise.result], ?_, by simpa using hs.localDescription⟩
      · simpa [h, Promise.result] using hs.handler
      · simp [hs.handler, h, Promise.result]
  | createHandler h =>
      have hp : s.createAnswerPromise = .pending := hc.queue.head h
      have hwait : .waitOver ∉ es := fun hin => hs.waited hin (by simp [hp, Promise.result])
      refine ⟨?_, by simpa using hs.onOfferSet, by simpa using hs.setLocal,
        by simp [Promise.result], ?_, by simpa using hs.localDescription⟩
      · simp [hs.handler, hp, Promise.result, eq_comm]
      · simp [hs.response, hwait]
  | createOnOfferSet h =>
      have hp : s.answerPromise = .pending := hc.queue.head h
      have hset : s.setLocalPromise = .notMade := hc.setLocal_notMade (by simp [hp])
      refine ⟨by simpa using hs.handler, ?_, by simpa using hs.setLocal, by simpa using hs.waited,
        by simpa using hs.response, ?_⟩
      · simp [hs.onOfferSet, hp, Promise.result, eq_comm]
      · simp [hs.localDescription, hs.setLocal, hset, Promise.result]
  | setLocalDescription h =>
      obtain ⟨hp, hanswer⟩ := hc.queue.head h
      refine ⟨by simpa using hs.handler, by simpa using hs.onOfferSet, ?_, by simpa using hs.waited,
        by simpa using hs.response, ?_⟩
      · simp [hs.setLocal, hp, Promise.result, eq_comm]
      · rename_i ok
        cases ok with
        | true => simp [hs.onOfferSet, hanswer, Promise.result]
        | false => simp [hs.localDescription]

theorem historyOK_run : ∀ es s, (negotiation δ).run es = some s → HistoryOK es s :=
  Machine.run_induction historyOK_init fun es s _ _ hs ih h =>
    ih.step (chainOK_run es s hs) (step_move h)

/-! ### Every schedule settles -/

def Promise.remaining {ρ : Type} : Promise ρ → Nat
  | .notMade => 3
  | .pending => 2
  | .ended _ => 1
  | .taken _ => 0

def Process.remaining : Process → Nat
  | .running => 1
  | .aborted | .undefined => 0

/-- What is left to do, on all sides. -/
def remaining (s : Negotiation δ) : Nat :=
  s.process.remaining + s.promise.remaining + s.answerPromise.remaining +
    s.createAnswerPromise.remaining + s.setLocalPromise.remaining

theorem settled_eq_none (h : settled s = none) :
    s.process = .running ∧
      ∀ r ok, s.createAnswerPromise = .taken r → s.setLocalPromise ≠ .ended ok := by
  unfold settled at h
  split at h
  · simp at h
  · rename_i hrunning hne
    exact ⟨hrunning, fun r ok hr hok => hne r ok hr hok⟩
  · simp at h

/-- The webrtcbin can execute what is queued. -/
theorem execute_progress {t : Task δ} {rest : List (Task δ)} (hs : ChainOK s)
    (hq : s.queue = t :: rest) : ∃ e s', act s e = some s' ∧ remaining s' < remaining s := by
  have hp : Pending s t := hs.queue.head hq
  cases t with
  | setRemoteDescription =>
      have hp' : s.promise = .pending := hp
      refine ⟨.setRemoteDescription, ?_⟩
      simp [act, Negotiation.setRemoteDescription, hq, remaining, hp', Promise.remaining]
  | createAnswer asker =>
      refine ⟨.createAnswer asker .notReplied, ?_⟩
      cases asker with
      | handler =>
          have hp' : s.createAnswerPromise = .pending := hp
          simp [act, Negotiation.createAnswer, hq, remaining, hp', Promise.remaining]
      | onOfferSet =>
          have hp' : s.answerPromise = .pending := hp
          simp [act, Negotiation.createAnswer, hq, remaining, hp', Promise.remaining]
  | setLocalDescription a =>
      refine ⟨.setLocalDescription false, ?_⟩
      simp [act, Negotiation.setLocalDescription, hq, remaining, hp.1, Promise.remaining]

/-- The handler can act on a promise it has not made, or that has ended. -/
theorem handler_progress (hrunning : s.process = .running) (hoffer : s.promise ≠ .notMade)
    (hpending : s.createAnswerPromise ≠ .pending) (hlive : ∀ r, s.createAnswerPromise ≠ .taken r) :
    ∃ e s', act s e = some s' ∧ remaining s' < remaining s := by
  cases hp : s.createAnswerPromise with
  | notMade =>
      refine ⟨.emitCreateAnswer, ?_⟩
      cases ho : s.promise with
      | notMade => exact absurd ho hoffer
      | _ => simp [act, emitCreateAnswer, ho, hp, remaining, Promise.remaining]
  | pending => exact absurd hp hpending
  | ended r =>
      refine ⟨.waitOver, ?_⟩
      cases r <;>
        simp [act, waitOver, hp, hrunning, remaining, Promise.remaining, Process.remaining]
  | taken r => exact absurd hp (hlive r)

/-- A change function that is due can run. -/
theorem callback_progress (hs : ChainOK s) (hrunning : s.process = .running)
    (hoffer : s.promise ≠ .notMade) (hidle : ∀ t, ¬ Pending s t)
    (hlive : ∀ ok, s.setLocalPromise ≠ .ended ok) :
    ∃ e s', act s e = some s' ∧ remaining s' < remaining s := by
  cases ho : s.promise with
  | notMade => exact absurd ho hoffer
  | pending => exact absurd ho (hidle .setRemoteDescription)
  | ended u =>
      have hanswer : s.answerPromise = .notMade := hs.answer_notMade (by simp [ho])
      refine ⟨.onOfferSet, ?_⟩
      simp [act, onOfferSet, ho, hanswer, remaining, Promise.remaining]
  | taken u =>
      cases ha : s.answerPromise with
      | notMade => exact absurd ha (hs.answer.mpr ho)
      | pending => exact absurd ha (hidle (.createAnswer .onOfferSet))
      | ended r =>
          have hset : s.setLocalPromise = .notMade := hs.setLocal_notMade (by simp [ha])
          refine ⟨.onAnswerCreated, ?_⟩
          cases r with
          | answer a =>
              simp only [act, onAnswerCreated, ha, Option.some.injEq, exists_eq_left', remaining,
                emit_process, emit_promise, emit_createAnswerPromise, hset, Promise.remaining]
              omega
          | _ =>
              simp [act, onAnswerCreated, ha, hrunning, remaining, Promise.remaining,
                Process.remaining]
      | taken r =>
          obtain ⟨a, rfl⟩ := hs.taken r ha
          cases hset : s.setLocalPromise with
          | notMade => exact absurd hset (hs.setLocal.mpr ⟨a, ha⟩)
          | pending => exact absurd ⟨hset, ha⟩ (hidle (.setLocalDescription a))
          | ended ok => exact absurd hset (hlive ok)
          | taken ok => exact absurd hset (hs.interrupted ok)

theorem progress (hs : ChainOK s) (h : settled s = none) :
    ∃ e s', (negotiation δ).step s e = some s' ∧ remaining s' < remaining s := by
  obtain ⟨hrunning, hlive⟩ := settled_eq_none h
  have hstep : ∀ e, (negotiation δ).step s e = act s e := by
    intro e
    simp [negotiation, step, hrunning]
  simp only [hstep]
  cases hq : s.queue with
  | cons t rest => exact execute_progress hs hq
  | nil =>
      have hidle : ∀ t, ¬ Pending s t := by
        intro t ht
        have hmem : t ∈ s.queue := (hs.queue.mem t).mpr ht
        simp [hq] at hmem
      by_cases hoffer : s.promise = .notMade
      · refine ⟨.setOffer true, ?_⟩
        simp [act, setOffer, hoffer, remaining, Promise.remaining]
      · by_cases htaken : ∃ r, s.createAnswerPromise = .taken r
        · obtain ⟨r, hr⟩ := htaken
          exact callback_progress hs hrunning hoffer hidle fun ok => hlive r ok hr
        · exact handler_progress hrunning hoffer (hidle (.createAnswer .handler))
            fun r hr => htaken ⟨r, hr⟩

/-- A schedule that has settled. -/
abbrev Execution (δ : Type) := (negotiation δ).Execution settled

theorem exists_settled (h : (negotiation δ).run es = some s) :
    ∃ x : Execution δ, es <+: x.events :=
  Machine.exists_execution remaining
    (fun es s hs hlive => progress (chainOK_run es s hs) hlive) es s h

theorem settled_eq_some (h : settled s = some s') : s' = s := by
  unfold settled at h
  split at h
  · exact (Option.some.inj h).symm
  · simp at h
  · exact (Option.some.inj h).symm

theorem Execution.history (x : Execution δ) : HistoryOK x.events x.result := by
  obtain ⟨s, hs, hsettled⟩ := x.final
  rw [settled_eq_some hsettled]
  exact historyOK_run x.events s hs

/-! ### The answer sent and the answer set -/

/-- **The answer sent is the answer set, just where the webrtcbin gives it twice.**  Every
schedule can be run on until the offer has settled.  The handler then sent what its own
`create-answer` gave, so that is the local description only when the `create-answer` of
`on_offer_set` gave the same and its `set-local-description` succeeded. -/
theorem sent_is_set_iff (δ : Type) :
    (∀ es s, (negotiation δ).run es = some s → ∃ x : Execution δ, es <+: x.events) ∧
      ∀ x : Execution δ,
        (∀ a, x.result.response = some (.answer a) → x.result.localDescription = some a) ↔
          ∀ a, .createAnswer .handler (.answer a) ∈ x.events → .waitOver ∈ x.events →
            .createAnswer .onOfferSet (.answer a) ∈ x.events ∧
              .setLocalDescription true ∈ x.events := by
  refine ⟨fun es s h => exists_settled h, ?_⟩
  intro x
  refine forall_congr' fun a => ?_
  rw [x.history.response, x.history.localDescription, and_imp]

/-- The usual schedule: both requests for an answer are queued before the first is
executed, and the second answer has another session version. -/
def secondVersion : Execution String where
  events :=
    [.setOffer true, .emitCreateAnswer, .setRemoteDescription, .onOfferSet,
      .createAnswer .handler (.answer "o=- 7 1 IN IP4 0.0.0.0"),
      .createAnswer .onOfferSet (.answer "o=- 7 2 IN IP4 0.0.0.0"),
      .waitOver, .onAnswerCreated, .setLocalDescription true]
  result :=
    { process := .running
      queue := []
      promise := .taken ()
      answerPromise := .taken (.answer "o=- 7 2 IN IP4 0.0.0.0")
      createAnswerPromise := .taken (.answer "o=- 7 1 IN IP4 0.0.0.0")
      setLocalPromise := .ended true
      localDescription := some "o=- 7 2 IN IP4 0.0.0.0"
      response := some (.answer "o=- 7 1 IN IP4 0.0.0.0") }
  ended := rfl

/-- The response has the first version, and the local description is the second. -/
theorem secondVersion_not_sent :
    ¬ ∀ a, secondVersion.result.response = some (.answer a) →
      secondVersion.result.localDescription = some a := by
  intro h
  have hlocal := h "o=- 7 1 IN IP4 0.0.0.0" rfl
  exact absurd hlocal (by decide +kernel)

end WebrtcEchoes.Gstreamer.Server
