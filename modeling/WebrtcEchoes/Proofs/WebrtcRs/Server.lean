/-
What the registry of the webrtc-rs server lists.

A removal holds the lock from its first look at the registry to its last, so no other
party changes the registry in between, and what a removal still has to look at is always
a final part of it.  This is what makes the two notifications of one failure harmless: the
second removal finds the connection gone.
-/
import WebrtcEchoes.WebrtcRs.Server

namespace WebrtcEchoes.WebrtcRs.Server

/-- The task is in its critical section. -/
def Phase.inside : Phase → Bool
  | .scan _ | .close _ _ | .unlock => true
  | .lock | .done => false

/-- The task has been through `retain`. -/
def Phase.retained : Phase → Bool
  | .unlock | .done => true
  | .lock | .scan _ | .close _ _ => false

/-- The connections the task has still to look at. -/
def Phase.rest : Phase → List PeerConnection
  | .scan rest | .close _ rest => rest
  | .lock | .unlock | .done => []

/-- The task has looked at a connection. -/
def Phase.passed (c : PeerConnection) : Phase → Prop
  | .lock => False
  | .scan rest | .close _ rest => c ∉ rest
  | .unlock | .done => True

theorem Phase.rest_of_not_inside {phase : Phase} (h : phase.inside = false) : phase.rest = [] := by
  cases phase with
  | lock => rfl
  | done => rfl
  | _ => simp [Phase.inside] at h

theorem Phase.passed_cases {phase : Phase} {c : PeerConnection} (h : phase.passed c) :
    phase.retained = true ∨ phase.inside = true := by
  cases phase with
  | lock => exact h.elim
  | scan rest => exact Or.inr rfl
  | close pc rest => exact Or.inr rfl
  | unlock => exact Or.inl rfl
  | done => exact Or.inl rfl

/-- The handler is in its critical section. -/
def inBlock (todo : List Call) : Prop := todo.head? = some .push ∨ todo.head? = some .unlock

/-! ### The tasks after a step -/

variable {Id : Type} {s : State Id}

/-- Some task with this property is there. -/
def HasTask (s : State Id) (p : Task Id → Prop) : Prop :=
  ∃ (k : Nat) (task : Task Id), s.tasks[k]? = some task ∧ p task

theorem moved_getElem? {k : Nat} {task : Task Id} (htask : s.tasks[k]? = some task)
    (phase : Phase) (j : Nat) :
    (s.moved k task phase).tasks[j]? =
      if j = k then some { task with phase := phase } else s.tasks[j]? := by
  obtain ⟨hk, -⟩ := List.getElem?_eq_some_iff.mp htask
  unfold State.moved
  by_cases hj : j = k
  · simp [hj, hk]
  · simp [List.getElem?_set_ne (Ne.symm hj), hj]

/-- What the task that moved has now, or what another one still has. -/
theorem hasTask_moved {k : Nat} {task : Task Id} {phase : Phase} {p : Task Id → Prop}
    (htask : s.tasks[k]? = some task) :
    HasTask (s.moved k task phase) p ↔
      p { task with phase := phase } ∨ ∃ j t, j ≠ k ∧ s.tasks[j]? = some t ∧ p t := by
  unfold HasTask
  refine ⟨?_, ?_⟩
  · intro ⟨j, t, ht, hpt⟩
    rw [moved_getElem? htask] at ht
    split at ht
    · obtain rfl := Option.some.inj ht
      exact Or.inl hpt
    · rename_i hj
      exact Or.inr ⟨j, t, hj, ht, hpt⟩
  · rintro (hpt | ⟨j, t, hj, ht, hpt⟩)
    · exact ⟨k, _, by rw [moved_getElem? htask, if_pos rfl], hpt⟩
    · exact ⟨j, t, by rw [moved_getElem? htask, if_neg hj, ht], hpt⟩

/-- A task with the property is this one or another one. -/
theorem hasTask_iff {k : Nat} {task : Task Id} {p : Task Id → Prop}
    (htask : s.tasks[k]? = some task) :
    HasTask s p ↔ p task ∨ ∃ j t, j ≠ k ∧ s.tasks[j]? = some t ∧ p t := by
  refine ⟨?_, ?_⟩
  · intro ⟨j, t, ht, hpt⟩
    by_cases hj : j = k
    · obtain rfl : task = t := by rw [hj, htask] at ht; exact Option.some.inj ht
      exact Or.inl hpt
    · exact Or.inr ⟨j, t, hj, ht, hpt⟩
  · rintro (hpt | ⟨j, t, -, ht, hpt⟩)
    · exact ⟨k, task, htask, hpt⟩
    · exact ⟨j, t, ht, hpt⟩

/-- A property that the move does not touch. -/
theorem hasTask_moved_of_iff {k : Nat} {task : Task Id} {phase : Phase} {p : Task Id → Prop}
    (htask : s.tasks[k]? = some task) (hp : p { task with phase := phase } ↔ p task) :
    HasTask (s.moved k task phase) p ↔ HasTask s p := by
  rw [hasTask_moved htask, hasTask_iff htask, hp]

/-- A property that the move does not take away. -/
theorem HasTask.moved {k : Nat} {task : Task Id} {phase : Phase} {p : Task Id → Prop}
    (h : HasTask s p) (htask : s.tasks[k]? = some task)
    (hp : p task → p { task with phase := phase }) : HasTask (s.moved k task phase) p := by
  rw [hasTask_moved htask]
  rcases (hasTask_iff htask).mp h with hpt | hother
  · exact Or.inl (hp hpt)
  · exact Or.inr hother

theorem getElem?_snoc_eq_some_iff {tasks : List (Task Id)} {new task : Task Id} {k : Nat} :
    (tasks ++ [new])[k]? = some task ↔
      tasks[k]? = some task ∨ k = tasks.length ∧ task = new := by
  rcases Nat.lt_trichotomy k tasks.length with hlt | rfl | hgt
  · simp [List.getElem?_append_left hlt, Nat.ne_of_lt hlt]
  · simp [eq_comm]
  · have hout : (tasks ++ [new]).length ≤ k := by simp; omega
    simp [List.getElem?_eq_none hout, List.getElem?_eq_none (Nat.le_of_lt hgt),
      Nat.ne_of_gt hgt]

/-- One more task. -/
theorem hasTask_snoc {t : State Id} {new : Task Id} {p : Task Id → Prop}
    (h : t.tasks = s.tasks ++ [new]) : HasTask t p ↔ HasTask s p ∨ p new := by
  unfold HasTask
  simp only [h, getElem?_snoc_eq_some_iff]
  refine ⟨?_, ?_⟩
  · rintro ⟨k, task, ht | ⟨-, rfl⟩, hp⟩
    · exact Or.inl ⟨k, task, ht, hp⟩
    · exact Or.inr hp
  · rintro (⟨k, task, ht, hp⟩ | hp)
    · exact ⟨k, task, Or.inl ht, hp⟩
    · exact ⟨_, new, Or.inr ⟨rfl, rfl⟩, hp⟩

theorem update_todo (s : State Id) (i : Nat) (todo : List Call) (failed : Bool) (j : Nat) :
    (Function.update s.handlers i ⟨todo, failed⟩ j).todo =
      if j = i then todo else (s.handlers j).todo := by
  by_cases hj : j = i
  · simp [hj]
  · simp [hj]

/-! ### The steps -/

variable [DecidableEq Id] {statsId : PeerConnection → Id}

inductive Move (statsId : PeerConnection → Id) (s : State Id) : Event → State Id → Prop
  | fails {i : Nat} {call : Call} {rest : List Call} (hlive : (s.handlers i).failed = false)
      (htodo : (s.handlers i).todo = call :: rest) (hcall : call.fallible = true) :
      Move statsId s (.handler i false)
        { s with handlers := Function.update s.handlers i ⟨call :: rest, true⟩ }
  | lock {i : Nat} {rest : List Call} (hlive : (s.handlers i).failed = false)
      (htodo : (s.handlers i).todo = .lock :: rest) (hm : s.mutex = none) :
      Move statsId s (.handler i true) { s.called i rest with mutex := some (.handler i) }
  | push {i : Nat} {rest : List Call} (hlive : (s.handlers i).failed = false)
      (htodo : (s.handlers i).todo = .push :: rest) :
      Move statsId s (.handler i true)
        { s.called i rest with pcs := s.pcs ++ [i], pushed := s.pushed ++ [i] }
  | unlock {i : Nat} {rest : List Call} (hlive : (s.handlers i).failed = false)
      (htodo : (s.handlers i).todo = .unlock :: rest) :
      Move statsId s (.handler i true) { s.called i rest with mutex := none }
  | call {i : Nat} {call : Call} {rest : List Call} (hlive : (s.handlers i).failed = false)
      (htodo : (s.handlers i).todo = call :: rest)
      (hcall : call ≠ .lock ∧ call ≠ .push ∧ call ≠ .unlock) :
      Move statsId s (.handler i true) (s.called i rest)
  | reported {i : Nat} (hset : .onIceConnectionStateChange ∉ (s.handlers i).todo) :
      Move statsId s (.iceConnectionStateChange i .failed)
        { s with tasks := s.tasks ++ [⟨statsId i, .lock⟩], failed := s.failed ++ [i] }
  | ignored {i : Nat} {state : ICEConnectionState} (hstate : state ≠ .failed) :
      Move statsId s (.iceConnectionStateChange i state) s
  | taskLock {k : Nat} {ok : Bool} {task : Task Id} (htask : s.tasks[k]? = some task)
      (hphase : task.phase = .lock) (hm : s.mutex = none) :
      Move statsId s (.task k ok)
        { s.moved k task (.scan s.pcs) with mutex := some (.task k) }
  | closes {k : Nat} {ok : Bool} {task : Task Id} {pc : PeerConnection}
      {rest : List PeerConnection} (htask : s.tasks[k]? = some task)
      (hphase : task.phase = .scan (pc :: rest)) (hid : statsId pc = task.statsId) :
      Move statsId s (.task k ok)
        { s.moved k task (.close pc rest) with closed := s.closed ++ [pc] }
  | skips {k : Nat} {ok : Bool} {task : Task Id} {pc : PeerConnection}
      {rest : List PeerConnection} (htask : s.tasks[k]? = some task)
      (hphase : task.phase = .scan (pc :: rest)) (hid : statsId pc ≠ task.statsId) :
      Move statsId s (.task k ok) (s.moved k task (.scan rest))
  | closeReturned {k : Nat} {ok : Bool} {task : Task Id} {pc : PeerConnection}
      {rest : List PeerConnection} (htask : s.tasks[k]? = some task)
      (hphase : task.phase = .close pc rest) :
      Move statsId s (.task k ok) (s.moved k task (.scan rest))
  | retain {k : Nat} {ok : Bool} {task : Task Id} (htask : s.tasks[k]? = some task)
      (hphase : task.phase = .scan []) :
      Move statsId s (.task k ok)
        { s.moved k task .unlock with
          pcs := s.pcs.filter fun x => statsId x ≠ task.statsId
          removed := s.removed ++ s.pcs.filter fun x => statsId x = task.statsId }
  | taskUnlock {k : Nat} {ok : Bool} {task : Task Id} (htask : s.tasks[k]? = some task)
      (hphase : task.phase = .unlock) :
      Move statsId s (.task k ok) { s.moved k task .done with mutex := none }

variable {s' : State Id} {e : Event}

theorem handlerStep_move {i : Nat} {ok : Bool} (h : handlerStep s i ok = some s') :
    Move statsId s (.handler i ok) s' := by
  unfold handlerStep at h
  split at h
  · simp at h
  · rename_i hlive
    have hlive : (s.handlers i).failed = false := by simpa using hlive
    split at h
    · simp at h
    · rename_i call rest htodo
      split at h
      · rename_i hok
        split at h
        · rename_i hcall
          obtain rfl := Option.some.inj h
          rw [hok]
          exact .fails hlive htodo hcall
        · simp at h
      · rename_i hok
        obtain rfl : ok = true := by simpa using hok
        split at h
        · split at h
          · rename_i hm
            obtain rfl := Option.some.inj h
            exact .lock hlive htodo hm
          · simp at h
        · obtain rfl := Option.some.inj h
          exact .push hlive htodo
        · obtain rfl := Option.some.inj h
          exact .unlock hlive htodo
        · rename_i hlock hpush hunlock
          obtain rfl := Option.some.inj h
          exact .call hlive htodo ⟨hlock, hpush, hunlock⟩

theorem taskStep_move {k : Nat} {ok : Bool} {task : Task Id} (htask : s.tasks[k]? = some task)
    (h : taskStep statsId s k task = some s') : Move statsId s (.task k ok) s' := by
  unfold taskStep at h
  split at h
  · rename_i hphase
    split at h
    · rename_i hm
      obtain rfl := Option.some.inj h
      exact .taskLock htask hphase hm
    · simp at h
  · rename_i hphase
    obtain rfl := Option.some.inj h
    exact .retain htask hphase
  · rename_i hphase
    split at h
    · rename_i hid
      obtain rfl := Option.some.inj h
      exact .closes htask hphase hid
    · rename_i hid
      obtain rfl := Option.some.inj h
      exact .skips htask hphase hid
  · rename_i hphase
    obtain rfl := Option.some.inj h
    exact .closeReturned htask hphase
  · rename_i hphase
    obtain rfl := Option.some.inj h
    exact .taskUnlock htask hphase
  · simp at h

theorem step_move (h : (server statsId).step s e = some s') : Move statsId s e s' := by
  cases e with
  | handler i ok => exact handlerStep_move h
  | iceConnectionStateChange i state =>
      simp only [server, step] at h
      split at h
      · simp at h
      · rename_i hset
        obtain rfl := Option.some.inj h
        by_cases hstate : state = .failed
        · simp only [onIceConnectionStateChange, if_pos hstate]
          rw [hstate]
          exact .reported hset
        · simp only [onIceConnectionStateChange, if_neg hstate]
          exact .ignored hstate
  | task k ok =>
      obtain ⟨task, htask, h⟩ := Option.bind_eq_some_iff.mp h
      exact taskStep_move htask h

/-! ### The order of the calls -/

instance : DecidablePred inBlock := fun todo =>
  inferInstanceAs (Decidable (todo.head? = some .push ∨ todo.head? = some .unlock))

/-- What holds of every final part of the script. -/
theorem of_suffix {P : List Call → Prop} [DecidablePred P] {todo : List Call}
    (h : ∀ t ∈ processOffer.tails, P t) (htodo : todo <:+ processOffer) : P todo :=
  h todo ((List.mem_tails todo processOffer).mpr htodo)

/-- `lock`, `push` and `unlock` follow each other, and nothing else enters the block. -/
theorem inBlock_tail {call : Call} {rest : List Call} (h : call :: rest <:+ processOffer) :
    inBlock rest ↔ call = .lock ∨ call = .push := by
  have hall := of_suffix (P := fun t =>
    inBlock t.tail ↔ t.head? = some .lock ∨ t.head? = some .push) (by decide) h
  simpa using hall

/-- A connection is pushed once. -/
theorem push_not_mem_tail {rest : List Call} (h : .push :: rest <:+ processOffer) :
    .push ∉ rest := by
  have hall := of_suffix (P := fun t => t.head? = some .push → .push ∉ t.tail) (by decide) h
  exact hall rfl

/-- The callback is set after the push. -/
theorem push_not_mem {todo : List Call} (h : todo <:+ processOffer)
    (hset : .onIceConnectionStateChange ∉ todo) : .push ∉ todo :=
  of_suffix (P := fun t => .onIceConnectionStateChange ∉ t → .push ∉ t) (by decide) h hset

/-! ### Who holds the mutex -/

structure MutexOK (s : State Id) : Prop where
  suffix : ∀ i, (s.handlers i).todo <:+ processOffer
  handler : ∀ i, s.mutex = some (.handler i) ↔ inBlock (s.handlers i).todo
  task : ∀ k, s.mutex = some (.task k) ↔ ∃ t, s.tasks[k]? = some t ∧ t.phase.inside = true

theorem mutexOK_init : MutexOK (server statsId).init := by
  refine ⟨fun i => List.suffix_rfl, ?_, ?_⟩
  · intro i
    simp [server, inBlock, processOffer]
  · intro k
    simp [server]

omit [DecidableEq Id] in
/-- A call of a handler in front of, in or behind its critical section. -/
theorem MutexOK.called {i : Nat} {call : Call} {rest : List Call} (mutex : Option Party)
    (hs : MutexOK s) (htodo : (s.handlers i).todo = call :: rest)
    (hself : mutex = some (.handler i) ↔ inBlock rest)
    (hother : ∀ j, j ≠ i → (mutex = some (.handler j) ↔ s.mutex = some (.handler j)))
    (htask : ∀ k, mutex = some (.task k) ↔ s.mutex = some (.task k)) :
    MutexOK { s.called i rest with mutex := mutex } := by
  refine ⟨?_, ?_, fun k => (htask k).trans (hs.task k)⟩
  · intro j
    simp only [State.called, update_todo]
    split
    · exact (List.suffix_cons _ _).trans (htodo ▸ hs.suffix i)
    · exact hs.suffix j
  · intro j
    simp only [State.called, update_todo]
    split
    · rename_i hj
      rw [hj, hself]
    · rename_i hj
      rw [hother j hj]
      exact hs.handler j

omit [DecidableEq Id] in
/-- A move of a task into, within or out of its critical section. -/
theorem MutexOK.moved {k : Nat} {task : Task Id} (phase : Phase) (mutex : Option Party)
    (hs : MutexOK s) (htask : s.tasks[k]? = some task)
    (hself : mutex = some (.task k) ↔ phase.inside = true)
    (hother : ∀ j, j ≠ k → (mutex = some (.task j) ↔ s.mutex = some (.task j)))
    (hhandler : ∀ i, mutex = some (.handler i) ↔ s.mutex = some (.handler i)) :
    MutexOK { s.moved k task phase with mutex := mutex } := by
  refine ⟨hs.suffix, fun i => (hhandler i).trans (hs.handler i), ?_⟩
  intro j
  show mutex = some (.task j) ↔ ∃ t, (s.moved k task phase).tasks[j]? = some t ∧ _
  rw [moved_getElem? htask]
  by_cases hj : j = k
  · rw [hj, hself]
    simp
  · rw [if_neg hj, hother j hj]
    exact hs.task j

omit [DecidableEq Id] in
/-- A move within the critical section. -/
theorem MutexOK.moved_inside {k : Nat} {task : Task Id} (phase : Phase) (hs : MutexOK s)
    (htask : s.tasks[k]? = some task) (hin : task.phase.inside = true)
    (hin' : phase.inside = true) : MutexOK (s.moved k task phase) :=
  hs.moved phase s.mutex htask (iff_of_true ((hs.task k).mpr ⟨task, htask, hin⟩) hin')
    (fun _ _ => Iff.rfl) fun _ => Iff.rfl

theorem mutexOK_step (hs : MutexOK s) (h : Move statsId s e s') : MutexOK s' := by
  cases h with
  | @fails i call rest hlive htodo hcall =>
      have hsame : ∀ j, (Function.update s.handlers i ⟨call :: rest, true⟩ j).todo =
          (s.handlers j).todo := by
        intro j
        rw [update_todo]
        split
        · rename_i hj
          rw [hj, htodo]
        · rfl
      exact ⟨fun j => by rw [hsame]; exact hs.suffix j,
        fun j => by rw [hsame]; exact hs.handler j, hs.task⟩
  | @lock i rest hlive htodo hm =>
      have hin : inBlock rest := (inBlock_tail (htodo ▸ hs.suffix i)).mpr (Or.inl rfl)
      refine hs.called (some (.handler i)) htodo (iff_of_true rfl hin) ?_ ?_
      · intro j hj
        simp [hm, Ne.symm hj]
      · intro k
        simp [hm]
  | @push i rest hlive htodo =>
      have hm : s.mutex = some (.handler i) := (hs.handler i).mpr (by rw [htodo]; exact Or.inl rfl)
      have hin : inBlock rest := (inBlock_tail (htodo ▸ hs.suffix i)).mpr (Or.inr rfl)
      have hok := hs.called s.mutex htodo (iff_of_true hm hin) (fun _ _ => Iff.rfl) fun _ => Iff.rfl
      exact ⟨hok.suffix, hok.handler, hok.task⟩
  | @unlock i rest hlive htodo =>
      have hm : s.mutex = some (.handler i) := (hs.handler i).mpr (by rw [htodo]; exact Or.inr rfl)
      have hout : ¬ inBlock rest := by simp [inBlock_tail (htodo ▸ hs.suffix i)]
      refine hs.called none htodo (iff_of_false (by simp) hout) ?_ ?_
      · intro j hj
        simp [hm, Ne.symm hj]
      · intro k
        simp [hm]
  | @call i call rest hlive htodo hcall =>
      have hm : ¬ s.mutex = some (.handler i) := by
        rw [hs.handler i, htodo]
        simp [inBlock, hcall.2]
      have hout : ¬ inBlock rest := by simp [inBlock_tail (htodo ▸ hs.suffix i), hcall]
      exact hs.called s.mutex htodo (iff_of_false hm hout) (fun _ _ => Iff.rfl) fun _ => Iff.rfl
  | reported hset =>
      refine ⟨hs.suffix, hs.handler, ?_⟩
      intro k
      rw [hs.task k]
      simp only [getElem?_snoc_eq_some_iff]
      refine ⟨fun ⟨t, ht, hin⟩ => ⟨t, Or.inl ht, hin⟩, ?_⟩
      rintro ⟨t, ht | ⟨-, rfl⟩, hin⟩
      · exact ⟨t, ht, hin⟩
      · simp [Phase.inside] at hin
  | ignored hstate => exact hs
  | @taskLock k ok task htask hphase hm =>
      refine hs.moved _ (some (.task k)) htask (iff_of_true rfl rfl) ?_ ?_
      · intro j hj
        simp [hm, Ne.symm hj]
      · intro i
        simp [hm]
  | @closes k ok task pc rest htask hphase hid =>
      have hok := hs.moved_inside (.close pc rest) htask (by rw [hphase]; rfl) rfl
      exact ⟨hok.suffix, hok.handler, hok.task⟩
  | @skips k ok task pc rest htask hphase hid =>
      exact hs.moved_inside _ htask (by rw [hphase]; rfl) rfl
  | @closeReturned k ok task pc rest htask hphase =>
      exact hs.moved_inside _ htask (by rw [hphase]; rfl) rfl
  | @retain k ok task htask hphase =>
      have hok := hs.moved_inside .unlock htask (by rw [hphase]; rfl) rfl
      exact ⟨hok.suffix, hok.handler, hok.task⟩
  | @taskUnlock k ok task htask hphase =>
      have hm := (hs.task k).mpr ⟨task, htask, by rw [hphase]; rfl⟩
      refine hs.moved _ none htask (iff_of_false (by simp) (by simp [Phase.inside])) ?_ ?_
      · intro j hj
        simp [hm, Ne.symm hj]
      · intro i
        simp [hm]

/-! ### Which connections there are -/

structure PushedOK (statsId : PeerConnection → Id) (s : State Id) : Prop where
  nodup : s.pushed.Nodup
  mem_iff : ∀ i, i ∈ s.pushed ↔ .push ∉ (s.handlers i).todo
  /-- Only a connection that was pushed before calls back. -/
  failed : ∀ i ∈ s.failed, i ∈ s.pushed
  /-- A task is there because its connection failed. -/
  task : ∀ (k : Nat) (t : Task Id), s.tasks[k]? = some t → ∃ i ∈ s.failed, statsId i = t.statsId

theorem pushedOK_init : PushedOK statsId (server statsId).init :=
  ⟨List.nodup_nil, by simp [server, processOffer], by simp [server], by simp [server]⟩

omit [DecidableEq Id] in
/-- A call that is not the push. -/
theorem PushedOK.called {i : Nat} {call : Call} {rest : List Call} (hs : PushedOK statsId s)
    (htodo : (s.handlers i).todo = call :: rest) (hcall : call ≠ .push) :
    PushedOK statsId (s.called i rest) := by
  refine ⟨hs.nodup, ?_, hs.failed, hs.task⟩
  intro j
  simp only [State.called, update_todo]
  split
  · rename_i hj
    rw [hj, hs.mem_iff, htodo]
    simp [Ne.symm hcall]
  · exact hs.mem_iff j

omit [DecidableEq Id] in
theorem PushedOK.moved {k : Nat} {task : Task Id} (phase : Phase) (hs : PushedOK statsId s)
    (htask : s.tasks[k]? = some task) : PushedOK statsId (s.moved k task phase) := by
  refine ⟨hs.nodup, hs.mem_iff, hs.failed, ?_⟩
  intro j t ht
  rw [moved_getElem? htask] at ht
  split at ht
  · obtain rfl := Option.some.inj ht
    exact hs.task k task htask
  · exact hs.task j t ht

theorem pushedOK_step (hm : MutexOK s) (hs : PushedOK statsId s) (h : Move statsId s e s') :
    PushedOK statsId s' := by
  cases h with
  | @fails i call rest hlive htodo hcall =>
      refine ⟨hs.nodup, ?_, hs.failed, hs.task⟩
      intro j
      rw [hs.mem_iff, update_todo]
      split
      · rename_i hj
        rw [hj, htodo]
      · rfl
  | @lock i rest hlive htodo hfree =>
      have hok := hs.called htodo (by simp)
      exact ⟨hok.nodup, hok.mem_iff, hok.failed, hok.task⟩
  | @push i rest hlive htodo =>
      have hnot : i ∉ s.pushed := by
        rw [hs.mem_iff, htodo]
        simp
      refine ⟨?_, ?_, fun j hj => List.mem_append_left _ (hs.failed j hj), hs.task⟩
      · exact List.nodup_append.mpr ⟨hs.nodup, by simp,
        by simpa using fun a ha => ne_of_mem_of_not_mem ha hnot⟩
      · intro j
        simp only [State.called, update_todo, List.mem_append, List.mem_singleton]
        split
        · rename_i hj
          exact iff_of_true (Or.inr hj) (push_not_mem_tail (htodo ▸ hm.suffix i))
        · rename_i hj
          rw [← hs.mem_iff]
          simp [hj]
  | @unlock i rest hlive htodo =>
      have hok := hs.called htodo (by simp)
      exact ⟨hok.nodup, hok.mem_iff, hok.failed, hok.task⟩
  | @call i call rest hlive htodo hcall => exact hs.called htodo hcall.2.1
  | @reported i hset =>
      have hi : i ∈ s.pushed := (hs.mem_iff i).mpr (push_not_mem (hm.suffix i) hset)
      refine ⟨hs.nodup, hs.mem_iff, ?_, ?_⟩
      · intro j hj
        rcases List.mem_append.mp hj with hin | hlast
        · exact hs.failed j hin
        · rw [List.mem_singleton.mp hlast]
          exact hi
      · intro k t ht
        rcases getElem?_snoc_eq_some_iff.mp ht with hold | ⟨-, rfl⟩
        · obtain ⟨j, hj, hid⟩ := hs.task k t hold
          exact ⟨j, List.mem_append_left _ hj, hid⟩
        · exact ⟨i, by simp, rfl⟩
  | ignored hstate => exact hs
  | taskLock htask hphase hfree =>
      have hok := hs.moved (.scan s.pcs) htask
      exact ⟨hok.nodup, hok.mem_iff, hok.failed, hok.task⟩
  | @closes k ok task pc rest htask hphase hid =>
      have hok := hs.moved (.close pc rest) htask
      exact ⟨hok.nodup, hok.mem_iff, hok.failed, hok.task⟩
  | skips htask hphase hid => exact hs.moved _ htask
  | closeReturned htask hphase => exact hs.moved _ htask
  | retain htask hphase =>
      have hok := hs.moved .unlock htask
      exact ⟨hok.nodup, hok.mem_iff, hok.failed, hok.task⟩
  | taskUnlock htask hphase =>
      have hok := hs.moved .done htask
      exact ⟨hok.nodup, hok.mem_iff, hok.failed, hok.task⟩

/-! ### What the registry lists -/

/-- A removal of this connection has been through `retain`. -/
def Removed (statsId : PeerConnection → Id) (s : State Id) (c : PeerConnection) : Prop :=
  HasTask s fun t => t.statsId = statsId c ∧ t.phase.retained = true

def removed (statsId : PeerConnection → Id) (s : State Id) (c : PeerConnection) : Bool :=
  s.tasks.any fun t => t.statsId = statsId c && t.phase.retained

@[simp] theorem removed_iff (c : PeerConnection) :
    removed statsId s c = true ↔ Removed statsId s c := by
  simp only [removed, List.any_eq_true, Bool.and_eq_true, decide_eq_true_eq, Removed, HasTask,
    List.mem_iff_getElem?]
  exact ⟨fun ⟨t, ⟨k, hk⟩, ht⟩ => ⟨k, t, hk, ht⟩, fun ⟨k, t, hk, ht⟩ => ⟨t, ⟨k, hk⟩, ht⟩⟩

@[simp] theorem removed_eq_false_iff (c : PeerConnection) :
    removed statsId s c = false ↔ ¬ Removed statsId s c := by
  rw [← Bool.not_eq_true, removed_iff]

/-- A removal has looked at this connection, its own. -/
def LookedAt (statsId : PeerConnection → Id) (s : State Id) (c : PeerConnection) : Prop :=
  HasTask s fun t => t.statsId = statsId c ∧ t.phase.passed c

structure RegistryOK (statsId : PeerConnection → Id) (s : State Id) : Prop where
  pcs : s.pcs = s.pushed.filter fun c => !removed statsId s c
  rest : ∀ (k : Nat) (t : Task Id), s.tasks[k]? = some t → t.phase.rest <:+ s.pcs
  closed_nodup : s.closed.Nodup
  /-- A connection is closed when its removal comes to it. -/
  closed : ∀ c ∈ s.closed, LookedAt statsId s c

theorem registryOK_init : RegistryOK statsId (server statsId).init :=
  ⟨by simp [server], by simp [server], List.nodup_nil, by simp [server]⟩

theorem RegistryOK.mem_pcs (hs : RegistryOK statsId s) {c : PeerConnection} :
    c ∈ s.pcs ↔ c ∈ s.pushed ∧ ¬ Removed statsId s c := by
  rw [hs.pcs, List.mem_filter, Bool.not_eq_true', removed_eq_false_iff]

theorem filter_removed_congr {s t : State Id} (l : List PeerConnection)
    (h : ∀ c, Removed statsId t c ↔ Removed statsId s c) :
    (l.filter fun c => !removed statsId s c) = l.filter fun c => !removed statsId t c := by
  refine List.filter_congr fun c _ => congrArg _ ?_
  rw [Bool.eq_iff_iff, removed_iff, removed_iff]
  exact (h c).symm

/-- A move that leaves `retain` where it was and only looks further. -/
theorem RegistryOK.moved {k : Nat} {task : Task Id} (phase : Phase) (hs : RegistryOK statsId s)
    (htask : s.tasks[k]? = some task) (hretained : phase.retained = task.phase.retained)
    (hrest : phase.rest <:+ s.pcs) (hpassed : ∀ c, task.phase.passed c → phase.passed c) :
    RegistryOK statsId (s.moved k task phase) := by
  refine ⟨?_, ?_, hs.closed_nodup, ?_⟩
  · refine hs.pcs.trans (filter_removed_congr s.pushed fun c => ?_)
    exact hasTask_moved_of_iff htask (by simp [hretained])
  · intro j t ht
    rw [moved_getElem? htask] at ht
    split at ht
    · obtain rfl := Option.some.inj ht
      exact hrest
    · exact hs.rest j t ht
  · intro c hc
    exact (hs.closed c hc).moved htask fun ⟨hid, hpass⟩ => ⟨hid, hpassed c hpass⟩

/-- A connection is closed once: a removal that comes to it is the first one. -/
theorem RegistryOK.not_mem_closed {k : Nat} {task : Task Id} {pc : PeerConnection}
    {rest : List PeerConnection} (hm : MutexOK s) (hs : RegistryOK statsId s)
    (htask : s.tasks[k]? = some task) (hphase : task.phase = .scan (pc :: rest)) :
    pc ∉ s.closed := by
  intro hc
  have hrest := hs.rest k task htask
  rw [hphase] at hrest
  have hmem : pc ∈ s.pcs := hrest.subset (by simp [Phase.rest])
  obtain ⟨j, t, ht, hid, hpass⟩ := hs.closed pc hc
  rcases Phase.passed_cases hpass with hret | hin
  · exact (hs.mem_pcs.mp hmem).2 ⟨j, t, ht, hid, hret⟩
  · -- two tasks in their critical sections are one
    have hj := (hm.task j).mpr ⟨t, ht, hin⟩
    have hk := (hm.task k).mpr ⟨task, htask, by rw [hphase]; rfl⟩
    obtain rfl : j = k := by simpa [hj] using hk
    obtain rfl : task = t := by rw [htask] at ht; exact Option.some.inj ht
    rw [hphase] at hpass
    simp [Phase.passed] at hpass

omit [DecidableEq Id] in
/-- While a party holds the mutex, nobody else has anything left to look at. -/
theorem rest_eq_nil {k : Nat} {t : Task Id} (hm : MutexOK s) (ht : s.tasks[k]? = some t)
    (hother : s.mutex ≠ some (.task k)) : t.phase.rest = [] := by
  refine Phase.rest_of_not_inside ?_
  by_contra hin
  exact hother ((hm.task k).mpr ⟨t, ht, by simpa using hin⟩)

omit [DecidableEq Id] in
/-- A connection whose handler has not pushed it cannot have been removed. -/
theorem not_removed_of_push (hinj : Function.Injective statsId) (hp : PushedOK statsId s) {i : Nat}
    (hpush : .push ∈ (s.handlers i).todo) : ¬ Removed statsId s i := by
  rintro ⟨k, t, ht, hid, -⟩
  obtain ⟨j, hj, hjid⟩ := hp.task k t ht
  obtain rfl : j = i := hinj (hjid.trans hid)
  exact (hp.mem_iff j).mp (hp.failed j hj) hpush

omit [DecidableEq Id] in
/-- A task that has just been spawned has removed nothing. -/
theorem removed_snoc {t : State Id} {id : Id} (h : t.tasks = s.tasks ++ [⟨id, .lock⟩])
    (c : PeerConnection) : Removed statsId t c ↔ Removed statsId s c := by
  unfold Removed
  rw [hasTask_snoc h]
  simp [Phase.retained]

omit [DecidableEq Id] in
/-- A task that goes through `retain` removes what has its id. -/
theorem removed_moved_unlock {k : Nat} {task : Task Id} (htask : s.tasks[k]? = some task)
    (hphase : task.phase.retained = false) (c : PeerConnection) :
    Removed statsId (s.moved k task .unlock) c ↔
      task.statsId = statsId c ∨ Removed statsId s c := by
  have hunlock : Phase.unlock.retained = true := rfl
  unfold Removed
  rw [hasTask_moved htask, hasTask_iff htask]
  simp [hphase, hunlock]

/-- So the registry is filtered by what was removed, before and after. -/
theorem filter_retain {k : Nat} {task : Task Id} (htask : s.tasks[k]? = some task)
    (hphase : task.phase.retained = false) (l : List PeerConnection) :
    (l.filter fun c => !removed statsId s c).filter (fun c => statsId c ≠ task.statsId) =
      l.filter fun c => !removed statsId (s.moved k task .unlock) c := by
  rw [List.filter_filter]
  refine List.filter_congr fun c _ => ?_
  have hbool : removed statsId (s.moved k task .unlock) c =
      (decide (task.statsId = statsId c) || removed statsId s c) := by
    rw [Bool.eq_iff_iff, Bool.or_eq_true, removed_iff, removed_iff,
      removed_moved_unlock htask hphase, decide_eq_true_eq]
  rw [hbool, Bool.not_or]
  simp [eq_comm]

theorem registryOK_step (hinj : Function.Injective statsId) (hm : MutexOK s)
    (hp : PushedOK statsId s) (hs : RegistryOK statsId s) (h : Move statsId s e s') :
    RegistryOK statsId s' := by
  cases h with
  | fails => exact ⟨hs.pcs, hs.rest, hs.closed_nodup, hs.closed⟩
  | lock => exact ⟨hs.pcs, hs.rest, hs.closed_nodup, hs.closed⟩
  | unlock => exact ⟨hs.pcs, hs.rest, hs.closed_nodup, hs.closed⟩
  | call => exact ⟨hs.pcs, hs.rest, hs.closed_nodup, hs.closed⟩
  | @push i rest hlive htodo =>
      have hholder : s.mutex = some (.handler i) :=
        (hm.handler i).mpr (by rw [htodo]; exact Or.inl rfl)
      have hnew : ¬ Removed statsId s i := not_removed_of_push hinj hp (by simp [htodo])
      refine ⟨?_, ?_, hs.closed_nodup, hs.closed⟩
      · have hkeep : [i].filter (fun c => !removed statsId s c) = [i] := by
          simp [hnew]
        show s.pcs ++ [i] = (s.pushed ++ [i]).filter fun c => !removed statsId s c
        rw [List.filter_append, ← hs.pcs, hkeep]
      · intro k t ht
        rw [rest_eq_nil hm ht (by simp [hholder])]
        exact List.nil_suffix
  | @reported i hset =>
      refine ⟨hs.pcs.trans (filter_removed_congr s.pushed (removed_snoc rfl)), ?_,
        hs.closed_nodup, ?_⟩
      · intro k t ht
        rcases getElem?_snoc_eq_some_iff.mp ht with hold | ⟨-, rfl⟩
        · exact hs.rest k t hold
        · exact List.nil_suffix
      · intro c hc
        exact (hasTask_snoc rfl).mpr (Or.inl (hs.closed c hc))
  | ignored hstate => exact hs
  | @taskLock k ok task htask hphase hfree =>
      have hok := hs.moved (.scan s.pcs) htask (by rw [hphase]; rfl) List.suffix_rfl
        (by simp [hphase, Phase.passed])
      exact ⟨hok.pcs, hok.rest, hok.closed_nodup, hok.closed⟩
  | @closes k ok task pc rest htask hphase hid =>
      have hrest := hs.rest k task htask
      rw [hphase] at hrest
      have hok := hs.moved (.close pc rest) htask (by rw [hphase]; rfl)
        ((List.suffix_cons pc rest).trans hrest) (by simp +contextual [hphase, Phase.passed])
      have hnot := hs.not_mem_closed hm htask hphase
      have hnodup : (pc :: rest).Nodup := by
        have hpcs : s.pcs.Nodup := hs.pcs ▸ hp.nodup.filter _
        exact hpcs.sublist hrest.sublist
      refine ⟨hok.pcs, hok.rest, ?_, ?_⟩
      · refine List.nodup_append.mpr ⟨hs.closed_nodup, by simp, ?_⟩
        simpa using fun a ha => ne_of_mem_of_not_mem ha hnot
      · intro c hc
        rcases List.mem_append.mp hc with hold | hlast
        · exact hok.closed c hold
        · rw [List.mem_singleton.mp hlast]
          exact (hasTask_moved htask).mpr (Or.inl ⟨hid.symm, (List.nodup_cons.mp hnodup).1⟩)
  | @skips k ok task pc rest htask hphase hid =>
      have hrest := hs.rest k task htask
      rw [hphase] at hrest
      exact hs.moved (.scan rest) htask (by rw [hphase]; rfl)
        ((List.suffix_cons pc rest).trans hrest) (by simp +contextual [hphase, Phase.passed])
  | @closeReturned k ok task pc rest htask hphase =>
      have hrest := hs.rest k task htask
      rw [hphase] at hrest
      exact hs.moved (.scan rest) htask (by rw [hphase]; rfl) hrest
        (by simp [hphase, Phase.passed])
  | @retain k ok task htask hphase =>
      have hholder := (hm.task k).mpr ⟨task, htask, by rw [hphase]; rfl⟩
      refine ⟨?_, ?_, hs.closed_nodup, ?_⟩
      · show s.pcs.filter _ = s.pushed.filter fun c => !removed statsId (s.moved k task .unlock) c
        rw [hs.pcs]
        exact filter_retain htask (by rw [hphase]; rfl) s.pushed
      · intro j t ht
        rw [moved_getElem? htask] at ht
        split at ht
        · obtain rfl := Option.some.inj ht
          exact List.nil_suffix
        · rename_i hj
          rw [rest_eq_nil hm ht (by simp [hholder, Ne.symm hj])]
          exact List.nil_suffix
      · intro c hc
        exact (hs.closed c hc).moved htask fun ⟨hid, _⟩ => ⟨hid, trivial⟩
  | @taskUnlock k ok task htask hphase =>
      have hok := hs.moved .done htask (by rw [hphase]; rfl) List.nil_suffix
        (by simp [Phase.passed])
      exact ⟨hok.pcs, hok.rest, hok.closed_nodup, hok.closed⟩

/-! ### Every run -/

theorem failed_step (h : Move statsId s e s') :
    s'.failed = s.failed ∨
      ∃ i, e = .iceConnectionStateChange i .failed ∧ s'.failed = s.failed ++ [i] := by
  cases h with
  | @reported i hset => exact Or.inr ⟨i, rfl, rfl⟩
  | _ => exact Or.inl rfl

/-- Only the notifications count as failures. -/
theorem failed_run : ∀ es s, (server statsId).run es = some s →
    ∀ c ∈ s.failed, .iceConnectionStateChange c .failed ∈ es := by
  refine Machine.run_induction (by simp [server]) ?_
  intro es s e s' _ ih h c hc
  rcases failed_step (step_move h) with heq | ⟨i, rfl, heq⟩
  · exact List.mem_append_left _ (ih c (heq ▸ hc))
  · rw [heq] at hc
    rcases List.mem_append.mp hc with hold | hlast
    · exact List.mem_append_left _ (ih c hold)
    · rw [List.mem_singleton.mp hlast]
      simp

theorem mutexOK_run : ∀ es s, (server statsId).run es = some s → MutexOK s :=
  Machine.run_induction mutexOK_init fun _ _ _ _ _ hs h => mutexOK_step hs (step_move h)

theorem pushedOK_run : ∀ es s, (server statsId).run es = some s → PushedOK statsId s :=
  Machine.run_induction pushedOK_init fun es s _ _ hrun hs h =>
    pushedOK_step (mutexOK_run es s hrun) hs (step_move h)

theorem registryOK_run (hinj : Function.Injective statsId) :
    ∀ es s, (server statsId).run es = some s → RegistryOK statsId s :=
  Machine.run_induction registryOK_init fun es s _ _ hrun hs h =>
    registryOK_step hinj (mutexOK_run es s hrun) (pushedOK_run es s hrun) hs (step_move h)

/-- A removal of this connection has run. -/
def removalRan (statsId : PeerConnection → Id) (s : State Id) (c : PeerConnection) : Bool :=
  s.tasks.any fun t => t.statsId = statsId c && t.phase = .done

/-- While nobody holds the mutex, a removal is either ahead of it or through. -/
theorem removalRan_eq (hm : MutexOK s) (hfree : s.mutex = none) (c : PeerConnection) :
    removalRan statsId s c = removed statsId s c := by
  rw [Bool.eq_iff_iff]
  simp only [removalRan, removed, List.any_eq_true]
  refine exists_congr fun t => and_congr_right fun ht => ?_
  obtain ⟨k, hk⟩ := List.mem_iff_getElem?.mp ht
  have hout : t.phase.inside ≠ true := by
    intro hin
    have hheld := (hm.task k).mpr ⟨t, hk, hin⟩
    simp [hfree] at hheld
  cases hphase : t.phase with
  | unlock => simp [hphase, Phase.inside] at hout
  | lock => simp [Phase.retained]
  | scan rest => simp [Phase.retained]
  | close pc rest => simp [Phase.retained]
  | done => simp [Phase.retained]

/--
**What the registry lists, and what is closed.**

After every run: whenever the mutex is free, the registry lists the pushed connections, in
the order of the pushes and each of them once, without those of which a removal has run.
No connection is closed twice, and one that was closed or is no longer listed has failed.
-/
theorem registry_exact (hinj : Function.Injective statsId) (es : List Event) (s : State Id)
    (h : (server statsId).run es = some s) :
    (s.mutex = none → s.pcs = s.pushed.filter fun c => !removalRan statsId s c) ∧
      s.pcs.Nodup ∧ s.closed.Nodup ∧
      (∀ c ∈ s.closed, .iceConnectionStateChange c .failed ∈ es) ∧
      ∀ c ∈ s.pushed, c ∉ s.pcs → .iceConnectionStateChange c .failed ∈ es := by
  have hm := mutexOK_run es s h
  have hp := pushedOK_run es s h
  have hs := registryOK_run hinj es s h
  -- a task is there because the connection that has its id failed
  have hfailed : ∀ {c : PeerConnection} {p : Task Id → Prop},
      HasTask s (fun t => t.statsId = statsId c ∧ p t) →
        .iceConnectionStateChange c .failed ∈ es := by
    rintro c p ⟨k, t, ht, hid, -⟩
    obtain ⟨i, hi, hiid⟩ := hp.task k t ht
    obtain rfl : i = c := hinj (hiid.trans hid)
    exact failed_run es s h i hi
  refine ⟨?_, ?_, hs.closed_nodup, fun c hc => hfailed (hs.closed c hc), ?_⟩
  · intro hfree
    simp only [removalRan_eq hm hfree]
    exact hs.pcs
  · exact hs.pcs ▸ hp.nodup.filter _
  · intro c hc hnot
    refine hfailed (p := fun t => t.phase.retained = true) ?_
    by_contra hrem
    exact hnot (hs.mem_pcs.mpr ⟨hc, hrem⟩)

/-- Two requests, and two notifications for the connection of the first. -/
def twoFailures : List Event :=
  List.replicate 8 (.handler 0 true) ++ List.replicate 8 (.handler 1 true) ++
    [.iceConnectionStateChange 0 .failed, .iceConnectionStateChange 0 .failed] ++
    List.replicate 6 (.task 1 false) ++ List.replicate 4 (.task 0 true)

theorem registry_after_twoFailures :
    ∃ s, (server id).run twoFailures = some s ∧ s.mutex = none ∧ s.pcs = [1] ∧ s.closed = [0] ∧
      s.pcs = s.pushed.filter (fun c => !removalRan id s c) ∧ s.closed.Nodup := by
  obtain ⟨s, hs⟩ := Option.isSome_iff_exists.mp
    (by decide : ((server (id : Nat → Nat)).run twoFailures).isSome = true)
  have hread : ((server (id : Nat → Nat)).run twoFailures).map
      (fun s => (s.mutex, s.pcs, s.closed)) = some (none, [1], [0]) := by decide
  rw [hs] at hread
  obtain ⟨hmutex, hpcs, hclosed⟩ : s.mutex = none ∧ s.pcs = [1] ∧ s.closed = [0] := by
    simpa using hread
  have hexact := registry_exact Function.injective_id twoFailures s hs
  exact ⟨s, hs, hmutex, hpcs, hclosed, hexact.1 hmutex, hexact.2.2.1⟩

end WebrtcEchoes.WebrtcRs.Server
