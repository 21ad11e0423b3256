/-
Which connections of the aiortc server get closed.

`on_shutdown` takes a snapshot of the set, waits until the connections of the snapshot are
closed, and then clears the whole set.  A request that was still waiting for its body adds
its connection behind the snapshot: before the `clear`, which then drops it, or behind it,
where nothing will ever close it.  Apart from that no connection is lost.
-/
import WebrtcEchoes.Aiortc.Server

namespace WebrtcEchoes.Aiortc.Server

variable {s s' : State} {e : Event}

/-! ### The steps -/

/-- A handler creates its connection, or it only moves on. -/
theorem offer_cases {i : Nat} {ok : Bool} (h : offer s i ok = some s') :
    (s.handlers i = .json ∧ ok = true ∧ s' = { s.moved i .setRemoteDescription with
        pcs := s.pcs ++ [i], added := s.added ++ [i] }) ∨
      ∃ handler, handler ≠ .json ∧ s' = s.moved i handler ∧ s.handlers i ≠ .raised ∧
        (s.handlers i = .json → ok = false) ∧ (handler = .raised ↔ ok = false) := by
  unfold offer at h
  split at h
  · rename_i hat
    split at h
    · rename_i hok
      exact Or.inl ⟨hat, hok, (Option.some.inj h).symm⟩
    · rename_i hok
      refine Or.inr ⟨.raised, by simp, (Option.some.inj h).symm, by simp [hat], ?_, ?_⟩
      · intro _
        simpa using hok
      · simpa using hok
  · rename_i hat
    refine Or.inr ⟨_, ?_, (Option.some.inj h).symm, by simp [hat], by simp [hat], ?_⟩ <;>
      cases ok <;> simp
  · rename_i hat
    refine Or.inr ⟨_, ?_, (Option.some.inj h).symm, by simp [hat], by simp [hat], ?_⟩ <;>
      cases ok <;> simp
  · rename_i hat
    refine Or.inr ⟨_, ?_, (Option.some.inj h).symm, by simp [hat], by simp [hat], ?_⟩ <;>
      cases ok <;> simp
  · simp at h
  · simp at h

theorem resume_cases (h : resume s = some s') :
    s.shutdown = .gathering ∧
      ((s.gatherRaised = true ∧ s' = { s with shutdown := .raised }) ∨
        (s.gatherRaised = false ∧ s.pending = [] ∧
          s' = { s with
            shutdown := .completed, pcs := [], removed := s.removed ++ s.pcs })) := by
  unfold resume at h
  split at h
  · rename_i hgathering
    refine ⟨hgathering, ?_⟩
    split at h
    · rename_i hraised
      exact Or.inl ⟨hraised, (Option.some.inj h).symm⟩
    · rename_i hraised
      split at h
      · rename_i hpending
        exact Or.inr ⟨by simpa using hraised, hpending, (Option.some.inj h).symm⟩
      · simp at h
  · simp at h

/-- A callback or a shutdown takes a step that is open to it. -/
theorem eq_of_guarded {p : Prop} [Decidable p] {t : State}
    (h : (if p then some t else none) = some s') : p ∧ s' = t := by
  obtain ⟨hp, heq⟩ := Option.ite_none_right_eq_some.mp h
  exact ⟨hp, (Option.some.inj heq).symm⟩

@[simp] theorem moved_handlers (i j : Nat) (handler : Handler) :
    (s.moved i handler).handlers j = if j = i then handler else s.handlers j := by
  simp [State.moved, Function.update_apply]

/-! ### Where the connections are -/

structure Bookkeeping (s : State) : Prop where
  /-- A request adds one connection, its own. -/
  json : ∀ i, s.handlers i = .json → i ∉ s.added
  pcs : ∀ i ∈ s.pcs, i ∈ s.added
  callbacks : ∀ i ∈ s.callbacks, i ∈ s.added
  coros : ∀ i ∈ s.coros, i ∈ s.added
  pending : ∀ i ∈ s.pending, i ∈ s.coros
  settled : ∀ i ∈ s.coros, i ∈ s.closed ∨ i ∈ s.pending ∨ s.gatherRaised = true
  /-- A callback discards the connection it has closed; only `on_shutdown` leaves one. -/
  closed : ∀ i ∈ s.closed, i ∈ s.added ∧ (i ∈ s.pcs → i ∈ s.coros)

theorem bookkeeping_init : Bookkeeping server.init := by
  refine ⟨?_, ?_, ?_, ?_, ?_, ?_, ?_⟩ <;> simp [server]

theorem Bookkeeping.offer {i : Nat} {ok : Bool} (hs : Bookkeeping s)
    (h : offer s i ok = some s') : Bookkeeping s' := by
  rcases offer_cases h with ⟨hjson, -, rfl⟩ | ⟨handler, hne, rfl, -, -, -⟩
  · have hnew : i ∉ s.added := hs.json i hjson
    refine ⟨?_, ?_, ?_, ?_, hs.pending, hs.settled, ?_⟩
    · intro j hj
      simp only [moved_handlers] at hj
      split at hj
      · simp at hj
      · rename_i hji
        simpa [hji] using hs.json j hj
    · intro j hj
      rcases List.mem_append.mp hj with hin | hlast
      · exact List.mem_append_left _ (hs.pcs j hin)
      · exact List.mem_append_right _ hlast
    · intro j hj
      exact List.mem_append_left _ (hs.callbacks j hj)
    · intro j hj
      exact List.mem_append_left _ (hs.coros j hj)
    · intro j hj
      refine ⟨List.mem_append_left _ (hs.closed j hj).1, ?_⟩
      intro hmem
      rcases List.mem_append.mp hmem with hin | hlast
      · exact (hs.closed j hj).2 hin
      · rw [List.mem_singleton.mp hlast] at hj
        exact absurd (hs.closed i hj).1 hnew
  · refine ⟨?_, hs.pcs, hs.callbacks, hs.coros, hs.pending, hs.settled, hs.closed⟩
    intro j hj
    simp only [moved_handlers] at hj
    split at hj
    · exact absurd hj hne
    · exact hs.json j hj

theorem Bookkeeping.closeEnded {i : PeerConnection} {ok : Bool} (hs : Bookkeeping s)
    (hi : i ∈ s.callbacks) : Bookkeeping (closeEnded s i ok) := by
  have hcallbacks : ∀ j ∈ s.callbacks.erase i, j ∈ s.added := fun j hj =>
    hs.callbacks j (List.mem_of_mem_erase hj)
  cases ok with
  | false => exact ⟨hs.json, hs.pcs, hcallbacks, hs.coros, hs.pending, hs.settled, hs.closed⟩
  | true =>
      refine ⟨hs.json, ?_, hcallbacks, hs.coros, hs.pending, ?_, ?_⟩
      · intro j hj
        exact hs.pcs j (List.mem_of_mem_filter hj)
      · intro j hj
        exact (hs.settled j hj).imp_left (List.mem_append_left _)
      · intro j hj
        have hpcs : j ∈ s.pcs.filter (· ≠ i) → j ∈ s.pcs ∧ j ≠ i := by
          simp
        rcases List.mem_append.mp hj with hold | hlast
        · exact ⟨(hs.closed j hold).1, fun hmem => (hs.closed j hold).2 (hpcs hmem).1⟩
        · obtain rfl := List.mem_singleton.mp hlast
          exact ⟨hs.callbacks j hi, fun hmem => absurd rfl (hpcs hmem).2⟩

theorem Bookkeeping.onShutdown (hs : Bookkeeping s) : Bookkeeping (onShutdown s) := by
  unfold Server.onShutdown
  split
  · exact ⟨hs.json, hs.pcs, hs.callbacks, hs.coros, hs.pending, hs.settled, hs.closed⟩
  · exact ⟨hs.json, hs.pcs, hs.callbacks, hs.pcs, fun i hi => hi,
      fun i hi => Or.inr (Or.inl hi), fun i hi => ⟨(hs.closed i hi).1, id⟩⟩

theorem Bookkeeping.gathered {i : PeerConnection} {ok : Bool} (hs : Bookkeeping s)
    (hi : i ∈ s.pending) : Bookkeeping (Server.gathered s i ok) := by
  have hpending : ∀ j ∈ s.pending.erase i, j ∈ s.coros := fun j hj =>
    hs.pending j (List.mem_of_mem_erase hj)
  cases ok with
  | false =>
      exact ⟨hs.json, hs.pcs, hs.callbacks, hs.coros, hpending, fun j _ => Or.inr (Or.inr rfl),
        hs.closed⟩
  | true =>
      refine ⟨hs.json, hs.pcs, hs.callbacks, hs.coros, hpending, ?_, ?_⟩
      · intro j hj
        rcases hs.settled j hj with hclosed | hpend | hraised
        · exact Or.inl (List.mem_append_left _ hclosed)
        · by_cases hji : j = i
          · exact Or.inl (by simp [Server.gathered, hji])
          · exact Or.inr (Or.inl ((List.mem_erase_of_ne hji).mpr hpend))
        · exact Or.inr (Or.inr hraised)
      · intro j hj
        rcases List.mem_append.mp hj with hold | hlast
        · exact hs.closed j hold
        · obtain rfl := List.mem_singleton.mp hlast
          exact ⟨hs.coros j (hs.pending j hi), fun _ => hs.pending j hi⟩

theorem bookkeeping_step (hs : Bookkeeping s) (h : step s e = some s') : Bookkeeping s' := by
  cases e with
  | handler i ok => exact hs.offer h
  | iceConnectionStateChange i state =>
      obtain ⟨hi, rfl⟩ := eq_of_guarded h
      unfold onIceConnectionStateChange
      split
      · refine ⟨hs.json, hs.pcs, ?_, hs.coros, hs.pending, hs.settled, hs.closed⟩
        intro j hj
        rcases List.mem_append.mp hj with hin | hlast
        · exact hs.callbacks j hin
        · rw [List.mem_singleton.mp hlast]
          exact hi
      · exact hs
  | closeEnded i ok =>
      obtain ⟨hi, rfl⟩ := eq_of_guarded h
      exact hs.closeEnded hi
  | onShutdown =>
      obtain ⟨-, rfl⟩ := eq_of_guarded h
      exact hs.onShutdown
  | gathered i ok =>
      obtain ⟨hi, rfl⟩ := eq_of_guarded h
      exact hs.gathered hi
  | resume =>
      obtain ⟨-, ⟨-, rfl⟩ | ⟨-, -, rfl⟩⟩ := resume_cases h
      · exact ⟨hs.json, hs.pcs, hs.callbacks, hs.coros, hs.pending, hs.settled, hs.closed⟩
      · exact ⟨hs.json, by simp, hs.callbacks, hs.coros, hs.pending, hs.settled,
          fun i hi => ⟨(hs.closed i hi).1, by simp⟩⟩

theorem bookkeeping_run : ∀ es s, server.run es = some s → Bookkeeping s :=
  Machine.run_induction bookkeeping_init fun _ _ _ _ _ hs h => bookkeeping_step hs h

/-! ### What becomes of every connection -/

/-- Nothing is dropped without having been closed, and a completed `on_shutdown` has closed
everything. -/
structure AllClosed (s : State) : Prop where
  dropped : ∀ i ∈ s.added, i ∉ s.pcs → i ∈ s.closed
  completed : s.shutdown = .completed → ∀ i ∈ s.added, i ∈ s.closed

/-- The steps that lose no connection: none is added to the set once `on_shutdown` has
completed, and when it clears the set, the set holds connections of its snapshot only. -/
structure Orderly (s : State) (e : Event) : Prop where
  added : ∀ i, e = .handler i true → s.handlers i = .json → s.shutdown ≠ .completed
  cleared : e = .resume → s.gatherRaised = false → ∀ i ∈ s.pcs, i ∈ s.coros

theorem allClosed_init : AllClosed server.init := ⟨by simp [server], by simp [server]⟩

/-- A step that neither adds nor clears. -/
theorem orderly_of_ne (hadd : ∀ i ok, e ≠ .handler i ok) (hclear : e ≠ .resume) : Orderly s e :=
  ⟨fun i he => absurd he (hadd i true), fun he => absurd he hclear⟩

/-- **A step from a good state leads to a good state just when it is orderly.** -/
theorem allClosed_step (hb : Bookkeeping s) (hs : AllClosed s) (h : step s e = some s') :
    AllClosed s' ↔ Orderly s e := by
  cases e with
  | handler i ok =>
      rcases offer_cases h with ⟨hjson, rfl, rfl⟩ | ⟨handler, -, rfl, -, hjson, -⟩
      · have hnew : i ∉ s.closed := fun hi => hb.json i hjson (hb.closed i hi).1
        refine ⟨?_, ?_⟩
        · intro hs'
          refine ⟨?_, by simp⟩
          intro j hj _ hcompleted
          exact hnew (hs'.completed hcompleted i (by simp))
        · intro ho
          have hrunning : s.shutdown ≠ .completed := ho.added i rfl hjson
          refine ⟨?_, fun hcompleted => absurd hcompleted hrunning⟩
          intro j hj hnot
          simp only [List.mem_append, List.mem_singleton, not_or] at hj hnot
          exact hs.dropped j (hj.resolve_right hnot.2) hnot.1
      · refine iff_of_true ⟨hs.dropped, hs.completed⟩ ⟨?_, by simp⟩
        intro j hj hat
        obtain ⟨rfl, rfl⟩ : i = j ∧ ok = true := by simpa using hj
        exact absurd (hjson hat) (by simp)
  | iceConnectionStateChange i state =>
      obtain ⟨-, rfl⟩ := eq_of_guarded h
      refine iff_of_true ?_ (orderly_of_ne (by simp) (by simp))
      unfold onIceConnectionStateChange
      split
      · exact ⟨hs.dropped, hs.completed⟩
      · exact hs
  | closeEnded i ok =>
      obtain ⟨-, rfl⟩ := eq_of_guarded h
      refine iff_of_true ?_ (orderly_of_ne (by simp) (by simp))
      cases ok with
      | false => exact ⟨hs.dropped, hs.completed⟩
      | true =>
          refine ⟨?_, fun hc j hj => List.mem_append_left _ (hs.completed hc j hj)⟩
          intro j hj hnot
          by_cases hji : j = i
          · simp [closeEnded, hji]
          · exact List.mem_append_left _ (hs.dropped j hj (by simpa [closeEnded, hji] using hnot))
  | onShutdown =>
      obtain ⟨-, rfl⟩ := eq_of_guarded h
      refine iff_of_true ?_ (orderly_of_ne (by simp) (by simp))
      unfold onShutdown
      split
      · rename_i hempty
        exact ⟨hs.dropped, fun _ i hi => hs.dropped i hi (by simp [hempty])⟩
      · exact ⟨hs.dropped, by simp⟩
  | gathered i ok =>
      obtain ⟨-, rfl⟩ := eq_of_guarded h
      refine iff_of_true ?_ (orderly_of_ne (by simp) (by simp))
      cases ok with
      | false => exact ⟨hs.dropped, hs.completed⟩
      | true =>
          exact ⟨fun j hj hnot => List.mem_append_left _ (hs.dropped j hj hnot),
            fun hc j hj => List.mem_append_left _ (hs.completed hc j hj)⟩
  | resume =>
      obtain ⟨-, ⟨hraised, rfl⟩ | ⟨hraised, hpending, rfl⟩⟩ := resume_cases h
      · exact iff_of_true ⟨hs.dropped, by simp⟩ ⟨by simp, by simp [hraised]⟩
      · refine ⟨?_, ?_⟩
        · intro hs'
          refine ⟨by simp, ?_⟩
          intro _ _ i hi
          exact (hb.closed i (hs'.dropped i (hb.pcs i hi) (by simp))).2 hi
        · intro ho
          have hall : ∀ i ∈ s.added, i ∈ s.closed := by
            intro i hi
            by_cases hin : i ∈ s.pcs
            · have hgathered := hb.settled i (ho.cleared rfl hraised i hin)
              simpa [hpending, hraised] using hgathered
            · exact hs.dropped i hi hin
          exact ⟨fun i hi _ => hall i hi, fun _ => hall⟩

/--
**When the shutdown of the server loses no connection.**

In every state of a run the dropped connections have been closed, and all of them once
`on_shutdown` has completed, if and only if no step of the run adds a connection to the
set behind the end of `on_shutdown` or clears the set while a connection is in it that
came behind the snapshot.
-/
theorem allClosed_iff (es : List Event) :
    server.Throughout AllClosed es ↔ server.Each (fun s e _ => Orderly s e) es :=
  (Machine.each_iff_throughout allClosed_init (fun es s _ _ hrun hs h =>
    allClosed_step (bookkeeping_run es s hrun) hs h) es).symm

/-- A request whose body arrives while `on_shutdown` waits. -/
def lateBody : List Event :=
  [.handler 0 true, .onShutdown, .handler 1 true, .gathered 0 true, .resume]

/-- Its connection is dropped and stays open. -/
theorem lateBody_loses :
    (server.run lateBody).map (fun s => (s.shutdown, s.pcs, s.added, s.closed)) =
        some (.completed, [], [0, 1], [0]) ∧
      ¬ server.Throughout AllClosed lateBody := by
  have hread : (server.run lateBody).map (fun s => (s.shutdown, s.pcs, s.added, s.closed)) =
      some (.completed, [], [0, 1], [0]) := by decide
  refine ⟨hread, ?_⟩
  intro h
  obtain ⟨s, hs, heq⟩ := Option.map_eq_some_iff.mp hread
  obtain ⟨-, hpcs, hadded, hclosed⟩ :
      s.shutdown = .completed ∧ s.pcs = [] ∧ s.added = [0, 1] ∧ s.closed = [0] := by
    simpa using heq
  have hlost := (h lateBody [] s (by simp) hs).dropped 1 (by simp [hadded]) (by simp [hpcs])
  simp [hclosed] at hlost

end WebrtcEchoes.Aiortc.Server
