/-
A relay: loops that each read an item, change it and write it.

Every loop has a route, which says where it writes to and what it changes, and holds at
most one item in its hand.  All loops write into one log.  What a loop has written, with
the item in its hand behind it, is what it has read, changed, in the same order; so the
loops may be interleaved in any way and nothing is lost, written twice or reordered.
-/
import WebrtcEchoes.Lib.Machine
import Mathlib.Data.List.Nodup

namespace WebrtcEchoes.Relay

variable {κ α : Type}

structure Loop (κ α : Type) where
  route : κ
  /-- The item that was read and is not written yet. -/
  hand : Option α
  deriving DecidableEq, Repr

/-- An entry of the log. -/
structure Write (κ α : Type) where
  loop : Nat
  route : κ
  item : α
  deriving DecidableEq, Repr

structure State (κ α : Type) where
  loops : List (Loop κ α)
  written : List (Write κ α)
  deriving DecidableEq, Repr

inductive Event (κ α : Type)
  | start (route : κ)
  | read (k : Nat) (x : α)
  | write (k : Nat)
  deriving DecidableEq, Repr

def step (change : κ → α → α) (s : State κ α) : Event κ α → Option (State κ α)
  | .start route => some { s with loops := s.loops ++ [⟨route, none⟩] }
  | .read k x =>
      match s.loops[k]? with
      | some ⟨route, none⟩ => some { s with loops := s.loops.set k ⟨route, some x⟩ }
      | _ => none
  | .write k =>
      match s.loops[k]? with
      | some ⟨route, some x⟩ =>
          some
            { loops := s.loops.set k ⟨route, none⟩
              written := s.written ++ [⟨k, route, change route x⟩] }
      | _ => none

def machine (change : κ → α → α) : Machine (State κ α) (Event κ α) where
  init := ⟨[], []⟩
  step := step change

/-- The item that an event reads into the hand of loop `k`. -/
def Event.readBy (k : Nat) : Event κ α → Option α
  | .read j x => if j = k then some x else none
  | _ => none

/-- What loop `k` has read. -/
def readBy (k : Nat) (es : List (Event κ α)) : List α := es.filterMap (Event.readBy k)

/-- What loop `k` has written. -/
def writtenBy (k : Nat) (ws : List (Write κ α)) : List α :=
  (ws.filter fun w => w.loop = k).map Write.item

@[simp] theorem writtenBy_nil (k : Nat) : writtenBy k ([] : List (Write κ α)) = [] := rfl

@[simp] theorem writtenBy_append (k : Nat) (ws vs : List (Write κ α)) :
    writtenBy k (ws ++ vs) = writtenBy k ws ++ writtenBy k vs := by
  simp [writtenBy]

theorem writtenBy_singleton (k : Nat) (w : Write κ α) :
    writtenBy k [w] = if w.loop = k then [w.item] else [] := by
  by_cases h : w.loop = k <;> simp [writtenBy, h]

theorem readBy_snoc (k : Nat) (es : List (Event κ α)) (e : Event κ α) :
    readBy k (es ++ [e]) = readBy k es ++ (e.readBy k).toList := by
  cases h : e.readBy k <;> simp [readBy, h]

/-! ### What a step can do -/

theorem step_read {change : κ → α → α} {s s' : State κ α} {k : Nat} {x : α}
    (h : step change s (.read k x) = some s') :
    ∃ route, s.loops[k]? = some ⟨route, none⟩ ∧
      s' = { s with loops := s.loops.set k ⟨route, some x⟩ } := by
  simp only [step] at h
  split at h
  · rename_i route hk
    exact ⟨route, hk, by simpa using h.symm⟩
  · simp at h

theorem step_write {change : κ → α → α} {s s' : State κ α} {k : Nat}
    (h : step change s (.write k) = some s') :
    ∃ route x, s.loops[k]? = some ⟨route, some x⟩ ∧
      s' = ⟨s.loops.set k ⟨route, none⟩, s.written ++ [⟨k, route, change route x⟩]⟩ := by
  simp only [step] at h
  split at h
  · rename_i route x hk
    exact ⟨route, x, hk, by simpa using h.symm⟩
  · simp at h

/-! ### Every item once, and in order -/

/-- The log and the hands hold what was read. -/
structure Relayed (change : κ → α → α) (es : List (Event κ α)) (s : State κ α) : Prop where
  inOrder : ∀ k l, s.loops[k]? = some l →
    writtenBy k s.written ++ (l.hand.map (change l.route)).toList =
      (readBy k es).map (change l.route)
  /-- A loop that has not started has read nothing. -/
  unread : ∀ k, s.loops[k]? = none → readBy k es = []
  /-- A loop writes along its own route. -/
  routed : ∀ w ∈ s.written, s.loops[w.loop]?.map Loop.route = some w.route

variable {change : κ → α → α}

/-- A loop that has not started has written nothing. -/
theorem Relayed.unwritten {es : List (Event κ α)} {s : State κ α} (h : Relayed change es s)
    {k : Nat} (hk : s.loops[k]? = none) : writtenBy k s.written = [] := by
  have hne : ∀ w ∈ s.written, w.loop ≠ k := by
    rintro w hw rfl
    have := h.routed w hw
    simp [hk] at this
  simpa [writtenBy, List.filter_eq_nil_iff] using hne

/-- A written item is one the loop has read, changed. -/
theorem Relayed.exists_read {es : List (Event κ α)} {s : State κ α} (h : Relayed change es s)
    {w : Write κ α} (hw : w ∈ s.written) : ∃ x ∈ readBy w.loop es, change w.route x = w.item := by
  obtain ⟨l, hl, hroute⟩ := Option.map_eq_some_iff.mp (h.routed w hw)
  have hmem : w.item ∈ writtenBy w.loop s.written := by
    simp only [writtenBy, List.mem_map, List.mem_filter]
    exact ⟨w, ⟨hw, by simp⟩, rfl⟩
  have hread : w.item ∈ (readBy w.loop es).map (change l.route) := by
    rw [← h.inOrder _ l hl]
    exact List.mem_append_left _ hmem
  rw [hroute] at hread
  exact List.mem_map.mp hread

/-- **Items under one label come from loops of one route.**  Here a change puts the label
of the route on the item, and different routes have different labels. -/
theorem Relayed.route_eq {τ : Type} (label : α → τ) {labelOf : κ → τ}
    (hlabel : ∀ route x, label (change route x) = labelOf route)
    (hinj : Function.Injective labelOf) {es : List (Event κ α)} {s : State κ α}
    (h : Relayed change es s) {w v : Write κ α} (hw : w ∈ s.written) (hv : v ∈ s.written)
    (heq : label w.item = label v.item) : w.route = v.route := by
  obtain ⟨x, -, hx⟩ := h.exists_read hw
  obtain ⟨y, -, hy⟩ := h.exists_read hv
  refine hinj ?_
  rw [← hlabel w.route x, ← hlabel v.route y, hx, hy]
  exact heq

/-- Loops of one route are one loop, where no two loops share a route. -/
theorem Relayed.loop_eq {es : List (Event κ α)} {s : State κ α} (h : Relayed change es s)
    (hnd : (s.loops.map Loop.route).Nodup) {w v : Write κ α} (hw : w ∈ s.written)
    (hv : v ∈ s.written) (heq : w.route = v.route) : w.loop = v.loop := by
  have hwr : (s.loops.map Loop.route)[w.loop]? = some w.route := by
    rw [List.getElem?_map]
    exact h.routed w hw
  have hvr : (s.loops.map Loop.route)[v.loop]? = some v.route := by
    rw [List.getElem?_map]
    exact h.routed v hv
  have hlt : w.loop < (s.loops.map Loop.route).length := (List.getElem?_eq_some_iff.mp hwr).1
  exact (List.getElem?_inj hlt hnd).mp (by rw [hwr, hvr, heq])

/-- Replacing a loop by one with the same route. -/
theorem route_set {ls : List (Loop κ α)} {k j : Nat} {l : Loop κ α} {hand : Option α}
    (hk : ls[k]? = some l) :
    (ls.set k ⟨l.route, hand⟩)[j]?.map Loop.route = ls[j]?.map Loop.route := by
  by_cases hj : k = j
  · subst hj
    obtain ⟨hlt, rfl⟩ := List.getElem?_eq_some_iff.mp hk
    simp [hlt]
  · simp [List.getElem?_set_ne hj]

theorem relayed_start {es : List (Event κ α)} {s : State κ α} (h : Relayed change es s)
    (route : κ) :
    Relayed change (es ++ [.start route]) { s with loops := s.loops ++ [⟨route, none⟩] } := by
  have hread : ∀ k, readBy k (es ++ [.start route]) = readBy k es := by
    intro k
    simp [readBy_snoc, Event.readBy]
  refine ⟨?_, ?_, ?_⟩
  · intro k l hl
    rw [hread]
    rcases Nat.lt_trichotomy k s.loops.length with hlt | rfl | hgt
    · exact h.inOrder k l (by simpa [List.getElem?_append_left hlt] using hl)
    · obtain rfl : ⟨route, none⟩ = l := by simpa using hl
      have hnone : s.loops[s.loops.length]? = none := by simp
      simp [h.unread _ hnone, h.unwritten hnone]
    · rw [List.getElem?_eq_none (by simp; omega)] at hl
      simp at hl
  · intro k hk
    rw [hread]
    refine h.unread k ?_
    rw [List.getElem?_eq_none_iff] at hk ⊢
    simp only [List.length_append, List.length_singleton] at hk
    omega
  · intro w hw
    have hroute := h.routed w hw
    have hlt : w.loop < s.loops.length := by
      by_contra hge
      rw [List.getElem?_eq_none (by omega)] at hroute
      simp at hroute
    simpa [List.getElem?_append_left hlt] using hroute

theorem relayed_read {es : List (Event κ α)} {s : State κ α} (h : Relayed change es s) {k : Nat}
    {route : κ} (x : α) (hk : s.loops[k]? = some ⟨route, none⟩) :
    Relayed change (es ++ [.read k x])
      { s with loops := s.loops.set k ⟨route, some x⟩ } := by
  have hlt : k < s.loops.length := (List.getElem?_eq_some_iff.mp hk).1
  refine ⟨?_, ?_, ?_⟩
  · intro j l hl
    rw [readBy_snoc]
    by_cases hj : k = j
    · subst hj
      obtain rfl : ⟨route, some x⟩ = l := by simpa [hlt] using hl
      have hold := h.inOrder k _ hk
      simpa [Event.readBy] using hold
    · rw [List.getElem?_set_ne hj] at hl
      simpa [Event.readBy, hj] using h.inOrder j l hl
  · intro j hj
    rw [readBy_snoc]
    have hne : k ≠ j := by
      rintro rfl
      simp only [List.getElem?_eq_none_iff, List.length_set] at hj
      omega
    rw [List.getElem?_set_ne hne] at hj
    simp [h.unread j hj, Event.readBy, hne]
  · intro w hw
    rw [route_set hk]
    exact h.routed w hw

theorem relayed_write {es : List (Event κ α)} {s : State κ α} (h : Relayed change es s) {k : Nat}
    {route : κ} {x : α} (hk : s.loops[k]? = some ⟨route, some x⟩) :
    Relayed change (es ++ [.write k])
      ⟨s.loops.set k ⟨route, none⟩, s.written ++ [⟨k, route, change route x⟩]⟩ := by
  have hlt : k < s.loops.length := (List.getElem?_eq_some_iff.mp hk).1
  have hread : ∀ j, readBy j (es ++ [.write k]) = readBy j es := by
    intro j
    simp [readBy_snoc, Event.readBy]
  refine ⟨?_, ?_, ?_⟩
  · intro j l hl
    rw [hread]
    by_cases hj : k = j
    · subst hj
      obtain rfl : ⟨route, none⟩ = l := by simpa [hlt] using hl
      have hold := h.inOrder k _ hk
      simpa [writtenBy_singleton] using hold
    · rw [List.getElem?_set_ne hj] at hl
      simpa [writtenBy_singleton, hj] using h.inOrder j l hl
  · intro j hj
    rw [hread]
    exact h.unread j (by simpa [List.getElem?_eq_none_iff] using hj)
  · intro w hw
    rw [route_set hk]
    rcases List.mem_append.mp hw with hw | hw
    · exact h.routed w hw
    · obtain rfl : w = ⟨k, route, change route x⟩ := by simpa using hw
      simp [hk]

/-- **Every loop writes what it reads, once, in order and along its own route.** -/
theorem relayed_of_run :
    ∀ es s, (machine change).run es = some s → Relayed change es s := by
  refine Machine.run_induction (P := Relayed change) ?_ ?_
  · refine ⟨fun k l hl => ?_, fun k _ => rfl, fun w hw => ?_⟩
    · simp [machine] at hl
    · simp [machine] at hw
  · intro es s e s' _ ih hse
    cases e with
    | start route =>
        obtain rfl : { s with loops := s.loops ++ [⟨route, none⟩] } = s' := Option.some.inj hse
        exact relayed_start ih route
    | read k x =>
        obtain ⟨route, hk, rfl⟩ := step_read (show step change s (.read k x) = some s' from hse)
        exact relayed_read ih x hk
    | write k =>
        obtain ⟨route, x, hk, rfl⟩ := step_write (show step change s (.write k) = some s' from hse)
        exact relayed_write ih hk

/-! ### Loops that are seen as relay loops

A program keeps more in its loops than a route and a hand; `view` forgets the rest.
-/

section View

variable {ρ : Type} {view : ρ → Loop κ α} {ls : List ρ} {l l' : ρ} {k : Nat}
  {written : List (Write κ α)}

/-- A loop that changes nothing of what is seen of it. -/
theorem map_set_view {σ : Type} {f : ρ → σ} (hk : ls[k]? = some l) (hf : f l' = f l) :
    (ls.set k l').map f = ls.map f := by
  obtain ⟨hlt, rfl⟩ := List.getElem?_eq_some_iff.mp hk
  rw [List.map_set, hf, ← List.getElem_map f (h := by simpa using hlt), List.set_getElem_self]

/-- A loop that takes an item into its hand. -/
theorem step_read_view (change : κ → α → α) {route : κ} {x : α} (hk : ls[k]? = some l)
    (hl : view l = ⟨route, none⟩) (hl' : view l' = ⟨route, some x⟩) :
    step change ⟨ls.map view, written⟩ (.read k x) = some ⟨(ls.set k l').map view, written⟩ := by
  simp [step, hk, hl, hl', List.map_set]

/-- A loop that writes the item in its hand. -/
theorem step_write_view (change : κ → α → α) {route : κ} {x : α} (hk : ls[k]? = some l)
    (hl : view l = ⟨route, some x⟩) (hl' : view l' = ⟨route, none⟩) :
    step change ⟨ls.map view, written⟩ (.write k) =
      some ⟨(ls.set k l').map view, written ++ [⟨k, route, change route x⟩]⟩ := by
  simp [step, hk, hl, hl', List.map_set]

end View

end WebrtcEchoes.Relay
