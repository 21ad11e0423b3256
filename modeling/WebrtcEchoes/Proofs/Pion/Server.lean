/-
What the pion registry holds.

`closeFailed` is characterised completely: on a registry without duplicates it
leaves the list alone when the connection is not in it, drops the last element when
the connection is that one, and panics for a connection at any earlier position,
because the loop still visits the old last index of a slice that is one shorter by
then.  From this, a run keeps the registry equal to the connections created and not
yet failed exactly as long as every `Failed` report is for the last connection of
the registry or for one that is no longer in it.
-/
import WebrtcEchoes.Pion.Server
import Mathlib.Data.List.Nodup

namespace WebrtcEchoes.Pion.Server

/-! ### The loop -/

theorem closeLoop_append (pc : PeerConnection) (is js : List Nat) :
    ∀ pcs, closeLoop pc (is ++ js) pcs = (closeLoop pc is pcs).bind (closeLoop pc js) := by
  induction is with
  | nil => intro pcs; rfl
  | cons i rest ih =>
      intro pcs
      simp only [List.cons_append, closeLoop]
      split
      · rfl
      · split
        · exact ih _
        · exact ih _

/-- Indices that hold other connections change nothing. -/
theorem closeLoop_skip {pc : PeerConnection} {pcs : List PeerConnection} (is : List Nat)
    (h : ∀ i ∈ is, ∃ p, pcs[i]? = some p ∧ p ≠ pc) : closeLoop pc is pcs = .ok pcs := by
  induction is with
  | nil => rfl
  | cons i rest ih =>
      obtain ⟨p, hp, hne⟩ := h i (by simp)
      simp only [closeLoop, hp, if_neg hne]
      exact ih fun j hj => h j (by simp [hj])

theorem closeLoop_skip_of_not_mem {pc : PeerConnection} {pcs : List PeerConnection}
    (hpc : pc ∉ pcs) (is : List Nat) (his : ∀ i ∈ is, i < pcs.length) :
    closeLoop pc is pcs = .ok pcs := by
  refine closeLoop_skip is fun i hi => ?_
  have hlt : i < pcs.length := his i hi
  refine ⟨pcs[i], List.getElem?_eq_getElem hlt, ?_⟩
  rintro rfl
  exact hpc (List.getElem_mem hlt)

/-- A connection that is not registered is not looked for past the end. -/
theorem closeFailed_of_not_mem {pc : PeerConnection} {pcs : List PeerConnection}
    (h : pc ∉ pcs) : closeFailed pc pcs = .ok pcs :=
  closeLoop_skip_of_not_mem h _ fun i hi => by simpa using hi

/-- The indices up to and including the connection's own. -/
theorem closeLoop_upto {pc : PeerConnection} (xs ys : List PeerConnection) (hx : pc ∉ xs) :
    closeLoop pc (List.range (xs.length + 1)) (xs ++ pc :: ys) = .ok (xs ++ ys) := by
  have hskip : closeLoop pc (List.range xs.length) (xs ++ pc :: ys) = .ok (xs ++ pc :: ys) := by
    refine closeLoop_skip _ fun i hi => ?_
    have hlt : i < xs.length := by simpa using hi
    refine ⟨xs[i], ?_, ?_⟩
    · rw [List.getElem?_append_left hlt, List.getElem?_eq_getElem hlt]
    · intro heq
      exact hx (heq ▸ List.getElem_mem hlt)
  rw [List.range_succ, closeLoop_append, hskip]
  show closeLoop pc [xs.length] (xs ++ pc :: ys) = .ok (xs ++ ys)
  simp [closeLoop, removeAt]

/-- The loop over a registry that holds the connection: the indices after it. -/
theorem closeFailed_of_mem {pc : PeerConnection} (xs ys : List PeerConnection)
    (hx : pc ∉ xs) (hy : pc ∉ ys) :
    closeFailed pc (xs ++ pc :: ys) =
      if ys = [] then .ok xs
      else .error (.indexOutOfRange (xs.length + ys.length) (xs.length + ys.length)) := by
  have hxy : pc ∉ xs ++ ys := by simp [hx, hy]
  have hlen : (xs ++ pc :: ys).length = (xs.length + 1) + ys.length := by
    simp only [List.length_append, List.length_cons]; omega
  rw [closeFailed, hlen, List.range_add, closeLoop_append, closeLoop_upto xs ys hx]
  show closeLoop pc _ (xs ++ ys) = _
  rcases List.eq_nil_or_concat ys with rfl | ⟨zs, z, rfl⟩
  · simp [closeLoop]
  · -- every index but the old last one is still in range
    have hskip : closeLoop pc ((List.range zs.length).map (xs.length + 1 + ·))
        (xs ++ (zs ++ [z])) = .ok (xs ++ (zs ++ [z])) := by
      refine closeLoop_skip_of_not_mem (by simpa using hxy) _ fun i hi => ?_
      simp only [List.mem_map, List.mem_range] at hi
      obtain ⟨j, hj, rfl⟩ := hi
      simp only [List.length_append, List.length_singleton]
      omega
    simp only [List.concat_eq_append, List.length_append, List.length_singleton,
      List.range_succ, List.map_append, List.map_cons, List.map_nil] at hskip ⊢
    rw [closeLoop_append, hskip]
    show closeLoop pc [xs.length + 1 + zs.length] (xs ++ (zs ++ [z])) = _
    have hout : (xs ++ (zs ++ [z]))[xs.length + 1 + zs.length]? = none := by
      rw [List.getElem?_eq_none_iff]
      simp only [List.length_append, List.length_singleton]
      omega
    simp only [closeLoop, hout]
    simp only [List.append_eq_nil_iff, List.cons_ne_self, and_false, if_false,
      List.length_append, List.length_singleton]
    congr 2
    omega

/-- What the callback does to a registry without duplicates: it removes the connection,
or it panics because the connection is registered but not the last. -/
theorem closeFailed_eq {pc : PeerConnection} {pcs : List PeerConnection} (hnd : pcs.Nodup) :
    closeFailed pc pcs =
      if pc ∈ pcs → pcs.getLast? = some pc then .ok (pcs.erase pc)
      else .error (.indexOutOfRange (pcs.length - 1) (pcs.length - 1)) := by
  by_cases hmem : pc ∈ pcs
  · obtain ⟨xs, ys, rfl⟩ := List.append_of_mem hmem
    have hsplit := List.nodup_middle.mp hnd
    obtain ⟨hxy, -⟩ := List.nodup_cons.mp hsplit
    have hx : pc ∉ xs := fun h => hxy (by simp [h])
    have hy : pc ∉ ys := fun h => hxy (by simp [h])
    rw [closeFailed_of_mem xs ys hx hy]
    rcases List.eq_nil_or_concat ys with rfl | ⟨zs, z, rfl⟩
    · simp [List.erase_append_right _ hx]
    · have hne : z ≠ pc := fun h => hy (by simp [h])
      have hlast : (xs ++ pc :: zs.concat z).getLast? = some z := by
        rw [List.concat_eq_append, ← List.cons_append, ← List.append_assoc]
        exact List.getLast?_concat
      have hnot : ¬ (pc ∈ xs ++ pc :: zs.concat z →
          (xs ++ pc :: zs.concat z).getLast? = some pc) := by
        intro h
        exact hne (Option.some.inj (hlast.symm.trans (h hmem)))
      rw [if_neg hnot, if_neg (by simp)]
      simp only [List.concat_eq_append, List.length_append, List.length_cons]
      congr 2
  · rw [closeFailed_of_not_mem hmem, if_pos fun h => absurd h hmem, List.erase_of_not_mem hmem]

/-! ### One step -/

/-- The registry lists, once each, exactly the connections created and not yet failed. -/
structure Listed (s : State) : Prop where
  nodup : s.pcs.Nodup
  mem_iff : ∀ pc, pc ∈ s.pcs ↔ pc < s.created ∧ pc ∉ s.failed

/-- What a step may do to the registry: append the new connection, remove exactly the
failed one and keep the order of the others, or leave it alone; never panic. -/
def Exact (s : State) (e : Event) (s' : State) : Prop :=
  s'.panicked = none ∧
    s'.pcs = match e with
      | .offer => s.pcs ++ [s.created]
      | .iceConnectionStateChange pc state => if state = .failed then s.pcs.erase pc else s.pcs

/-- A `Failed` report is for the last connection of the registry, or for none of it. -/
def LastOrGone (s : State) (e : Event) (_ : State) : Prop :=
  ∀ pc, e = .iceConnectionStateChange pc .failed → pc ∈ s.pcs → s.pcs.getLast? = some pc

theorem step_offer {s s' : State} (h : step s .offer = some s') :
    s.panicked = none ∧ s' = offer s := by
  simp only [step] at h
  split at h
  · simp at h
  · rename_i hp
    exact ⟨by simpa using hp, by simpa using h.symm⟩

theorem step_callback {s s' : State} {pc : PeerConnection} {state : ICEConnectionState}
    (h : step s (.iceConnectionStateChange pc state) = some s') :
    s.panicked = none ∧ pc < s.created ∧ s' = onICEConnectionStateChange pc state s := by
  simp only [step] at h
  split at h
  · simp at h
  · rename_i hp
    simp only [not_or, Bool.not_eq_true, Option.isSome_eq_false_iff, Option.isNone_iff_eq_none,
      Nat.not_le] at hp
    exact ⟨hp.1, hp.2, by simpa using h.symm⟩

/-- **A step of a correct registry is exact just when the failed connection is the last.** -/
theorem exact_iff {s s' : State} {e : Event} (hs : Listed s) (h : step s e = some s') :
    Exact s e s' ↔ LastOrGone s e s' := by
  cases e with
  | offer =>
      obtain ⟨hp, rfl⟩ := step_offer h
      exact ⟨fun _ pc hpc => by simp at hpc, fun _ => ⟨hp, rfl⟩⟩
  | iceConnectionStateChange pc state =>
      obtain ⟨hp, -, rfl⟩ := step_callback h
      by_cases hf : state = .failed
      · subst hf
        simp only [Exact, LastOrGone, onICEConnectionStateChange, if_true, closeFailed_eq hs.nodup]
        by_cases hlast : pc ∈ s.pcs → s.pcs.getLast? = some pc
        · rw [if_pos hlast]
          refine ⟨fun _ pc' hpc' => ?_, fun _ => ⟨hp, rfl⟩⟩
          obtain ⟨rfl, -⟩ := Event.iceConnectionStateChange.inj hpc'
          exact hlast
        · rw [if_neg hlast]
          refine ⟨fun hex => by simp at hex, fun hcond => absurd (hcond pc rfl) hlast⟩
      · refine ⟨fun _ pc' hpc' => ?_, fun _ => ?_⟩
        · exact absurd (Event.iceConnectionStateChange.inj hpc').2 hf
        · simp [Exact, onICEConnectionStateChange, hf, hp]

/-- The invariant of a run: the registry is correct, and only created connections fail. -/
structure RegistryOK (s : State) : Prop extends Listed s where
  failed_lt : ∀ pc ∈ s.failed, pc < s.created

theorem registryOK_init : RegistryOK server.init :=
  ⟨⟨List.nodup_nil, fun pc => by simp [server]⟩, fun pc h => by simp [server] at h⟩

theorem registryOK_offer {s : State} (hs : RegistryOK s) : RegistryOK (offer s) := by
  have hfresh : s.created ∉ s.pcs := fun hc =>
    absurd ((hs.mem_iff _).mp hc).1 (Nat.lt_irrefl _)
  have hunfailed : s.created ∉ s.failed := fun hc => absurd (hs.failed_lt _ hc) (Nat.lt_irrefl _)
  refine ⟨⟨?_, fun pc => ?_⟩, fun pc hpc => Nat.lt_succ_of_lt (hs.failed_lt pc hpc)⟩
  · refine List.nodup_append.mpr ⟨hs.nodup, List.nodup_singleton _, ?_⟩
    rintro a ha b hb rfl
    exact hfresh (by simpa [List.mem_singleton.mp hb] using ha)
  · show pc ∈ s.pcs ++ [s.created] ↔ pc < s.created + 1 ∧ pc ∉ s.failed
    rw [List.mem_append, List.mem_singleton, hs.mem_iff, Nat.lt_succ_iff_lt_or_eq]
    refine ⟨?_, ?_⟩
    · rintro (⟨hlt, hnf⟩ | rfl)
      · exact ⟨Or.inl hlt, hnf⟩
      · exact ⟨Or.inr rfl, hunfailed⟩
    · rintro ⟨hlt | heq, hnf⟩
      · exact Or.inl ⟨hlt, hnf⟩
      · exact Or.inr heq

/-- Taking a failed connection out keeps the registry correct. -/
theorem registryOK_erase {s : State} (hs : RegistryOK s) {pc : PeerConnection}
    (hpc : pc < s.created) :
    RegistryOK { s with pcs := s.pcs.erase pc, failed := pc :: s.failed } := by
  refine ⟨⟨hs.nodup.erase pc, fun q => ?_⟩, fun q hq => ?_⟩
  · show q ∈ s.pcs.erase pc ↔ q < s.created ∧ q ∉ pc :: s.failed
    rw [hs.nodup.mem_erase_iff, hs.mem_iff, List.mem_cons, not_or]
    exact and_left_comm
  · rcases List.mem_cons.mp hq with rfl | hq
    · exact hpc
    · exact hs.failed_lt q hq

/-- An exact step keeps the registry correct. -/
theorem registryOK_step {s s' : State} {e : Event} (hs : RegistryOK s) (h : step s e = some s')
    (hex : Exact s e s') : RegistryOK s' := by
  cases e with
  | offer =>
      obtain ⟨-, rfl⟩ := step_offer h
      exact registryOK_offer hs
  | iceConnectionStateChange pc state =>
      have hlast := (exact_iff hs.toListed h).mp hex
      obtain ⟨-, hpc, rfl⟩ := step_callback h
      by_cases hf : state = .failed
      · subst hf
        simp only [onICEConnectionStateChange, if_true, closeFailed_eq hs.nodup,
          if_pos (hlast pc rfl)]
        exact registryOK_erase hs hpc
      · simpa only [onICEConnectionStateChange, if_neg hf] using hs

/-! ### Whole runs -/

/-- No connection is registered twice, whatever fails. -/
theorem nodup_of_run :
    ∀ es s, server.run es = some s → s.pcs.Nodup ∧ ∀ pc ∈ s.pcs, pc < s.created := by
  refine Machine.run_induction
    (P := fun _ (s : State) => s.pcs.Nodup ∧ ∀ pc ∈ s.pcs, pc < s.created) ?_ ?_
  · exact ⟨List.nodup_nil, by simp [server]⟩
  · rintro es s e s' - ⟨hnd, hlt⟩ hse
    cases e with
    | offer =>
        obtain ⟨-, rfl⟩ := step_offer hse
        refine ⟨List.nodup_append.mpr ⟨hnd, List.nodup_singleton _, ?_⟩, fun pc hpc => ?_⟩
        · rintro a ha b hb rfl
          obtain rfl : a = s.created := List.mem_singleton.mp hb
          exact Nat.lt_irrefl _ (hlt _ ha)
        · show pc < s.created + 1
          rcases List.mem_append.mp hpc with hpc | hpc
          · exact Nat.lt_succ_of_lt (hlt pc hpc)
          · rw [List.mem_singleton.mp hpc]
            exact Nat.lt_succ_self _
    | iceConnectionStateChange pc state =>
        obtain ⟨-, -, rfl⟩ := step_callback hse
        by_cases hf : state = .failed
        · simp only [onICEConnectionStateChange, hf, if_true, closeFailed_eq hnd]
          split
          · rename_i pcs hclose
            have herase : s.pcs.erase pc = pcs := by
              split at hclose
              · exact Except.ok.inj hclose
              · simp at hclose
            rw [← herase]
            exact ⟨hnd.erase pc, fun q hq => hlt q (List.mem_of_mem_erase hq)⟩
          · exact ⟨hnd, hlt⟩
        · simpa only [onICEConnectionStateChange, if_neg hf] using ⟨hnd, hlt⟩

theorem registryOK_of_exact {es : List Event} (h : server.Each Exact es) :
    server.Throughout RegistryOK es :=
  Machine.throughout_of_each registryOK_init (fun _ _ _ hs hse hex => registryOK_step hs hse hex) h

theorem registryOK_of_lastOrGone {es : List Event} (h : server.Each LastOrGone es) :
    server.Throughout RegistryOK es :=
  Machine.throughout_of_each registryOK_init
    (fun _ _ _ hs hse hl => registryOK_step hs hse ((exact_iff hs.toListed hse).mpr hl)) h

/--
**The registry is exact along a run just when every failed connection is the last.**

Whatever offers and callbacks arrive, every step is exact and every state lists
precisely the connections created and not yet failed if and only if each `Failed`
report is for the last connection of the registry or for one no longer in it.
-/
theorem registry_exact_iff (es : List Event) :
    (server.Each Exact es ∧ server.Throughout Listed es) ↔ server.Each LastOrGone es := by
  refine ⟨?_, ?_⟩
  · rintro ⟨hex, -⟩ pre e post s s' rfl hs hse
    have hok := registryOK_of_exact hex pre (e :: post) s rfl hs
    exact (exact_iff hok.toListed hse).mp (hex pre e post s s' rfl hs hse)
  · intro hlast
    have hok := registryOK_of_lastOrGone hlast
    refine ⟨?_, fun pre post s he hs => (hok pre post s he hs).toListed⟩
    intro pre e post s s' he hs hse
    exact (exact_iff (hok pre (e :: post) s he hs).toListed hse).mpr
      (hlast pre e post s s' he hs hse)

/-- Two live connections, and the first of them fails. -/
def firstOfTwoFails : List Event := [.offer, .offer, .iceConnectionStateChange 0 .failed]

/-- There the callback reads `pcs[1]` of a slice of length one, and the server dies. -/
theorem registry_first_of_two_panics :
    (server.run firstOfTwoFails).map State.panicked = some (some (.indexOutOfRange 1 1)) ∧
      ¬ (server.Each Exact firstOfTwoFails ∧ server.Throughout Listed firstOfTwoFails) := by
  refine ⟨by decide, fun ⟨hex, _⟩ => ?_⟩
  have hlast := Machine.Each.last hex (show server.run [.offer, .offer] = _ from rfl) rfl
  exact absurd hlast.1 (by decide)

end WebrtcEchoes.Pion.Server
