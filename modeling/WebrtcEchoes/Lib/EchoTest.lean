/-
A test that sends a probe and waits until it comes back.

A tester is a client that sends nothing but its probe and ends with status 0 just when
the probe has reached it in time, unless something else has ended it; a reflector is a
server that sends the probe back.  For any tester and any reflector, whatever the order of
their steps: no other message is ever on the way (`onlyProbe_run`), the client ends with
status 0 just when the probe has made its round trip in time (`exit_zero_iff`), and as
long as its connection is open the client can still succeed (`can_succeed`).
-/
import WebrtcEchoes.Lib.Link

namespace WebrtcEchoes

open Link

/-- A client of the test. -/
structure Tester {μ : Type} (probe : μ) where
  State : Type
  Label : Type
  party : Party State Label μ
  exit : State → Option Nat
  /-- The process was ended from outside its own code. -/
  Aborted : Nat → Prop
  not_aborted : ¬ Aborted 0
  /-- The probe would still be noticed. -/
  Waiting : State → Prop
  /-- The probe can still be sent and come back. -/
  Open : State → Prop
  sends_probe : ∀ e, ∀ m ∈ party.sends e, m = probe
  /-- A probe that comes in time decides. -/
  complete : ∀ pre e post s s' n, party.run pre = some s → Waiting s →
    party.takes e = some probe → party.run (pre ++ e :: post) = some s' → exit s' = some n →
    n = 0 ∨ Aborted n
  /-- Nothing else makes the test succeed. -/
  sound : ∀ es s, party.run es = some s → (∀ m ∈ party.taken es, m = probe) →
    exit s = some 0 → ∃ pre e post t, es = pre ++ e :: post ∧ party.run pre = some t ∧
      Waiting t ∧ party.takes e = some probe
  /-- While its connection is open it can send the probe. -/
  canSend : ∀ s, Open s → ∃ es s', party.runFrom s es = some s' ∧ Open s' ∧
    party.taken es = [] ∧ party.sent es = [probe]
  /-- While its connection is open it can take the probe and come to its end. -/
  canEnd : ∀ s, Open s → ∃ es s', party.runFrom s es = some s' ∧
    party.taken es = [probe] ∧ party.sent es = [] ∧ exit s' = some 0
  /-- And if it has had the probe, it can come to its end without another one. -/
  canReturn : ∀ es s, party.run es = some s → probe ∈ party.taken es → Open s →
    ∃ fs s', party.runFrom s fs = some s' ∧ party.taken fs = [] ∧ party.sent fs = [] ∧
      exit s' = some 0

/-- A server of the test. -/
structure Reflector {μ : Type} (probe : μ) where
  State : Type
  Label : Type
  party : Party State Label μ
  reflects : ∀ e, party.takes e = some probe → party.sends e = [probe]
  silent : ∀ e, party.takes e = none → party.sends e = []
  /-- It can always take the probe. -/
  serves : ∀ s, ∃ es s', party.runFrom s es = some s' ∧ party.taken es = [probe]

namespace EchoTest

variable {μ : Type} {probe : μ} {c : Tester probe} {r : Reflector probe}

/-! ### Reflected probes -/

/-- A reflector sends what it takes. -/
theorem sent_eq_taken {ds : List r.Label} (h : ∀ m ∈ r.party.taken ds, m = probe) :
    r.party.sent ds = r.party.taken ds := by
  induction ds with
  | nil => rfl
  | cons d rest ih =>
      rw [Party.taken_cons] at h ⊢
      rw [Party.sent_cons, ih fun m hm => h m (List.mem_append_right _ hm)]
      refine (List.append_left_inj _).mpr ?_
      cases htakes : r.party.takes d with
      | none => simpa using r.silent d htakes
      | some m =>
          obtain rfl : m = probe := h m (by simp [htakes])
          simpa using r.reflects d htakes

theorem sent_probe {es : List c.Label} {m : μ} (h : m ∈ c.party.sent es) : m = probe := by
  obtain ⟨e, -, hm⟩ := List.mem_flatMap.mp h
  exact c.sends_probe e m hm

/-- A reflector can take any number of probes. -/
theorem serves_all {probes : List μ} (h : ∀ m ∈ probes, m = probe) (s : r.State) :
    ∃ ds s', r.party.runFrom s ds = some s' ∧ r.party.taken ds = probes := by
  induction probes generalizing s with
  | nil => exact ⟨[], s, rfl, rfl⟩
  | cons m rest ih =>
      obtain rfl : m = probe := h m (by simp)
      obtain ⟨ds, s₁, hds, htaken⟩ := r.serves s
      obtain ⟨ds', s₂, hds', htaken'⟩ := ih (fun m hm => h m (by simp [hm])) s₁
      refine ⟨ds ++ ds', s₂, ?_, ?_⟩
      · rw [r.party.runFrom_append, hds]
        exact hds'
      · rw [Party.taken_append, htaken, htaken']
        rfl

/-! ### The system -/

variable [DecidableEq μ] (c r)

/-- The client and the server with the lines between them. -/
abbrev system : Machine (Link.State c.State r.State μ) (c.Label ⊕ r.Label) :=
  link c.party r.party

/-- The client takes the probe while it is waiting. -/
def RoundTrip (es : List (c.Label ⊕ r.Label)) : Prop :=
  ∃ pre e post t, es = pre ++ .inl e :: post ∧ (system c r).run pre = some t ∧
    c.Waiting t.left ∧ c.party.takes e = some probe

variable {c r}

/-! ### What is on the way -/

/-- Every message that is or was on the way is the probe. -/
structure OnlyProbe (es : List (c.Label ⊕ r.Label)) (s : Link.State c.State r.State μ) : Prop where
  client : ∀ m ∈ c.party.taken (lefts es), m = probe
  server : ∀ m ∈ r.party.taken (rights es), m = probe
  toServer : ∀ m ∈ s.toRight, m = probe
  toClient : ∀ m ∈ s.toLeft, m = probe

theorem onlyProbe_run {es : List (c.Label ⊕ r.Label)} {s : Link.State c.State r.State μ}
    (h : (system c r).run es = some s) : OnlyProbe es s := by
  have htransit := inTransit_run es s h
  have hserver : ∀ m ∈ r.party.taken (rights es) ++ s.toRight, m = probe := by
    intro m hm
    rw [← htransit.toRight] at hm
    exact sent_probe hm
  have htaken : ∀ m ∈ r.party.taken (rights es), m = probe :=
    fun m hm => hserver m (List.mem_append_left _ hm)
  have hclient : ∀ m ∈ c.party.taken (lefts es) ++ s.toLeft, m = probe := by
    intro m hm
    rw [← htransit.toLeft, sent_eq_taken htaken] at hm
    exact htaken m hm
  exact ⟨fun m hm => hclient m (List.mem_append_left _ hm), htaken,
    fun m hm => hserver m (List.mem_append_right _ hm),
    fun m hm => hclient m (List.mem_append_right _ hm)⟩

/-! ### The verdict -/

/-- **The client ends with status 0 just when the probe has come back in time.** -/
theorem exit_zero_iff {es : List (c.Label ⊕ r.Label)} {s : Link.State c.State r.State μ} {n : Nat}
    (h : (system c r).run es = some s) (hexit : c.exit s.left = some n) :
    n = 0 ↔ RoundTrip c r es ∧ ¬ c.Aborted n := by
  have htransit := inTransit_run es s h
  refine ⟨?_, ?_⟩
  · rintro rfl
    obtain ⟨pre, e, post, t, heq, hrun, hwaiting, htakes⟩ :=
      c.sound _ _ htransit.left (onlyProbe_run h).client hexit
    obtain ⟨pre', post', rfl, rfl⟩ := lefts_eq_append heq
    rw [(system c r).run_append] at h
    obtain ⟨t', ht', -⟩ := Option.bind_eq_some_iff.mp h
    have hleft : t'.left = t := Option.some.inj ((inTransit_run pre' t' ht').left.symm.trans hrun)
    exact ⟨⟨pre', e, post', t', rfl, ht', hleft ▸ hwaiting, htakes⟩, c.not_aborted⟩
  · rintro ⟨⟨pre, e, post, t, rfl, ht, hwaiting, htakes⟩, hlive⟩
    have hleft := htransit.left
    rw [lefts_append, lefts_inl] at hleft
    have hor := c.complete _ e _ t.left s.left n (inTransit_run pre t ht).left hwaiting htakes
      hleft hexit
    exact hor.resolve_right hlive

/-- **A round trip has four ends**: the client has sent the probe, the server has taken it
and sent it back, and the client has taken it. -/
theorem RoundTrip.ends {es : List (c.Label ⊕ r.Label)} {s : Link.State c.State r.State μ}
    (h : (system c r).run es = some s) (htrip : RoundTrip c r es) :
    probe ∈ c.party.sent (lefts es) ∧ probe ∈ r.party.taken (rights es) ∧
      probe ∈ r.party.sent (rights es) ∧ probe ∈ c.party.taken (lefts es) := by
  have htransit := inTransit_run es s h
  obtain ⟨pre, e, post, t, rfl, ht, -, htakes⟩ := htrip
  have hback : probe ∈ c.party.taken (lefts (pre ++ .inl e :: post)) := by
    rw [lefts_append, lefts_inl, Party.taken_append, Party.taken_cons, htakes]
    simp
  have hreflected : probe ∈ r.party.sent (rights (pre ++ .inl e :: post)) := by
    rw [htransit.toLeft]
    exact List.mem_append_left _ hback
  have harrived : probe ∈ r.party.taken (rights (pre ++ .inl e :: post)) := by
    rwa [← sent_eq_taken (onlyProbe_run h).server]
  refine ⟨?_, harrived, hreflected, hback⟩
  rw [htransit.toRight]
  exact List.mem_append_left _ harrived

/-! ### Success remains possible -/

/-- A client whose connection is open has sent its probe, or can send it now. -/
theorem exists_sent {es : List (c.Label ⊕ r.Label)} {s : Link.State c.State r.State μ}
    (h : (system c r).run es = some s) (hopen : c.Open s.left) :
    ∃ fs t, (system c r).run (es ++ fs.map .inl) = some t ∧ c.Open t.left ∧
      c.party.taken fs = [] ∧ c.party.sent (lefts es ++ fs) ≠ [] ∧
      (c.party.sent (lefts es) ≠ [] → fs = []) := by
  by_cases hsent : c.party.sent (lefts es) = []
  · obtain ⟨fs, left, hrun, hopen', htaken, hprobe⟩ := c.canSend s.left hopen
    let t : Link.State c.State r.State μ :=
      { s with left := left, toLeft := s.toLeft, toRight := s.toRight ++ c.party.sent fs }
    have hlink : (system c r).runFrom s (fs.map .inl) = some t :=
      runFrom_left hrun (by rw [htaken, List.nil_append])
    refine ⟨fs, t, ?_, hopen', htaken, ?_, fun hne => absurd hsent hne⟩
    · rw [(system c r).run_append, h]
      exact hlink
    · rw [Party.sent_append, hsent, hprobe]
      simp
  · exact ⟨[], s, by simpa using h, hopen, rfl, by simpa using hsent, fun _ => rfl⟩

/-- A probe that was sent and has not come back is on one of the two lines, and can come back
without being sent again. -/
theorem can_return {es : List (c.Label ⊕ r.Label)} {s : Link.State c.State r.State μ}
    (h : (system c r).run es = some s) (hopen : c.Open s.left)
    (htaken : c.party.taken (lefts es) = []) (hsent : c.party.sent (lefts es) ≠ []) :
    ∃ fs t, (system c r).run (es ++ fs) = some t ∧ c.exit t.left = some 0 ∧
      c.party.sent (lefts fs) = [] := by
  have honly := onlyProbe_run h
  have htransit := inTransit_run es s h
  -- The server takes all that is on its line, and sends it back.
  obtain ⟨ds, right, hrun, hds⟩ := serves_all honly.toServer s.right
  let s₁ : Link.State c.State r.State μ :=
    { s with right := right, toRight := [], toLeft := s.toLeft ++ r.party.sent ds }
  have hlink₁ : (system c r).runFrom s (ds.map .inr) = some s₁ :=
    runFrom_right hrun (by rw [hds, List.append_nil])
  have hreflected : r.party.sent ds = s.toRight := by
    rw [sent_eq_taken (hds ▸ honly.toServer), hds]
  -- So there is a probe in front of the client, which takes it and ends.
  have hlines : c.party.sent (lefts es) = s.toLeft ++ s.toRight := by
    rw [htransit.toRight, ← sent_eq_taken honly.server, htransit.toLeft, htaken, List.nil_append]
  obtain ⟨rest, hfront⟩ : ∃ rest, s₁.toLeft = probe :: rest := by
    have hline : s₁.toLeft = c.party.sent (lefts es) := by
      rw [hlines, ← hreflected]
    obtain ⟨first, rest, hcons⟩ := List.exists_cons_of_ne_nil hsent
    obtain rfl : first = probe := sent_probe (by rw [hcons]; simp)
    exact ⟨rest, hline.trans hcons⟩
  obtain ⟨es₂, left, hrun₂, htaken₂, hsent₂, hexit⟩ := c.canEnd s₁.left hopen
  let s₂ : Link.State c.State r.State μ :=
    { s₁ with left := left, toLeft := rest, toRight := s₁.toRight ++ c.party.sent es₂ }
  have hlink₂ : (system c r).runFrom s₁ (es₂.map .inl) = some s₂ :=
    runFrom_left hrun₂ (by rw [htaken₂, hfront, List.singleton_append])
  refine ⟨ds.map .inr ++ es₂.map .inl, s₂, ?_, hexit, ?_⟩
  · rw [(system c r).run_append, h, Option.bind_some, (system c r).runFrom_append, hlink₁,
      Option.bind_some, hlink₂]
  · simp [hsent₂]

/-- **Whatever has happened, a client whose connection is open can still succeed**, and it need
not send its probe a second time. -/
theorem can_succeed {es : List (c.Label ⊕ r.Label)} {s : Link.State c.State r.State μ}
    (h : (system c r).run es = some s) (hopen : c.Open s.left) :
    ∃ fs t, (system c r).run (es ++ fs) = some t ∧ c.exit t.left = some 0 ∧
      (c.party.sent (lefts es) ≠ [] → c.party.sent (lefts fs) = []) := by
  by_cases htaken : c.party.taken (lefts es) = []
  · obtain ⟨fs, t, hrun, hopen', hfs, hsent, hnone⟩ := exists_sent h hopen
    have hlefts : lefts (es ++ fs.map .inl) = lefts es ++ fs := by simp
    obtain ⟨gs, u, hrun', hexit, hgs⟩ := can_return hrun hopen'
      (by rw [hlefts, Party.taken_append, htaken, hfs]; rfl) (by rwa [hlefts])
    refine ⟨fs.map .inl ++ gs, u, by rwa [← List.append_assoc], hexit, fun hne => ?_⟩
    rw [hnone hne, List.map_nil, List.nil_append, hgs]
  · -- The probe has come back already, and the client only has to return.
    obtain ⟨m, hm⟩ := List.exists_mem_of_ne_nil _ htaken
    obtain rfl : m = probe := (onlyProbe_run h).client m hm
    obtain ⟨es', left, hrun, htaken', hsent, hexit⟩ :=
      c.canReturn _ s.left (inTransit_run es s h).left hm hopen
    let t : Link.State c.State r.State μ :=
      { s with left := left, toLeft := s.toLeft, toRight := s.toRight ++ c.party.sent es' }
    have hlink : (system c r).runFrom s (es'.map .inl) = some t :=
      runFrom_left hrun (by rw [htaken', List.nil_append])
    refine ⟨es'.map .inl, t, ?_, hexit, fun _ => by rw [lefts_map_inl, hsent]⟩
    rw [(system c r).run_append, h]
    exact hlink

end EchoTest

end WebrtcEchoes
