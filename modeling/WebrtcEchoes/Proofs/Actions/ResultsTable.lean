/-
What the results tables of the two workflows say.

`ownBadges_iff` is about the badges a table has, `complete_iff` about the rows and
columns it lacks.  Both come down to what `TableOfRun` says of a wired workflow, read
for the two wirings there are.
-/
import WebrtcEchoes.Proofs.Actions.Workflow

namespace WebrtcEchoes.Actions

open WebrtcEchoes.Collate

variable {w : Workflow} {source : String → String}

/-! ### Badges -/

/-- Every badge of the table is the green image if the job of its own pair succeeded, and
else the red one. -/
def OwnBadges (r : MatrixRun w) : Prop :=
  ∃ t, r.table = .ok t ∧
    ∀ s c b, t.cell s c = some b →
      b.resultChar = if r.exitStatus (s, c) = 0 then passingImage else failingImage

theorem Wired.ownBadges_iff_source (hw : Wired w source) (r : MatrixRun w) :
    OwnBadges r ↔
      ∀ s ∈ w.server, ∀ c ∈ w.client, (∃ c' ∈ w.client, r.exitStatus (source s, c') = 0) →
        (∃ s' ∈ w.server, r.exitStatus (source s', c) = 0) →
        (r.exitStatus (source s, c) = 0 ↔ r.exitStatus (s, c) = 0) := by
  obtain ⟨t, ht, htab⟩ := hw.table r
  refine ⟨?_, ?_⟩
  · intro ⟨t', ht', hown⟩ s hs c hc hrow hcol
    obtain rfl : t = t' := Except.ok.inj (ht.symm.trans ht')
    have hsome := (htab.cell_isSome s c).mpr
      ⟨(htab.mem_servers s).mpr ⟨hs, hrow⟩, (htab.mem_clients c).mpr ⟨hc, hcol⟩⟩
    obtain ⟨b, hb⟩ := Option.isSome_iff_exists.mp hsome
    rw [← htab.green s c b hb]
    exact Badge.resultChar_eq_ite.mp (hown s c b hb)
  · intro h
    refine ⟨t, ht, fun s c b hb => ?_⟩
    obtain ⟨hrow, hcol⟩ := (htab.cell_isSome s c).mp (by simp [hb])
    obtain ⟨hs, hrow⟩ := (htab.mem_servers s).mp hrow
    obtain ⟨hc, hcol⟩ := (htab.mem_clients c).mp hcol
    rw [Badge.resultChar_eq_ite, htab.green s c b hb, h s hs c hc hrow hcol]

/-- The servers the peer connection outputs read are all but `webrtc-rs`. -/
theorem exists_peerConnectionSource {P : String → Prop} :
    (∃ s ∈ peerConnectionTest.server, P (peerConnectionSource s)) ↔
      ∃ s ∈ peerConnectionTest.server, s ≠ "webrtc-rs" ∧ P s := by
  refine ⟨?_, ?_⟩
  · intro ⟨s, hs, hP⟩
    refine ⟨peerConnectionSource s, peerConnection_wired.source_mem s hs, ?_, hP⟩
    unfold peerConnectionSource
    split
    · decide
    · assumption
  · intro ⟨s, hs, hne, hP⟩
    refine ⟨s, hs, ?_⟩
    rwa [peerConnectionSource, if_neg hne]

/--
**When the badges of the peer connection table are about their own pairs.**

The outputs of `webrtc-rs` are wired to `janus`.  So either no client passed against
`janus`, and the table has no row `webrtc-rs`, or every client that has a column must
have passed against both of these servers or against neither.
-/
theorem ownBadges_iff (r : MatrixRun peerConnectionTest) :
    OwnBadges r ↔
      (∀ c ∈ peerConnectionTest.client, r.exitStatus ("janus", c) ≠ 0) ∨
        ∀ c ∈ peerConnectionTest.client,
          (∃ s ∈ peerConnectionTest.server, s ≠ "webrtc-rs" ∧ r.exitStatus (s, c) = 0) →
          (r.exitStatus ("janus", c) = 0 ↔ r.exitStatus ("webrtc-rs", c) = 0) := by
  rw [peerConnection_wired.ownBadges_iff_source]
  have hmem : "webrtc-rs" ∈ peerConnectionTest.server := by decide
  have hsrc : peerConnectionSource "webrtc-rs" = "janus" := by decide
  have hcols : ∀ c, (∃ s ∈ peerConnectionTest.server,
        r.exitStatus (peerConnectionSource s, c) = 0) ↔
      ∃ s ∈ peerConnectionTest.server, s ≠ "webrtc-rs" ∧ r.exitStatus (s, c) = 0 :=
    fun c => exists_peerConnectionSource (P := fun s => r.exitStatus (s, c) = 0)
  simp only [hcols]
  refine ⟨?_, ?_⟩
  · intro h
    by_cases hrow : ∃ c ∈ peerConnectionTest.client, r.exitStatus ("janus", c) = 0
    · exact Or.inr fun c hc hcol => hsrc ▸ h "webrtc-rs" hmem c hc (hsrc.symm ▸ hrow) hcol
    · exact Or.inl fun c hc h0 => hrow ⟨c, hc, h0⟩
  · intro h s hs c hc hrow hcol
    by_cases hne : s = "webrtc-rs"
    · subst hne
      rw [hsrc] at hrow ⊢
      rcases h with hnone | hall
      · obtain ⟨c', hc', h0⟩ := hrow
        exact absurd h0 (hnone c' hc')
      · exact hall c hc hcol
    · rw [peerConnectionSource, if_neg hne]

/-- Every client passes against every server but `webrtc-rs`. -/
def webrtcRsFails : MatrixRun peerConnectionTest where
  exitStatus := fun pair => if pair.1 = "webrtc-rs" then 1 else 0
  finished := peerConnectionTest.matrix
  perm := List.Perm.refl _

/-- Yet the row `webrtc-rs` of the table is green. -/
theorem webrtcRsFails_green :
    (∃ t, webrtcRsFails.table = .ok t ∧
        (t.cell "webrtc-rs" "pion").map Badge.resultChar = some passingImage) ∧
      webrtcRsFails.exitStatus ("webrtc-rs", "pion") ≠ 0 ∧ ¬ OwnBadges webrtcRsFails := by
  have hfail : webrtcRsFails.exitStatus ("webrtc-rs", "pion") ≠ 0 := by decide
  obtain ⟨t, ht, htab⟩ := peerConnection_wired.table webrtcRsFails
  have hsome := (htab.cell_isSome "webrtc-rs" "pion").mpr
    ⟨(htab.mem_servers _).mpr (by decide), (htab.mem_clients _).mpr (by decide)⟩
  obtain ⟨b, hb⟩ := Option.isSome_iff_exists.mp hsome
  have hgreen : b = .green := (htab.green _ _ b hb).mpr (by decide)
  refine ⟨⟨t, ht, ?_⟩, hfail, ?_⟩
  · rw [hb, hgreen, Option.map_some, Badge.resultChar_green]
  intro ⟨t', ht', hown⟩
  obtain rfl : t = t' := Except.ok.inj (ht.symm.trans ht')
  exact hfail ((Badge.resultChar_eq_ite.mp (hown _ _ b hb)).mp hgreen)

/-! ### Rows and columns -/

/-- The table has every row and every column once, and shows the red image for every
failure. -/
def Complete (r : MatrixRun w) : Prop :=
  ∃ t, r.table = .ok t ∧ t.serverKeys.Perm w.server ∧ t.clientKeys.Perm w.client ∧
    ∀ s ∈ w.server, ∀ c ∈ w.client, r.exitStatus (s, c) ≠ 0 →
      (t.cell s c).map Badge.resultChar = some failingImage

theorem Wired.complete_iff_source (hw : Wired w source) (r : MatrixRun w) :
    Complete r ↔
      (∀ s ∈ w.server, ∃ c ∈ w.client, r.exitStatus (source s, c) = 0) ∧
        (∀ c ∈ w.client, ∃ s ∈ w.server, r.exitStatus (source s, c) = 0) ∧
        ∀ s ∈ w.server, ∀ c ∈ w.client, r.exitStatus (s, c) ≠ 0 →
          r.exitStatus (source s, c) ≠ 0 := by
  obtain ⟨t, ht, htab⟩ := hw.table r
  refine ⟨?_, ?_⟩
  · intro ⟨t', ht', hservers, hclients, hred⟩
    obtain rfl : t = t' := Except.ok.inj (ht.symm.trans ht')
    refine ⟨fun s hs => ?_, fun c hc => ?_, fun s hs c hc hne h0 => ?_⟩
    · exact ((htab.mem_servers s).mp (hservers.mem_iff.mpr hs)).2
    · exact ((htab.mem_clients c).mp (hclients.mem_iff.mpr hc)).2
    · have hcell := map_resultChar_eq_failing.mp (hred s hs c hc hne)
      have hgreen := (htab.green s c .red hcell).mpr h0
      exact absurd hgreen (by decide)
  · intro ⟨hrows, hcols, hfail⟩
    have hservers : ∀ s, s ∈ t.serverKeys ↔ s ∈ w.server := fun s =>
      (htab.mem_servers s).trans (and_iff_left_of_imp (hrows s))
    have hclients : ∀ c, c ∈ t.clientKeys ↔ c ∈ w.client := fun c =>
      (htab.mem_clients c).trans (and_iff_left_of_imp (hcols c))
    refine ⟨t, ht, (List.perm_ext_iff_of_nodup htab.servers hw.server_nodup).mpr hservers,
      (List.perm_ext_iff_of_nodup htab.clients hw.client_nodup).mpr hclients, ?_⟩
    intro s hs c hc hne
    have hsome := (htab.cell_isSome s c).mpr ⟨(hservers s).mpr hs, (hclients c).mpr hc⟩
    obtain ⟨b, hb⟩ := Option.isSome_iff_exists.mp hsome
    cases b with
    | red => exact map_resultChar_eq_failing.mpr hb
    | green => exact absurd ((htab.green s c _ hb).mp rfl) (hfail s hs c hc hne)

/--
**When the results tables are complete.**

A row or a column is there only if one of its results is a success.  In the peer
connection table the row `webrtc-rs` repeats the results of `janus`, so it helps no
column, and it hides a failure of `webrtc-rs` against a client that passed against
`janus`.
-/
theorem complete_iff (r : MatrixRun peerConnectionTest) (r' : MatrixRun dataChannelEchoTest) :
    (Complete r ↔
      (∀ s ∈ peerConnectionTest.server, s ≠ "webrtc-rs" →
          ∃ c ∈ peerConnectionTest.client, r.exitStatus (s, c) = 0) ∧
        (∀ c ∈ peerConnectionTest.client,
          ∃ s ∈ peerConnectionTest.server, s ≠ "webrtc-rs" ∧ r.exitStatus (s, c) = 0) ∧
        ∀ c ∈ peerConnectionTest.client, r.exitStatus ("webrtc-rs", c) ≠ 0 →
          r.exitStatus ("janus", c) ≠ 0) ∧
    (Complete r' ↔
      (∀ s ∈ dataChannelEchoTest.server,
          ∃ c ∈ dataChannelEchoTest.client, r'.exitStatus (s, c) = 0) ∧
        ∀ c ∈ dataChannelEchoTest.client,
          ∃ s ∈ dataChannelEchoTest.server, r'.exitStatus (s, c) = 0) := by
  refine ⟨?_, ?_⟩
  · rw [peerConnection_wired.complete_iff_source]
    have hjanus : "janus" ∈ peerConnectionTest.server := by decide
    have hmem : "webrtc-rs" ∈ peerConnectionTest.server := by decide
    have hsrc : peerConnectionSource "webrtc-rs" = "janus" := by decide
    have hother : ∀ s, s ≠ "webrtc-rs" → peerConnectionSource s = s := fun s hs => if_neg hs
    refine and_congr ?_ (and_congr ?_ ?_)
    · refine ⟨?_, ?_⟩
      · intro h s hs hne
        exact hother s hne ▸ h s hs
      · intro h s hs
        by_cases hne : s = "webrtc-rs"
        · rw [hne, hsrc]
          exact h "janus" hjanus (by decide)
        · rw [hother s hne]
          exact h s hs hne
    · exact forall₂_congr fun c _ =>
        exists_peerConnectionSource (P := fun s => r.exitStatus (s, c) = 0)
    · refine ⟨?_, ?_⟩
      · intro h c hc hne
        exact hsrc ▸ h "webrtc-rs" hmem c hc hne
      · intro h s hs c hc hne
        by_cases hs' : s = "webrtc-rs"
        · rw [hs', hsrc]
          exact h c hc (hs' ▸ hne)
        · rwa [hother s hs']
  · rw [dataChannel_wired.complete_iff_source]
    simp only [id_eq, imp_self, implies_true, and_true]

/-- All tests of one server fail, and every other test passes. -/
def serverFails (w : Workflow) (server : String) : MatrixRun w where
  exitStatus := fun pair => if pair.1 = server then 1 else 0
  finished := w.matrix
  perm := List.Perm.refl _

/-- Such a server is not in the table. -/
theorem serverFails_not_complete :
    ¬ Complete (serverFails peerConnectionTest "gstreamer") ∧
      ¬ Complete (serverFails dataChannelEchoTest "werift") := by
  refine ⟨?_, ?_⟩
  · rw [peerConnection_wired.complete_iff_source]
    decide
  · rw [dataChannel_wired.complete_iff_source]
    decide

end WebrtcEchoes.Actions
