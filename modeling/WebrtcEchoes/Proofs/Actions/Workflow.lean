/-
From the exit status of every client to the badges of the table.

A workflow whose declared outputs are wired by a function `source` publishes the key
of a pair `(s, c)` exactly when the job of `(source s, c)` succeeded, always with the
value `0`: a job that failed leaves `TEST_RESULT` unset, and an empty output is not
published.  So the rows and columns of the table are the ones with a success, and
every badge tells about the job it is wired to.

The data channel workflow is wired by the identity.  The peer connection workflow is
not: the six outputs for the server `webrtc-rs` read the outputs of the server
`janus`.
-/
import WebrtcEchoes.Actions.Workflow
import WebrtcEchoes.Proofs.Actions.Collate

namespace WebrtcEchoes.Actions

open WebrtcEchoes.Collate

variable {w : Workflow}

theorem mem_matrix {s c : String} : (s, c) ∈ w.matrix ↔ s ∈ w.server ∧ c ∈ w.client := by
  simp [Workflow.matrix]

/-! ### One job -/

/-- A declared output of a job that succeeded has the value `0` if its source is the
key of the job's own pair; every other output is empty. -/
theorem outputOf_setOutput (pair : String × String) (exitStatus : Nat) (source : String) :
    outputOf (setOutput pair (checkConnection exitStatus)) source =
      if source = resultKey pair.1 pair.2 ∧ exitStatus = 0 then "0" else "" := by
  by_cases h0 : exitStatus = 0
  · subst h0
    have hzero : outputOf (checkConnection 0) "TEST_RESULT" = "0" := by decide
    by_cases hsrc : source = resultKey pair.1 pair.2
    · simp [outputOf, setOutput, hsrc, ← hzero]
    · have hbeq : (source == resultKey pair.1 pair.2) = false := by simpa using hsrc
      simp [outputOf, setOutput, List.lookup_cons, hbeq, hsrc]
  · have hempty : outputOf (checkConnection exitStatus) "TEST_RESULT" = "" := by
      simp [outputOf, checkConnection, h0]
    rw [if_neg fun h => h0 h.2]
    unfold setOutput
    rw [hempty]
    by_cases hsrc : source = resultKey pair.1 pair.2
    · simp [outputOf, hsrc]
    · have hbeq : (source == resultKey pair.1 pair.2) = false := by simpa using hsrc
      simp [outputOf, List.lookup_cons, hbeq]

/-- The outputs of a job are empty or `0`. -/
theorem jobOutputs_value {pair : String × String} {exitStatus : Nat} {name value : String}
    (h : (name, value) ∈ w.jobOutputs pair exitStatus) : value = "" ∨ value = "0" := by
  simp only [Workflow.jobOutputs, List.mem_map, Prod.exists, Prod.mk.injEq] at h
  obtain ⟨n, source, -, -, rfl⟩ := h
  rw [outputOf_setOutput]
  split
  · exact Or.inr rfl
  · exact Or.inl rfl

/-- A job publishes an output just when it succeeded and the output is wired to its pair. -/
theorem mem_jobOutputs_zero {pair : String × String} {exitStatus : Nat} {name : String} :
    (name, "0") ∈ w.jobOutputs pair exitStatus ↔
      exitStatus = 0 ∧ (name, resultKey pair.1 pair.2) ∈ w.outputs := by
  simp only [Workflow.jobOutputs, List.mem_map, Prod.exists, Prod.mk.injEq, outputOf_setOutput]
  refine ⟨?_, ?_⟩
  · rintro ⟨n, source, hmem, rfl, hval⟩
    by_cases h : source = resultKey pair.1 pair.2 ∧ exitStatus = 0
    · exact ⟨h.2, h.1 ▸ hmem⟩
    · rw [if_neg h] at hval
      exact absurd hval (by decide)
  · intro ⟨h0, hmem⟩
    exact ⟨name, _, hmem, rfl, by simp [h0]⟩

/-! ### All jobs -/

/-- Merging outputs that are empty or `0`. -/
theorem lookup_publish (name : String) :
    ∀ (outputs : List (String × String)) (acc : Dict String),
      (∀ p ∈ outputs, p.2 = "" ∨ p.2 = "0") →
      (publish acc outputs).lookup name =
        if (name, "0") ∈ outputs then some "0" else acc.lookup name := by
  intro outputs
  induction outputs with
  | nil => intro acc _; simp [publish]
  | cons p rest ih =>
      intro acc h
      obtain ⟨n, value⟩ := p
      have hrest := fun q hq => h q (List.mem_cons_of_mem _ hq)
      show (publish (if value = "" then acc else acc.insert n value) rest).lookup name = _
      rw [ih _ hrest]
      by_cases hin : (name, "0") ∈ rest
      · rw [if_pos hin, if_pos (List.mem_cons_of_mem _ hin)]
      · rw [if_neg hin]
        rcases h (n, value) (by simp) with hv | hv <;> simp only at hv <;> subst hv
        · have hne : ¬ (name, "0") ∈ (n, "") :: rest := by simp [hin]
          rw [if_pos rfl, if_neg hne]
        · rw [if_neg (by decide)]
          by_cases hn : name = n
          · subst hn
            rw [AList.lookup_insert, if_pos (by simp)]
          · rw [AList.lookup_insert_ne hn, if_neg (by simp [hn, hin])]

theorem lookup_foldl_publish (exitStatus : String × String → Nat) (name : String) :
    ∀ (finished : List (String × String)) (acc : Dict String),
      (finished.foldl (fun acc pair => publish acc (w.jobOutputs pair (exitStatus pair)))
          acc).lookup name =
        if ∃ pair ∈ finished, exitStatus pair = 0 ∧ (name, resultKey pair.1 pair.2) ∈ w.outputs
        then some "0" else acc.lookup name := by
  intro finished
  induction finished with
  | nil => intro acc; simp
  | cons pair rest ih =>
      intro acc
      rw [List.foldl_cons, ih, lookup_publish name _ _ fun p hp => jobOutputs_value hp]
      simp only [mem_jobOutputs_zero, List.exists_mem_cons_iff]
      split
      · rename_i h
        rw [if_pos (Or.inr h)]
      · rename_i h
        simp only [h, or_false]

/-- **What the jobs publish does not depend on the order in which they finish.** -/
theorem lookup_outputs (r : MatrixRun w) (name : String) :
    r.outputs.lookup name =
      if ∃ pair ∈ w.matrix, r.exitStatus pair = 0 ∧ (name, resultKey pair.1 pair.2) ∈ w.outputs
      then some "0" else none := by
  unfold MatrixRun.outputs
  rw [lookup_foldl_publish]
  simp only [r.perm.mem_iff, AList.lookup_empty]

/-! ### Wired workflows -/

/-- The declared outputs name every pair of the matrix, and the output of a pair reads
the result of the same client against the server `source` gives. -/
structure Wired (w : Workflow) (source : String → String) : Prop where
  outputs : w.outputs = w.matrix.map fun p => (resultKey p.1 p.2, resultKey (source p.1) p.2)
  source_mem : ∀ s ∈ w.server, source s ∈ w.server
  server_plain : ∀ s ∈ w.server, Plain s
  client_plain : ∀ c ∈ w.client, Plain c
  server_nodup : w.server.Nodup
  client_nodup : w.client.Nodup

namespace Wired

variable {source : String → String} (hw : Wired w source)

include hw in
/-- The key of a pair is published just when the job it is wired to succeeded. -/
theorem lookup_resultKey (r : MatrixRun w) {s c : String} (hs : Plain s) (hc : Plain c) :
    r.outputs.lookup (resultKey s c) =
      if s ∈ w.server ∧ c ∈ w.client ∧ r.exitStatus (source s, c) = 0 then some "0"
      else none := by
  rw [lookup_outputs]
  refine if_congr ?_ rfl rfl
  rw [hw.outputs]
  simp only [List.mem_map, Prod.exists, Prod.mk.injEq, mem_matrix]
  refine ⟨?_, ?_⟩
  · intro ⟨s₁, c₁, ⟨hs₁, hc₁⟩, h0, s₂, c₂, ⟨hs₂, hc₂⟩, hkey, hsrc⟩
    obtain ⟨rfl, rfl⟩ := resultKey_inj (hw.server_plain _ hs₂) (hw.client_plain _ hc₂) hs hc hkey
    obtain ⟨rfl, rfl⟩ := resultKey_inj (hw.server_plain _ (hw.source_mem _ hs₂))
      (hw.client_plain _ hc₂) (hw.server_plain _ hs₁) (hw.client_plain _ hc₁) hsrc
    exact ⟨hs₂, hc₂, h0⟩
  · intro ⟨hs', hc', h0⟩
    exact ⟨source s, c, ⟨hw.source_mem s hs', hc'⟩, h0, s, c, ⟨hs', hc'⟩, rfl, rfl⟩

include hw in
theorem wellKeyed (r : MatrixRun w) : WellKeyed r.outputs.keys := by
  intro k hk
  have hsome := AList.lookup_isSome.mpr (AList.mem_keys.mpr hk)
  rw [lookup_outputs] at hsome
  split at hsome
  · rename_i h
    obtain ⟨pair, -, -, hmem⟩ := h
    rw [hw.outputs] at hmem
    obtain ⟨⟨s, c⟩, hsc, heq⟩ := List.mem_map.mp hmem
    obtain ⟨hs, hc⟩ := mem_matrix.mp hsc
    exact ⟨s, c, hw.server_plain s hs, hw.client_plain c hc, (Prod.mk.inj heq).1.symm⟩
  · simp at hsome

include hw in
theorem mem_outputs (r : MatrixRun w) {s c : String} (hs : Plain s) (hc : Plain c) :
    resultKey s c ∈ r.outputs ↔
      s ∈ w.server ∧ c ∈ w.client ∧ r.exitStatus (source s, c) = 0 := by
  rw [← AList.lookup_isSome, hw.lookup_resultKey r hs hc]
  split
  · rename_i h
    simpa using h
  · rename_i h
    simpa using h

include hw in
/-- The servers in the published keys. -/
theorem exists_client (r : MatrixRun w) (s : String) :
    (∃ c, Plain s ∧ Plain c ∧ resultKey s c ∈ r.outputs) ↔
      s ∈ w.server ∧ ∃ c ∈ w.client, r.exitStatus (source s, c) = 0 := by
  refine ⟨?_, ?_⟩
  · intro ⟨c, hs, hc, hin⟩
    obtain ⟨hs', hc', h0⟩ := (hw.mem_outputs r hs hc).mp hin
    exact ⟨hs', c, hc', h0⟩
  · intro ⟨hs', c, hc', h0⟩
    have hs := hw.server_plain s hs'
    have hc := hw.client_plain c hc'
    exact ⟨c, hs, hc, (hw.mem_outputs r hs hc).mpr ⟨hs', hc', h0⟩⟩

include hw in
/-- The clients in the published keys. -/
theorem exists_server (r : MatrixRun w) (c : String) :
    (∃ s, Plain s ∧ Plain c ∧ resultKey s c ∈ r.outputs) ↔
      c ∈ w.client ∧ ∃ s ∈ w.server, r.exitStatus (source s, c) = 0 := by
  refine ⟨?_, ?_⟩
  · intro ⟨s, hs, hc, hin⟩
    obtain ⟨hs', hc', h0⟩ := (hw.mem_outputs r hs hc).mp hin
    exact ⟨hc', s, hs', h0⟩
  · intro ⟨hc', s, hs', h0⟩
    have hs := hw.server_plain s hs'
    have hc := hw.client_plain c hc'
    exact ⟨s, hs, hc, (hw.mem_outputs r hs hc).mpr ⟨hs', hc', h0⟩⟩

end Wired

/-- The table of a run: which rows and columns it has, and what its badges say. -/
structure TableOfRun (source : String → String) (r : MatrixRun w) (t : Table) : Prop where
  servers : t.serverKeys.Nodup
  clients : t.clientKeys.Nodup
  mem_servers : ∀ s, s ∈ t.serverKeys ↔
    s ∈ w.server ∧ ∃ c ∈ w.client, r.exitStatus (source s, c) = 0
  mem_clients : ∀ c, c ∈ t.clientKeys ↔
    c ∈ w.client ∧ ∃ s ∈ w.server, r.exitStatus (source s, c) = 0
  cell_isSome : ∀ s c, (t.cell s c).isSome ↔ s ∈ t.serverKeys ∧ c ∈ t.clientKeys
  green : ∀ s c b, t.cell s c = some b → (b = .green ↔ r.exitStatus (source s, c) = 0)

/-- **The `collate` job always prints a table, and this is it.** -/
theorem Wired.table {source : String → String} (hw : Wired w source) (r : MatrixRun w) :
    ∃ t, r.table = .ok t ∧ TableOfRun source r t := by
  obtain ⟨t, ht, htab⟩ := collate_tableOf r.outputs (hw.wellKeyed r)
  have hservers : ∀ s, s ∈ t.serverKeys ↔
      s ∈ w.server ∧ ∃ c ∈ w.client, r.exitStatus (source s, c) = 0 := by
    intro s
    rw [htab.mem_servers]
    exact hw.exists_client r s
  have hclients : ∀ c, c ∈ t.clientKeys ↔
      c ∈ w.client ∧ ∃ s ∈ w.server, r.exitStatus (source s, c) = 0 := by
    intro c
    rw [htab.mem_clients]
    exact hw.exists_server r c
  refine ⟨t, ht, htab.servers.imp ne_of_lt, htab.clients.imp ne_of_lt, hservers, hclients,
    htab.cell_isSome, ?_⟩
  intro s c b hcell
  obtain ⟨hs, hc⟩ := (htab.cell_isSome s c).mp (by simp [hcell])
  obtain ⟨hs', -⟩ := (hservers s).mp hs
  obtain ⟨hc', -⟩ := (hclients c).mp hc
  rw [htab.green s c b hcell,
    hw.lookup_resultKey r (hw.server_plain s hs') (hw.client_plain c hc')]
  split
  · rename_i h; simpa using h.2.2
  · rename_i h
    simp only [hs', hc', true_and] at h
    simpa using h

/-! ### The two workflow files -/

/-- Where the peer connection workflow takes the result of a server from. -/
def peerConnectionSource (server : String) : String :=
  if server = "webrtc-rs" then "janus" else server

theorem peerConnection_wired : Wired peerConnectionTest peerConnectionSource where
  outputs := by decide +kernel
  source_mem := by decide
  server_plain := by decide
  client_plain := by decide
  server_nodup := by decide
  client_nodup := by decide

theorem dataChannel_wired : Wired dataChannelEchoTest id where
  outputs := by decide +kernel
  source_mem := by decide
  server_plain := by decide
  client_plain := by decide
  server_nodup := by decide
  client_nodup := by decide

end WebrtcEchoes.Actions
