/-
The table the collating script prints.

For a dictionary all of whose keys have the form `result_<server>_<client>` with names
that contain no underscore, the script does not fail, and its table is determined by
the dictionary as a function: the columns are the client names in ascending order,
the rows the server names, and a cell is green exactly when the value of its own key
is `0`.  `TableOf` says this, and it does not mention the order of the entries.

The proof follows the first loop: `CollectedOK` describes the variables after the
entries read so far, and is kept by one more entry.
-/
import WebrtcEchoes.Actions.Collate
import Mathlib.Data.List.Induction
import Mathlib.Order.Defs.LinearOrder

namespace WebrtcEchoes.Collate

/-! ### Keys -/

/-- A name that cannot be torn apart by splitting a key. -/
def Plain (name : String) : Prop := '_' ∉ name.toList

instance (name : String) : Decidable (Plain name) := inferInstanceAs (Decidable (¬ _))

theorem splitKey_resultKey {s c : String} (hs : Plain s) (hc : Plain c) :
    splitKey (resultKey s c) = ["result", s, c] := by
  have hkey : (resultKey s c).toList =
      ['_'].intercalate ["result".toList, s.toList, c.toList] := by
    simp [resultKey, String.toList_append, List.intercalate, List.intersperse]
  have hsplit : (resultKey s c).toList.splitOn '_' = ["result".toList, s.toList, c.toList] := by
    rw [hkey]
    refine List.splitOn_intercalate '_' ?_ (by simp)
    intro l hl
    simp only [List.mem_cons, List.not_mem_nil, or_false] at hl
    rcases hl with rfl | rfl | rfl
    · decide
    · exact hs
    · exact hc
  simp [splitKey, hsplit]

theorem resultKey_inj {s c s' c' : String} (hs : Plain s) (hc : Plain c) (hs' : Plain s')
    (hc' : Plain c') (h : resultKey s c = resultKey s' c') : s = s' ∧ c = c' := by
  have hsplit : splitKey (resultKey s c) = splitKey (resultKey s' c') := by rw [h]
  rw [splitKey_resultKey hs hc, splitKey_resultKey hs' hc'] at hsplit
  simpa using hsplit

/-- Every key names a server and a client. -/
def WellKeyed (keys : List String) : Prop :=
  ∀ k ∈ keys, ∃ s c, Plain s ∧ Plain c ∧ k = resultKey s c

/-! ### The first loop -/

theorem addKey_nodup {keys : List String} (h : keys.Nodup) (k : String) :
    (addKey keys k).Nodup := by
  unfold addKey
  split
  · exact h
  · rename_i hk
    refine List.nodup_append.mpr ⟨h, List.nodup_singleton k, ?_⟩
    intro a ha b hb hab
    rw [List.mem_singleton] at hb
    exact hk (hb ▸ hab ▸ ha)

theorem mem_addKey {keys : List String} {k x : String} :
    x ∈ addKey keys k ↔ x ∈ keys ∨ x = k := by
  unfold addKey
  split
  · rename_i hk
    exact ⟨Or.inl, fun h => h.elim id fun hx => hx ▸ hk⟩
  · simp

/-- `results_dict[server][client]` -/
def Collected.get (acc : Collected) (server client : String) : Option String :=
  (acc.results server).lookup client

/-- What the variables hold after the entries `l`. -/
structure CollectedOK (l : List Entry) (acc : Collected) : Prop where
  servers : acc.serverKeys.Nodup
  clients : acc.clientKeys.Nodup
  mem_servers : ∀ s, s ∈ acc.serverKeys ↔ ∃ c, Plain s ∧ Plain c ∧ resultKey s c ∈ l.keys
  mem_clients : ∀ c, c ∈ acc.clientKeys ↔ ∃ s, Plain s ∧ Plain c ∧ resultKey s c ∈ l.keys
  get : ∀ s c v, Plain s → Plain c → (acc.get s c = some v ↔ ⟨resultKey s c, v⟩ ∈ l)

theorem record_resultKey (acc : Collected) {s c : String} (hs : Plain s) (hc : Plain c)
    (v : String) :
    record acc ⟨resultKey s c, v⟩ = .ok
      { resultsDict := acc.resultsDict.insert s ((acc.results s).insert c v)
        serverKeys := addKey acc.serverKeys s
        clientKeys := addKey acc.clientKeys c } := by
  simp [record, splitKey_resultKey hs hc]

/-- Writing one cell leaves the others alone. -/
theorem get_insert (acc : Collected) (s c v s' c' : String) (keys keys' : List String) :
    Collected.get
        { resultsDict := acc.resultsDict.insert s ((acc.results s).insert c v)
          serverKeys := keys
          clientKeys := keys' } s' c' =
      if s' = s ∧ c' = c then some v else acc.get s' c' := by
  unfold Collected.get Collected.results
  by_cases hs : s' = s
  · subst hs
    rw [AList.lookup_insert, Option.getD_some]
    by_cases hc : c' = c
    · subst hc
      rw [AList.lookup_insert, if_pos ⟨rfl, rfl⟩]
    · rw [AList.lookup_insert_ne hc, if_neg fun h => hc h.2]
  · rw [AList.lookup_insert_ne hs, if_neg fun h => hs h.1]

theorem keys_snoc (l : List Entry) (k v : String) :
    List.keys (l ++ [(⟨k, v⟩ : Entry)]) = l.keys ++ [k] := by
  simp [List.keys]

theorem collectedOK_record {l : List Entry} {acc : Collected}
    (h : CollectedOK l acc) {s c v : String} (hs : Plain s) (hc : Plain c)
    (hnew : resultKey s c ∉ l.keys) :
    CollectedOK (l ++ [⟨resultKey s c, v⟩])
      { resultsDict := acc.resultsDict.insert s ((acc.results s).insert c v)
        serverKeys := addKey acc.serverKeys s
        clientKeys := addKey acc.clientKeys c } := by
  have hkeys := keys_snoc l (resultKey s c) v
  refine ⟨addKey_nodup h.servers s, addKey_nodup h.clients c, ?_, ?_, ?_⟩
  · intro s'
    rw [hkeys]
    simp only [mem_addKey, h.mem_servers, List.mem_append, List.mem_singleton]
    refine ⟨?_, ?_⟩
    · rintro (⟨c', hs', hc', hmem⟩ | rfl)
      · exact ⟨c', hs', hc', Or.inl hmem⟩
      · exact ⟨c, hs, hc, Or.inr rfl⟩
    · rintro ⟨c', hs', hc', hmem | heq⟩
      · exact Or.inl ⟨c', hs', hc', hmem⟩
      · exact Or.inr (resultKey_inj hs' hc' hs hc heq).1
  · intro c'
    rw [hkeys]
    simp only [mem_addKey, h.mem_clients, List.mem_append, List.mem_singleton]
    refine ⟨?_, ?_⟩
    · rintro (⟨s', hs', hc', hmem⟩ | rfl)
      · exact ⟨s', hs', hc', Or.inl hmem⟩
      · exact ⟨s, hs, hc, Or.inr rfl⟩
    · rintro ⟨s', hs', hc', hmem | heq⟩
      · exact Or.inl ⟨s', hs', hc', hmem⟩
      · exact Or.inr (resultKey_inj hs' hc' hs hc heq).2
  · intro s' c' v' hs' hc'
    rw [get_insert, List.mem_append, List.mem_singleton]
    by_cases heq : s' = s ∧ c' = c
    · obtain ⟨rfl, rfl⟩ := heq
      have hnot : (⟨resultKey s' c', v'⟩ : Entry) ∉ l := fun hin =>
        hnew (List.mem_keys_of_mem hin)
      simp [hnot, eq_comm]
    · rw [if_neg heq, h.get s' c' v' hs' hc']
      refine (or_iff_left ?_).symm
      intro hsig
      exact heq (resultKey_inj hs' hc' hs hc (Sigma.mk.inj hsig).1)

/-- The first loop over well-formed entries does not fail. -/
theorem foldlM_record (l : List Entry) (hnd : l.NodupKeys)
    (hk : WellKeyed l.keys) :
    ∃ acc, l.foldlM record { resultsDict := ∅, serverKeys := [], clientKeys := [] } = .ok acc ∧
      CollectedOK l acc := by
  induction l using List.reverseRecOn with
  | nil =>
      refine ⟨_, rfl, List.nodup_nil, List.nodup_nil, ?_, ?_, ?_⟩
      · simp
      · simp
      · simp [Collected.get, Collected.results]
  | append_singleton l entry ih =>
      obtain ⟨key, v⟩ := entry
      have hkeys := keys_snoc l key v
      rw [List.NodupKeys, hkeys, List.nodup_append] at hnd
      obtain ⟨hndl, -, hdisj⟩ := hnd
      obtain ⟨acc, hacc, hok⟩ := ih hndl fun k hkl => hk k (by simp [hkeys, hkl])
      obtain ⟨s, c, hs, hc, rfl⟩ := hk key (by simp [hkeys])
      have hnew : resultKey s c ∉ l.keys := fun hin => hdisj _ hin _ (by simp) rfl
      refine ⟨_, ?_, collectedOK_record hok (v := v) hs hc hnew⟩
      rw [List.foldlM_append, hacc]
      show List.foldlM record acc [⟨resultKey s c, v⟩] = _
      rw [List.foldlM_cons, record_resultKey acc hs hc]
      rfl

/-! ### The table -/

theorem mem_sortKeys {keys : List String} {k : String} : k ∈ sortKeys keys ↔ k ∈ keys :=
  List.mem_mergeSort

theorem sortKeys_nodup {keys : List String} (h : keys.Nodup) : (sortKeys keys).Nodup :=
  (List.mergeSort_perm keys _).nodup_iff.mpr h

/-- Sorted keys without duplicates ascend strictly. -/
theorem sortKeys_sorted {keys : List String} (h : keys.Nodup) :
    (sortKeys keys).Pairwise (· < ·) := by
  have hle : (sortKeys keys).Pairwise fun a b => decide (a ≤ b) = true := by
    refine List.pairwise_mergeSort ?_ ?_ keys
    · intro a b c hab hbc
      simp only [decide_eq_true_eq] at hab hbc ⊢
      exact le_trans hab hbc
    · intro a b
      simp only [Bool.or_eq_true, decide_eq_true_eq]
      exact le_total a b
  refine (hle.and (sortKeys_nodup h)).imp ?_
  intro a b ⟨hab, hne⟩
  exact lt_of_le_of_ne (by simpa using hab) hne

theorem lookup_map_self {β : Type} (f : String → β) (k : String) :
    ∀ keys : List String, (keys.map fun x => (x, f x)).lookup k =
      if k ∈ keys then some (f k) else none := by
  intro keys
  induction keys with
  | nil => rfl
  | cons x rest ih =>
      rw [List.map_cons, List.lookup_cons, ih]
      by_cases hx : k = x
      · subst hx; simp
      · have hbeq : (k == x) = false := by simpa using hx
        simp [hbeq, hx]

theorem table_serverKeys (acc : Collected) :
    acc.table.serverKeys = sortKeys acc.serverKeys := by
  simp [Collected.table, Table.serverKeys, Function.comp_def]

/-- A cell of the table is there when its row and its column are. -/
theorem table_cell (acc : Collected) (s c : String) :
    acc.table.cell s c =
      if s ∈ acc.serverKeys ∧ c ∈ acc.clientKeys then some (badge acc s c) else none := by
  unfold Table.cell Collected.table
  rw [lookup_map_self]
  by_cases hs : s ∈ acc.serverKeys
  · rw [if_pos (mem_sortKeys.mpr hs)]
    show ((sortKeys acc.clientKeys).zip ((sortKeys acc.clientKeys).map (badge acc s))).lookup c = _
    rw [← List.map_prod_left_eq_zip, lookup_map_self]
    simp [mem_sortKeys, hs]
  · rw [if_neg fun h => hs (mem_sortKeys.mp h), if_neg fun h => hs h.1]
    rfl

theorem badge_eq_green {acc : Collected} {s c : String} :
    badge acc s c = .green ↔ acc.get s c = some "0" := by
  unfold badge Collected.get
  cases (acc.results s).lookup c with
  | none => simp
  | some v => by_cases hv : v = "0" <;> simp [hv]

/-! ### The images -/

/-- The image of a passing pair, as a reader of the tables sees it. -/
def passingImage : String :=
  "![https://img.shields.io/badge/-✔-green](https://img.shields.io/badge/-✔-green)"

/-- The image of a failing pair. -/
def failingImage : String :=
  "![https://img.shields.io/badge/-✘-red](https://img.shields.io/badge/-✘-red)"

theorem Badge.resultChar_green : Badge.green.resultChar = passingImage := by decide +kernel

theorem Badge.resultChar_red : Badge.red.resultChar = failingImage := by decide +kernel

theorem passingImage_ne_failingImage : passingImage ≠ failingImage := by decide +kernel

theorem Badge.resultChar_eq_passing {b : Badge} : b.resultChar = passingImage ↔ b = .green := by
  cases b with
  | green => exact iff_of_true resultChar_green rfl
  | red =>
      refine iff_of_false (fun h => ?_) (by decide)
      exact passingImage_ne_failingImage (h.symm.trans resultChar_red)

theorem Badge.resultChar_eq_failing {b : Badge} : b.resultChar = failingImage ↔ b = .red := by
  cases b with
  | green =>
      refine iff_of_false (fun h => ?_) (by decide)
      exact passingImage_ne_failingImage (resultChar_green.symm.trans h)
  | red => exact iff_of_true resultChar_red rfl

/-- The image that tells whether something holds. -/
theorem Badge.resultChar_eq_ite {b : Badge} {p : Prop} [Decidable p] :
    b.resultChar = (if p then passingImage else failingImage) ↔ (b = .green ↔ p) := by
  by_cases h : p
  · rw [if_pos h, resultChar_eq_passing, iff_true_right h]
  · rw [if_neg h, resultChar_eq_failing, iff_false_right h]
    cases b with
    | green => decide
    | red => decide

theorem ite_green_iff {p : Prop} [Decidable p] :
    (if p then Badge.green else .red) = .green ↔ p := by
  split
  · exact iff_of_true rfl ‹p›
  · exact iff_of_false (by decide) ‹¬p›

theorem ite_red_iff {p : Prop} [Decidable p] : (if p then Badge.green else .red) = .red ↔ ¬ p := by
  split
  · exact iff_of_false (by decide) (not_not_intro ‹p›)
  · exact iff_of_true rfl ‹¬p›

theorem map_resultChar_eq_failing {cell : Option Badge} :
    cell.map Badge.resultChar = some failingImage ↔ cell = some .red := by
  simp [Option.map_eq_some_iff, Badge.resultChar_eq_failing]

/-- The table belongs to the dictionary, whatever the order of its entries. -/
structure TableOf (results : Dict String) (t : Table) : Prop where
  servers : t.serverKeys.Pairwise (· < ·)
  clients : t.clientKeys.Pairwise (· < ·)
  mem_servers : ∀ s, s ∈ t.serverKeys ↔ ∃ c, Plain s ∧ Plain c ∧ resultKey s c ∈ results
  mem_clients : ∀ c, c ∈ t.clientKeys ↔ ∃ s, Plain s ∧ Plain c ∧ resultKey s c ∈ results
  /-- There is a cell for every row and column, and no other. -/
  cell_isSome : ∀ s c, (t.cell s c).isSome ↔ s ∈ t.serverKeys ∧ c ∈ t.clientKeys
  /-- A cell is green just when its own key has the value `0`. -/
  green : ∀ s c b, t.cell s c = some b → (b = .green ↔ results.lookup (resultKey s c) = some "0")

/-- **The script prints the table of a dictionary with well-formed keys.** -/
theorem collate_tableOf (results : Dict String) (hk : WellKeyed results.keys) :
    ∃ t, collate results = .ok t ∧ TableOf results t := by
  obtain ⟨acc, hacc, hok⟩ := foldlM_record results.entries results.nodupKeys hk
  have hcollect : collate results = .ok acc.table := by
    unfold collate collect
    rw [hacc]
    rfl
  have hplain : ∀ s c, s ∈ acc.serverKeys → c ∈ acc.clientKeys → Plain s ∧ Plain c := by
    intro s c hs hc
    obtain ⟨-, hps, -, -⟩ := (hok.mem_servers s).mp hs
    obtain ⟨-, -, hpc, -⟩ := (hok.mem_clients c).mp hc
    exact ⟨hps, hpc⟩
  refine ⟨acc.table, hcollect, ?_, sortKeys_sorted hok.clients, ?_, ?_, ?_, ?_⟩
  · rw [table_serverKeys]
    exact sortKeys_sorted hok.servers
  · intro s
    rw [table_serverKeys, mem_sortKeys]
    exact hok.mem_servers s
  · intro c
    exact mem_sortKeys.trans (hok.mem_clients c)
  · intro s c
    rw [table_cell, table_serverKeys, mem_sortKeys]
    show _ ↔ _ ∧ c ∈ sortKeys acc.clientKeys
    rw [mem_sortKeys]
    by_cases h : s ∈ acc.serverKeys ∧ c ∈ acc.clientKeys <;> simp [h]
  · intro s c b hcell
    rw [table_cell] at hcell
    by_cases h : s ∈ acc.serverKeys ∧ c ∈ acc.clientKeys
    · rw [if_pos h] at hcell
      obtain ⟨hps, hpc⟩ := hplain s c h.1 h.2
      rw [← Option.some.inj hcell, badge_eq_green, hok.get s c "0" hps hpc]
      exact (AList.mem_lookup_iff (s := results)).symm
    · rw [if_neg h] at hcell
      simp at hcell

end WebrtcEchoes.Collate
