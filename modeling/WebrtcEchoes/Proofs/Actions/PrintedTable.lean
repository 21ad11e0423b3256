/-
What can be read back from the printed table.

A line of the table is a bar, and behind it the cells, each closed by a bar.  Names
without bars and blanks and the two images can be told apart in it, so a reader of the
printed lines who knows the images gets the columns, the rows, the passing and the failing
pairs, and nothing of the order in which the results came.
-/
import WebrtcEchoes.Lib.Lines
import WebrtcEchoes.Proofs.Actions.Collate
import Mathlib.Data.List.Sort

namespace WebrtcEchoes.Collate

open WebrtcEchoes.Lines

/-! ### A reader of the printed lines -/

/-- The cells of a line, without the padding. -/
def readCells (line : String) : List String :=
  ((line.toList.splitOn '|').map fun cell => String.ofList (cell.filter (· ≠ ' '))).tail.dropLast

/-- What the printed table says. -/
structure Reading where
  clients : List String
  servers : List String
  passing : List (String × String)
  failing : List (String × String)
  deriving DecidableEq, Repr

/-- The pairs of a row that show an image. -/
def readRow (image : String) (clients : List String) (cells : List String) :
    List (String × String) :=
  match cells with
  | [] => []
  | server :: images =>
      ((clients.zip images).filter fun cell => cell.2 = image).map fun cell => (server, cell.1)

/-- Read the lines that the script prints: two in front of the header, and one below it. -/
def readTable : List String → Option Reading
  | _ :: _ :: header :: _ :: rows =>
      let clients := (readCells header).tail
      some
        { clients := clients
          servers := rows.filterMap fun row => (readCells row).head?
          passing := rows.flatMap fun row => readRow passingImage clients (readCells row)
          failing := rows.flatMap fun row => readRow failingImage clients (readCells row) }
  | _ => none

/-! ### The cells of a printed line -/

/-- A text that fills a cell of its own. -/
structure Cell (text : String) : Prop where
  noBar : '|' ∉ text.toList
  noBlank : ' ' ∉ text.toList

theorem filter_blank {text : String} (h : ' ' ∉ text.toList) :
    text.toList.filter (· ≠ ' ') = text.toList := by
  refine List.filter_eq_self.mpr fun c hc => ?_
  have hne : c ≠ ' ' := fun heq => h (heq ▸ hc)
  simpa using hne

theorem Badge.resultChar_cell (b : Badge) : Cell b.resultChar := by
  cases b with
  | green => exact ⟨by decide +kernel, by decide +kernel⟩
  | red => exact ⟨by decide +kernel, by decide +kernel⟩

/-- A padded cell, as it stands between two bars. -/
def padded (text : String) (right : Nat) : List Char :=
  ' ' :: (text.toList ++ List.replicate right ' ')

theorem padded_noBar {text : String} (h : Cell text) (right : Nat) : '|' ∉ padded text right := by
  have hrep : '|' ∉ List.replicate right ' ' := by simp
  simp [padded, h.noBar, hrep]

theorem padded_filter {text : String} (h : Cell text) (right : Nat) :
    String.ofList ((padded text right).filter (· ≠ ' ')) = text := by
  have hrep : (List.replicate right ' ').filter (· ≠ ' ') = [] := by simp
  have hfilter : (padded text right).filter (· ≠ ' ') = text.toList := by
    rw [padded, List.filter_cons_of_neg (by simp), List.filter_append, filter_blank h.noBlank, hrep,
      List.append_nil]
  rw [hfilter, String.ofList_toList]

/-- Reading a line of padded cells gives their texts. -/
theorem readCells_of_toList {line : String} {cells : List (String × Nat)}
    (hcells : ∀ cell ∈ cells, Cell cell.1)
    (hline : line.toList = '|' :: terminate '|' (cells.map fun cell => padded cell.1 cell.2)) :
    readCells line = cells.map Prod.fst := by
  have hbars : ∀ l ∈ cells.map (fun cell => padded cell.1 cell.2), '|' ∉ l := by
    intro l hl
    obtain ⟨cell, hmem, rfl⟩ := List.mem_map.mp hl
    exact padded_noBar (hcells cell hmem) _
  have hsplit : line.toList.splitOn '|' =
      [] :: (cells.map (fun cell => padded cell.1 cell.2) ++ [[]]) := by
    rw [hline, ← List.nil_append ('|' :: _), List.splitOn_append_cons_self_of_not_mem (by simp),
      splitOn_terminate hbars]
  have hread : ∀ cell ∈ cells,
      String.ofList ((padded cell.1 cell.2).filter (· ≠ ' ')) = cell.1 :=
    fun cell hmem => padded_filter (hcells cell hmem) _
  rw [readCells, hsplit]
  simp only [List.map_cons, List.map_append, List.map_map, List.map_nil, List.tail_cons,
    List.dropLast_concat]
  exact List.map_congr_left hread

/-- The bar in front of a cell and the bar behind it. -/
theorem cons_terminate {α : Type} (bar : α) (cells : List (List α)) :
    bar :: terminate bar cells = cells.flatMap (fun cell => bar :: cell) ++ [bar] := by
  induction cells with
  | nil => rfl
  | cons cell rest ih =>
      have hstep : terminate bar (cell :: rest) = cell ++ bar :: terminate bar rest := by
        simp [terminate]
      rw [hstep, ih, List.flatMap_cons, List.cons_append, List.cons_append, List.append_assoc]

theorem rowLine_toList (row : String × List Badge) :
    (rowLine row).toList = '|' :: terminate '|'
      (((row.1, 12 - row.1.length + 1) :: row.2.map fun b => (b.resultChar, 1)).map fun cell =>
        padded cell.1 cell.2) := by
  have hbadges : (String.join (row.2.map fun b => "| " ++ b.resultChar ++ " ")).toList =
      (row.2.map fun b => padded b.resultChar 1).flatMap fun cell => '|' :: cell := by
    rw [String.toList_join, List.flatMap_map, List.flatMap_map]
    refine List.flatMap_congr fun b _ => ?_
    simp [padded]
  rw [cons_terminate, rowLine]
  simp only [String.toList_append, hbadges, ljust12, String.toList_ofList, List.map_cons,
    List.map_map, List.flatMap_cons, Function.comp_def]
  simp [padded, List.replicate_succ']

theorem intercalate_bars (name : String) (names : List String) :
    ' ' :: (" | ".intercalate (name :: names)).toList ++ " |".toList =
      terminate '|' ((name :: names).map fun n => padded n 1) := by
  rw [String.toList_intercalate]
  induction names generalizing name with
  | nil => simp [terminate, padded, List.intercalate]
  | cons next rest ih =>
      have hstep : terminate '|' ((name :: next :: rest).map fun n => padded n 1) =
          padded name 1 ++ '|' :: terminate '|' ((next :: rest).map fun n => padded n 1) := by
        simp [terminate]
      rw [hstep, ← ih next]
      simp [padded, List.intercalate]

theorem headerLine_toList (t : Table) (h : t.clientKeys ≠ []) :
    t.headerLine.toList = '|' :: terminate '|'
      ((("Server", 7) :: t.clientKeys.map fun c => (c, 1)).map fun cell =>
        padded cell.1 cell.2) := by
  obtain ⟨name, names, hnames⟩ := List.exists_cons_of_ne_nil h
  have hbars := intercalate_bars name names
  have hstep : terminate '|' ((("Server", 7) :: t.clientKeys.map fun c => (c, 1)).map fun cell =>
        padded cell.1 cell.2) =
      padded "Server" 7 ++ '|' :: terminate '|' ((name :: names).map fun n => padded n 1) := by
    simp [terminate, hnames, Function.comp_def]
  have hserver : (ljust12 "Server").toList = "Server".toList ++ List.replicate 6 ' ' := by
    decide +kernel
  rw [hstep, ← hbars, Table.headerLine, hnames]
  simp [hserver, padded, List.replicate_succ]

/-! ### The table -/

variable {results results' : Dict String} {t : Table}

/-- The rows of the table, cell by cell. -/
theorem collate_rows (h : collate results = .ok t)
    (htab : TableOf results t) :
    t.rows = t.serverKeys.map fun s => (s, t.clientKeys.map fun c =>
      if results.lookup (resultKey s c) = some "0" then Badge.green else .red) := by
  obtain ⟨acc, -, rfl⟩ : ∃ acc, collect results = .ok acc ∧ acc.table = t := by
    unfold collate at h
    cases hcollect : collect results with
    | error e => simp [hcollect, Except.map] at h
    | ok acc => exact ⟨acc, rfl, by simpa [hcollect, Except.map] using h⟩
  have hbadge : ∀ s ∈ acc.table.serverKeys, ∀ c ∈ acc.table.clientKeys,
      badge acc s c = if results.lookup (resultKey s c) = some "0" then Badge.green else .red := by
    intro s hs c hc
    have hcell : acc.table.cell s c = some (badge acc s c) := by
      rw [table_cell, if_pos]
      rw [table_serverKeys] at hs
      exact ⟨mem_sortKeys.mp hs, mem_sortKeys.mp hc⟩
    have hgreen := htab.green s c _ hcell
    cases hb : badge acc s c with
    | green => rw [if_pos (hgreen.mp hb)]
    | red =>
        rw [if_neg]
        intro h0
        rw [hgreen.mpr h0] at hb
        exact absurd hb (by decide)
  show (sortKeys acc.serverKeys).map _ = _
  rw [← table_serverKeys]
  refine List.map_congr_left fun s hs => ?_
  exact congrArg (Prod.mk s) (List.map_congr_left fun c hc => hbadge s hs c hc)

/-- A name without underscores, bars and blanks. -/
structure Name (name : String) : Prop where
  plain : Plain name
  noBar : '|' ∉ name.toList
  noBlank : ∀ c ∈ name.toList, c.isWhitespace = false

theorem Name.cell {name : String} (h : Name name) : Cell name where
  noBar := h.noBar
  noBlank := fun hmem => absurd (h.noBlank ' ' hmem) (by decide)

/-- Every key is made of two names. -/
def NamedKeys (results : Dict String) : Prop :=
  ∀ k ∈ results.keys, ∃ s c, Name s ∧ Name c ∧ k = resultKey s c

theorem NamedKeys.wellKeyed (h : NamedKeys results) : WellKeyed results.keys := by
  intro k hk
  obtain ⟨s, c, hs, hc, rfl⟩ := h k hk
  exact ⟨s, c, hs.plain, hc.plain, rfl⟩

theorem NamedKeys.names (h : NamedKeys results) {s c : String} (hs : Plain s) (hc : Plain c)
    (hmem : resultKey s c ∈ results) : Name s ∧ Name c := by
  obtain ⟨s', c', hs', hc', heq⟩ := h _ (AList.mem_keys.mp hmem)
  obtain ⟨rfl, rfl⟩ := resultKey_inj hs hc hs'.plain hc'.plain heq
  exact ⟨hs', hc'⟩

theorem TableOf.mem_servers_iff (htab : TableOf results t) (h : NamedKeys results) (s : String) :
    s ∈ t.serverKeys ↔ ∃ c, Name s ∧ Name c ∧ resultKey s c ∈ results := by
  rw [htab.mem_servers]
  refine exists_congr fun c => ⟨?_, ?_⟩
  · intro ⟨hs, hc, hmem⟩
    obtain ⟨hs, hc⟩ := h.names hs hc hmem
    exact ⟨hs, hc, hmem⟩
  · intro ⟨hs, hc, hmem⟩
    exact ⟨hs.plain, hc.plain, hmem⟩

theorem TableOf.mem_clients_iff (htab : TableOf results t) (h : NamedKeys results) (c : String) :
    c ∈ t.clientKeys ↔ ∃ s, Name s ∧ Name c ∧ resultKey s c ∈ results := by
  rw [htab.mem_clients]
  refine exists_congr fun s => ⟨?_, ?_⟩
  · intro ⟨hs, hc, hmem⟩
    obtain ⟨hs, hc⟩ := h.names hs hc hmem
    exact ⟨hs, hc, hmem⟩
  · intro ⟨hs, hc, hmem⟩
    exact ⟨hs.plain, hc.plain, hmem⟩

/-! ### Reading the table -/

theorem readCells_headerLine (h : t.clientKeys ≠ []) (hc : ∀ c ∈ t.clientKeys, Cell c) :
    readCells t.headerLine = "Server" :: t.clientKeys := by
  have hserver : Cell "Server" := ⟨by decide, by decide⟩
  rw [readCells_of_toList ?_ (headerLine_toList t h)]
  · simp [Function.comp_def]
  · intro cell hcell
    rcases List.mem_cons.mp hcell with rfl | hcell
    · exact hserver
    · obtain ⟨c, hmem, rfl⟩ := List.mem_map.mp hcell
      exact hc c hmem

theorem readCells_rowLine (row : String × List Badge) (h : Cell row.1) :
    readCells (rowLine row) = row.1 :: row.2.map Badge.resultChar := by
  rw [readCells_of_toList ?_ (rowLine_toList row)]
  · simp [Function.comp_def]
  · intro cell hcell
    rcases List.mem_cons.mp hcell with rfl | hcell
    · exact h
    · obtain ⟨b, -, rfl⟩ := List.mem_map.mp hcell
      exact b.resultChar_cell

/-- A row read back. -/
theorem mem_readRow {image : String} (clients : List String) (server : String)
    (f : String → Badge) (s c : String) :
    (s, c) ∈ readRow image clients (server :: (clients.map f).map Badge.resultChar) ↔
      s = server ∧ c ∈ clients ∧ (f c).resultChar = image := by
  rw [readRow, List.map_map, ← List.map_prod_left_eq_zip]
  simp only [List.mem_map, List.mem_filter, decide_eq_true_eq, Function.comp_apply]
  refine ⟨?_, ?_⟩
  · intro ⟨cell, ⟨⟨c', hc', hcell⟩, himage⟩, heq⟩
    obtain ⟨rfl, rfl⟩ := Prod.mk.inj heq
    subst hcell
    exact ⟨rfl, hc', himage⟩
  · intro ⟨hs, hc, himage⟩
    exact ⟨(c, (f c).resultChar), ⟨⟨c, hc, rfl⟩, himage⟩, Prod.ext hs.symm rfl⟩

/-- The rows read back, for an image that stands for a badge. -/
theorem mem_readRows {image : String} {badge : Badge}
    (himage : ∀ {b : Badge}, b.resultChar = image ↔ b = badge) (clients servers : List String)
    (f : String → String → Badge) (s c : String) :
    (s, c) ∈ (servers.flatMap fun s =>
        readRow image clients (s :: (clients.map (f s)).map Badge.resultChar)) ↔
      s ∈ servers ∧ c ∈ clients ∧ f s c = badge := by
  simp only [List.mem_flatMap, mem_readRow, himage]
  refine ⟨?_, ?_⟩
  · rintro ⟨s', hs', rfl, hc', hbadge⟩
    exact ⟨hs', hc', hbadge⟩
  · intro ⟨hs', hc', hbadge⟩
    exact ⟨s, hs', rfl, hc', hbadge⟩

/-- **The printed lines say what the table says.** -/
theorem readTable_lines (now : String) {f : String → String → Badge} (h : t.clientKeys ≠ [])
    (hs : ∀ s ∈ t.serverKeys, Cell s) (hc : ∀ c ∈ t.clientKeys, Cell c)
    (hrows : t.rows = t.serverKeys.map fun s => (s, t.clientKeys.map (f s))) :
    ∃ passing failing,
      readTable (t.lines now) = some ⟨t.clientKeys, t.serverKeys, passing, failing⟩ ∧
      (∀ s c, (s, c) ∈ passing ↔ s ∈ t.serverKeys ∧ c ∈ t.clientKeys ∧ f s c = .green) ∧
      ∀ s c, (s, c) ∈ failing ↔ s ∈ t.serverKeys ∧ c ∈ t.clientKeys ∧ f s c = .red := by
  have hread : ∀ s ∈ t.serverKeys,
      readCells (rowLine (s, t.clientKeys.map (f s))) =
        s :: (t.clientKeys.map (f s)).map Badge.resultChar :=
    fun s hmem => readCells_rowLine _ (hs s hmem)
  refine ⟨_, _, ?_, mem_readRows Badge.resultChar_eq_passing t.clientKeys t.serverKeys f,
    mem_readRows Badge.resultChar_eq_failing t.clientKeys t.serverKeys f⟩
  · have hservers : (t.rows.map rowLine).filterMap (fun row => (readCells row).head?) =
        t.serverKeys := by
      rw [hrows, List.map_map, List.filterMap_map]
      refine (List.filterMap_congr (g := some) fun s hmem => ?_).trans (by simp)
      simp only [Function.comp_apply, hread s hmem, List.head?_cons]
    have himages : ∀ image,
        (t.rows.map rowLine).flatMap (fun row => readRow image t.clientKeys (readCells row)) =
          t.serverKeys.flatMap fun s =>
            readRow image t.clientKeys (s :: (t.clientKeys.map (f s)).map Badge.resultChar) := by
      intro image
      rw [hrows, List.map_map, List.flatMap_map]
      refine List.flatMap_congr fun s hmem => ?_
      simp only [Function.comp_apply, hread s hmem]
    have hopen : readTable (t.lines now) = some
        { clients := (readCells t.headerLine).tail
          servers := (t.rows.map rowLine).filterMap fun row => (readCells row).head?
          passing := (t.rows.map rowLine).flatMap fun row =>
            readRow passingImage (readCells t.headerLine).tail (readCells row)
          failing := (t.rows.map rowLine).flatMap fun row =>
            readRow failingImage (readCells t.headerLine).tail (readCells row) } := rfl
    rw [hopen, readCells_headerLine h hc, List.tail_cons, hservers, himages, himages]

/-! ### The order of the entries -/

theorem mem_of_perm (h : results'.entries.Perm results.entries) (k : String) :
    k ∈ results' ↔ k ∈ results := by
  rw [AList.mem_keys, AList.mem_keys]
  exact (h.map Sigma.fst).mem_iff

/-- Two orders of the same entries give the same table. -/
theorem collate_perm (hk : NamedKeys results) (h : results'.entries.Perm results.entries) :
    collate results' = collate results := by
  have hk' : NamedKeys results' := fun k hmem =>
    hk k (AList.mem_keys.mp ((mem_of_perm h k).mp (AList.mem_keys.mpr hmem)))
  obtain ⟨t, ht, htab⟩ := collate_tableOf results hk.wellKeyed
  obtain ⟨t', ht', htab'⟩ := collate_tableOf results' hk'.wellKeyed
  have hservers : t'.serverKeys = t.serverKeys := by
    refine htab'.servers.eq_of_mem_iff htab.servers fun s => ?_
    rw [htab'.mem_servers, htab.mem_servers]
    simp only [mem_of_perm h]
  have hclients : t'.clientKeys = t.clientKeys := by
    refine htab'.clients.eq_of_mem_iff htab.clients fun c => ?_
    rw [htab'.mem_clients, htab.mem_clients]
    simp only [mem_of_perm h]
  have hrows : t'.rows = t.rows := by
    rw [collate_rows ht' htab', collate_rows ht htab, hservers, hclients]
    simp only [AList.perm_lookup h]
  rw [ht', ht]
  exact congrArg Except.ok (by cases t; cases t'; exact Table.mk.injEq .. ▸ ⟨hclients, hrows⟩)

/-! ### Keys that do not split into three parts -/

theorem record_eq_error (acc : Collected) {entry : Entry} (h : (splitKey entry.1).length ≠ 3) :
    ∃ e, record acc entry = .error e := by
  unfold record
  split
  · rename_i server client htail
    have hlen : (splitKey entry.1).tail.length = 2 := by rw [htail]; rfl
    rw [List.length_tail] at hlen
    omega
  · exact ⟨_, rfl⟩

theorem foldlM_record_error {entries : List Entry} {entry : Entry} (hmem : entry ∈ entries)
    (h : (splitKey entry.1).length ≠ 3) (acc : Collected) :
    ∃ e, entries.foldlM record acc = .error e := by
  induction entries generalizing acc with
  | nil => simp at hmem
  | cons first rest ih =>
      rw [List.foldlM_cons]
      cases hfirst : record acc first with
      | error e => exact ⟨e, rfl⟩
      | ok acc' =>
          rcases List.mem_cons.mp hmem with rfl | hmem
          · obtain ⟨e, he⟩ := record_eq_error acc h
            rw [he] at hfirst
            exact absurd hfirst (by simp)
          · exact ih hmem acc'

/-- A script that fails in its first loop prints nothing. -/
theorem main_of_bad_key {k : String} (hmem : k ∈ results.keys) (h : (splitKey k).length ≠ 3)
    (now : String) : main (.ok results) now = ([], 1) := by
  obtain ⟨entry, hentry, rfl⟩ := List.mem_map.mp hmem
  obtain ⟨e, he⟩ := foldlM_record_error hentry h
    { resultsDict := ∅, serverKeys := [], clientKeys := [] }
  have hcollate : collate results = .error e := by
    unfold collate collect
    rw [he]
    rfl
  simp only [main, hcollate]

/--
**The printed table.**

Its columns are the client names and its rows the server names, each once and in
ascending order; every row has a cell for every column, which shows the green image for
the value `0` of its own key and else the red one; the names, the passing and the failing
pairs can be read back from the printed lines by these two images; and nothing of it
depends on the order of the entries.  A key that does
not have three parts ends the script before it prints.
-/
theorem printed_table (results : Dict String) (now : String) :
    (results.keys ≠ [] → NamedKeys results →
      ∃ t : Table, main (.ok results) now = (t.lines now, 0) ∧
        (t.clientKeys.Pairwise (· < ·) ∧
          ∀ c, c ∈ t.clientKeys ↔ ∃ s, Name s ∧ Name c ∧ resultKey s c ∈ results) ∧
        (t.serverKeys.Pairwise (· < ·) ∧
          ∀ s, s ∈ t.serverKeys ↔ ∃ c, Name s ∧ Name c ∧ resultKey s c ∈ results) ∧
        (∀ row ∈ t.rows, row.2.length = t.clientKeys.length) ∧
        (∀ s ∈ t.serverKeys, ∀ c ∈ t.clientKeys, ∃ b, t.cell s c = some b ∧
          b.resultChar =
            if results.lookup (resultKey s c) = some "0" then passingImage else failingImage) ∧
        (∃ passing failing,
          readTable (t.lines now) = some ⟨t.clientKeys, t.serverKeys, passing, failing⟩ ∧
          (∀ s c, (s, c) ∈ passing ↔
            Name s ∧ Name c ∧ results.lookup (resultKey s c) = some "0") ∧
          ∀ s c, (s, c) ∈ failing ↔ s ∈ t.serverKeys ∧ c ∈ t.clientKeys ∧
            results.lookup (resultKey s c) ≠ some "0") ∧
        ∀ results' : Dict String, results'.entries.Perm results.entries →
          main (.ok results') now = main (.ok results) now) ∧
    ((∃ k ∈ results.keys, (splitKey k).length ≠ 3) → main (.ok results) now = ([], 1)) := by
  refine ⟨?_, fun ⟨k, hmem, hlen⟩ => main_of_bad_key hmem hlen now⟩
  intro hne hk
  obtain ⟨t, ht, htab⟩ := collate_tableOf results hk.wellKeyed
  have hrows := collate_rows ht htab
  have hservers := htab.mem_servers_iff hk
  have hclients := htab.mem_clients_iff hk
  have hnonempty : t.clientKeys ≠ [] := by
    obtain ⟨k, hmem⟩ := List.exists_mem_of_ne_nil _ hne
    obtain ⟨s, c, hs, hc, rfl⟩ := hk k hmem
    exact List.ne_nil_of_mem ((hclients c).mpr ⟨s, hs, hc, AList.mem_keys.mpr hmem⟩)
  refine ⟨t, by simp only [main, ht], ⟨htab.clients, hclients⟩, ⟨htab.servers, hservers⟩,
    ?_, ?_, ?_, ?_⟩
  · intro row hrow
    rw [hrows] at hrow
    obtain ⟨s, -, rfl⟩ := List.mem_map.mp hrow
    exact List.length_map ..
  · intro s hs c hc
    obtain ⟨b, hb⟩ := Option.isSome_iff_exists.mp ((htab.cell_isSome s c).mpr ⟨hs, hc⟩)
    exact ⟨b, hb, Badge.resultChar_eq_ite.mpr (htab.green s c b hb)⟩
  · obtain ⟨passing, failing, hread, hpassing, hfailing⟩ := readTable_lines now hnonempty
      (fun s hs => ((hservers s).mp hs).elim fun _ h => h.1.cell)
      (fun c hc => ((hclients c).mp hc).elim fun _ h => h.2.1.cell) hrows
    refine ⟨passing, failing, hread, fun s c => ?_, fun s c => ?_⟩
    · rw [hpassing, hservers, hclients, ite_green_iff]
      refine ⟨?_, ?_⟩
      · intro ⟨⟨_, hs, _⟩, ⟨_, _, hc, _⟩, h0⟩
        exact ⟨hs, hc, h0⟩
      · intro ⟨hs, hc, h0⟩
        have hmem : resultKey s c ∈ results := by
          rw [← AList.lookup_isSome, h0]
          rfl
        exact ⟨⟨c, hs, hc, hmem⟩, ⟨s, hs, hc, hmem⟩, h0⟩
    · rw [hfailing, ite_red_iff]
  · intro results' hperm
    simp only [main, collate_perm hk hperm]

/-- Two pairs out of four. -/
def sparseResults : Dict String :=
  ((∅ : Dict String).insert "result_b_x" "1").insert "result_a_y" "0"

/-- A key with one part too many. -/
def badResults : Dict String := (∅ : Dict String).insert "result_a_b_c" "0"

theorem sparse_printed_table :
    (∃ t : Table, main (.ok sparseResults) "now" = (t.lines "now", 0) ∧
      ∀ row ∈ t.rows, row.2.length = t.clientKeys.length) ∧
    main (.ok badResults) "now" = ([], 1) := by
  have hblank : ∀ n ∈ ["a", "b", "x", "y"], (n.toList.all fun c => !c.isWhitespace) = true := by
    decide
  have hname : ∀ n ∈ ["a", "b", "x", "y"], Name n := fun n hn =>
    ⟨(by decide : ∀ n ∈ ["a", "b", "x", "y"], Plain n) n hn,
      (by decide : ∀ n ∈ ["a", "b", "x", "y"], '|' ∉ n.toList) n hn,
      fun c hc => by simpa using List.all_eq_true.mp (hblank n hn) c hc⟩
  have hkeys : sparseResults.keys = ["result_a_y", "result_b_x"] := by decide
  have hnamed : NamedKeys sparseResults := by
    intro k hk
    rw [hkeys] at hk
    simp only [List.mem_cons, List.not_mem_nil, or_false] at hk
    rcases hk with rfl | rfl
    · exact ⟨"a", "y", hname _ (by decide), hname _ (by decide), by decide⟩
    · exact ⟨"b", "x", hname _ (by decide), hname _ (by decide), by decide⟩
  obtain ⟨t, ht, -, -, hrows, -⟩ :=
    (printed_table sparseResults "now").1 (by rw [hkeys]; simp) hnamed
  exact ⟨⟨t, ht, hrows⟩,
    (printed_table badResults "now").2 ⟨"result_a_b_c", by decide, by decide⟩⟩

end WebrtcEchoes.Collate
