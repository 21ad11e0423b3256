/-
The README after any runs of the workflows.

A table is made of characters that mean nothing to awk and match no heading, so that
it can always be inserted, and its lines are found again (`Run.insertable`).  From what
one run does to the sections of a README (`Run.push_lines`) follows what any runs do
(`pushes_lines`), and with it what a reader of the README finds (`pushes_shown`).
-/
import WebrtcEchoes.Actions.Publication
import WebrtcEchoes.Proofs.Actions.Readme
import WebrtcEchoes.Proofs.Actions.Workflow
import WebrtcEchoes.Proofs.Actions.PrintedTable
import WebrtcEchoes.Proofs.Actions.ResultsTable

namespace WebrtcEchoes.Actions

open WebrtcEchoes.Lines
open WebrtcEchoes.Collate
open WebrtcEchoes.Readme

/-! ### The characters of a table -/

/-- A character that neither ends a line nor begins an escape sequence or a heading. -/
def Inert (c : Char) : Prop := c ≠ '\n' ∧ c ≠ '\\' ∧ c ≠ '#'

instance (c : Char) : Decidable (Inert c) := inferInstanceAs (Decidable (_ ∧ _ ∧ _))

def InertText (text : String) : Prop := ∀ c ∈ text.toList, Inert c

instance (text : String) : Decidable (InertText text) :=
  List.decidableBAll (fun c => Inert c) text.toList

theorem InertText.append {text rest : String} (h : InertText text) (hrest : InertText rest) :
    InertText (text ++ rest) := by
  intro c hc
  rw [String.toList_append] at hc
  exact (List.mem_append.mp hc).elim (h c) (hrest c)

theorem InertText.join {texts : List String} (h : ∀ text ∈ texts, InertText text) :
    InertText (String.join texts) := by
  intro c hc
  rw [String.toList_join] at hc
  obtain ⟨text, htext, hmem⟩ := List.mem_flatMap.mp hc
  exact h text htext c hmem

theorem InertText.intercalate {bar : String} (hbar : InertText bar) {texts : List String}
    (h : ∀ text ∈ texts, InertText text) : InertText (bar.intercalate texts) := by
  induction texts with
  | nil => exact fun c hc => by simp at hc
  | cons text rest ih =>
      cases rest with
      | nil => simpa using h text (by simp)
      | cons next rest =>
          rw [String.intercalate_cons_cons]
          exact ((h text (by simp)).append hbar).append (ih fun t ht => h t (by simp [ht]))

theorem ljust12_inert {text : String} (h : InertText text) : InertText (ljust12 text) := by
  refine h.append fun c hc => ?_
  rw [String.toList_ofList] at hc
  rw [List.eq_of_mem_replicate hc]
  decide

theorem resultChar_inert (b : Badge) : InertText b.resultChar := by
  cases b with
  | green => decide +kernel
  | red => decide +kernel

theorem rowLine_inert {row : String × List Badge} (h : InertText row.1) :
    InertText (rowLine row) := by
  have hcell : ∀ cell ∈ row.2.map (fun b => "| " ++ b.resultChar ++ " "), InertText cell := by
    intro cell hmem
    obtain ⟨b, -, rfl⟩ := List.mem_map.mp hmem
    have hbar : InertText "| " := by decide
    exact (hbar.append (resultChar_inert b)).append (by decide)
  have hbar : InertText "| " := by decide
  exact (((hbar.append (ljust12_inert h)).append (by decide)).append (InertText.join hcell)).append
    (by decide)

theorem Timestamp.inert (now : Timestamp) : InertText now.text := by
  intro c hc
  rcases now.chars c hc with hdigit | hsign
  · refine ⟨?_, ?_, ?_⟩ <;> rintro rfl <;> simp at hdigit
  · simp only [List.mem_cons, List.not_mem_nil, or_false] at hsign
    rcases hsign with rfl | rfl | rfl | rfl
    all_goals decide

/-- The lines of a table are inert if its names are. -/
theorem tableLines_inert {t : Table} (now : Timestamp) (hs : ∀ s ∈ t.serverKeys, InertText s)
    (hc : ∀ c ∈ t.clientKeys, InertText c) : ∀ line ∈ t.lines now.text, InertText line := by
  have hfront : InertText "Test run at " := by decide
  have hbar : InertText "| " := by decide
  have hbars : InertText " | " := by decide
  have hrule : InertText "|--------|" := by decide
  have hheader : InertText t.headerLine :=
    (((hbar.append (ljust12_inert (by decide))).append hbars).append
      (hbars.intercalate hc)).append (by decide)
  have hruleLine : InertText t.ruleLine := by
    refine (hrule.append (InertText.intercalate (by decide) fun text htext => ?_)).append
      (by decide)
    rw [List.eq_of_mem_replicate htext]
    decide
  intro line hline
  simp only [Table.lines, List.cons_append, List.nil_append, List.mem_cons, List.mem_map] at hline
  rcases hline with rfl | rfl | rfl | rfl | ⟨row, hrow, rfl⟩
  · exact hfront.append now.inert
  · decide
  · exact hheader
  · exact hruleLine
  · exact rowLine_inert (hs row.1 (List.mem_map_of_mem hrow))

theorem mem_readFile {lines : List String} {last : String} {ch : Char}
    (h : ch ∈ terminate '\n' (lines.map String.toList) ++ last.toList) :
    ch = '\n' ∨ ∃ line ∈ lines ++ [last], ch ∈ line.toList := by
  rcases List.mem_append.mp h with h | h
  · obtain ⟨l, hl, hch⟩ := List.mem_flatMap.mp h
    obtain ⟨line, hline, rfl⟩ := List.mem_map.mp hl
    rcases List.mem_append.mp hch with hch | hch
    · exact Or.inr ⟨line, List.mem_append_left _ hline, hch⟩
    · exact Or.inl (List.mem_singleton.mp hch)
  · exact Or.inr ⟨last, by simp, h⟩

/-- A file whose last line is not blank is read without its last line break. -/
theorem readFile_printed {lines : List String} {last : String} (hlast : last.toList ≠ [])
    (hnl : '\n' ∉ last.toList) :
    readFile (printed (lines ++ [last])) =
      terminate '\n' (lines.map String.toList) ++ last.toList := by
  have hfile : printed (lines ++ [last]) =
      (terminate '\n' (lines.map String.toList) ++ last.toList) ++ ['\n'] := by
    rw [printed, List.map_append, terminate_append]
    simp [terminate]
  rw [readFile, hfile, List.rdropWhile_concat_pos _ _ _ (by decide)]
  refine List.rdropWhile_eq_self_iff.mpr fun hne => ?_
  rw [List.getLast_append_of_ne_nil hne hlast]
  have hmem := List.getLast_mem hlast
  intro heq
  exact hnl ((decide_eq_true_eq.mp heq) ▸ hmem)

theorem noHeading_of_inert {lines : List Text} (h : ∀ l ∈ lines, '#' ∉ l) : NoHeading lines := by
  intro l hl heading hmem
  have hsharp : '#' ∈ heading.toList := by
    revert heading
    decide
  refine decide_eq_false fun hin => h l hl (hin.subset hsharp)

/-- Inert lines can be inserted, and are the lines that are found again. -/
theorem insertable_readFile {lines : List String} {last : String} (hlast : last.toList ≠ [])
    (h : ∀ line ∈ lines ++ [last], InertText line) :
    Insertable (readFile (printed (lines ++ [last]))) ∧
      (readFile (printed (lines ++ [last]))).splitOn '\n' =
        (lines ++ [last]).map String.toList := by
  have hnl : ∀ line ∈ lines ++ [last], '\n' ∉ line.toList :=
    fun line hline hmem => (h line hline _ hmem).1 rfl
  rw [readFile_printed hlast (hnl last (by simp))]
  have hsplit : (terminate '\n' (lines.map String.toList) ++ last.toList).splitOn '\n' =
      (lines ++ [last]).map String.toList := by
    rw [splitOn_terminate_append ?_ (hnl last (by simp)), List.map_append, List.map_singleton]
    intro l hl
    obtain ⟨line, hline, rfl⟩ := List.mem_map.mp hl
    exact hnl line (by simp [hline])
  refine ⟨⟨fun hmem => ?_, ?_⟩, hsplit⟩
  · rcases mem_readFile hmem with heq | ⟨line, hline, hch⟩
    · exact absurd heq (by decide)
    · exact (h line hline _ hch).2.1 rfl
  · rw [hsplit]
    refine noHeading_of_inert fun l hl hmem => ?_
    obtain ⟨line, hline, rfl⟩ := List.mem_map.mp hl
    exact (h line hline _ hmem).2.2 rfl

/-- The last line of a table is not blank. -/
theorem tableLines_last (t : Table) (now : String) :
    ∃ lines last, t.lines now = lines ++ [last] ∧ last.toList ≠ [] := by
  rcases List.eq_nil_or_concat t.rows with hrows | ⟨rows, row, hrows⟩
  · refine ⟨["Test run at " ++ now, "", t.headerLine], t.ruleLine, by simp [Table.lines, hrows], ?_⟩
    simp [Table.ruleLine, String.toList_append]
  · refine ⟨["Test run at " ++ now, "", t.headerLine, t.ruleLine] ++ rows.map rowLine, rowLine row,
      by simp [Table.lines, hrows], ?_⟩
    simp [rowLine, String.toList_append]

/-! ### One run -/

/-- The server whose jobs are behind the row of a server. -/
def Test.source : Test → String → String
  | .peerConnection => peerConnectionSource
  | .dataChannelEcho => id

theorem Test.wired (test : Test) : Wired test.workflow test.source :=
  match test with
  | .peerConnection => peerConnection_wired
  | .dataChannelEcho => dataChannel_wired

theorem Test.names_cell (test : Test) :
    ∀ n ∈ test.workflow.server ++ test.workflow.client, Cell n := by
  have hsigns : ∀ n ∈ test.workflow.server ++ test.workflow.client,
      '|' ∉ n.toList ∧ ' ' ∉ n.toList := by
    cases test with
    | peerConnection => decide
    | dataChannelEcho => decide
  exact fun n hn => ⟨(hsigns n hn).1, (hsigns n hn).2⟩

theorem Test.names_inert (test : Test) :
    ∀ n ∈ test.workflow.server ++ test.workflow.client, InertText n := by
  cases test with
  | peerConnection => decide
  | dataChannelEcho => decide

theorem Test.inert {test : Test} {t : Table} {jobs : MatrixRun test.workflow}
    (h : TableOfRun test.source jobs t) :
    (∀ s ∈ t.serverKeys, InertText s) ∧ ∀ c ∈ t.clientKeys, InertText c := by
  refine ⟨fun s hs => test.names_inert s ?_, fun c hc => test.names_inert c ?_⟩
  · exact List.mem_append_left _ ((h.mem_servers s).mp hs).1
  · exact List.mem_append_right _ ((h.mem_clients c).mp hc).1

/-- The pairs that a run shows as passing. -/
def Run.Passes (r : Run) (server client : String) : Prop :=
  server ∈ r.test.workflow.server ∧ client ∈ r.test.workflow.client ∧
    r.jobs.exitStatus (r.test.source server, client) = 0

/-- What the script prints in a run. -/
structure Run.Prints (r : Run) (t : Table) : Prop where
  main : Collate.main (.ok r.jobs.outputs) r.now.text = (t.lines r.now.text, 0)
  inert : ∀ line ∈ t.lines r.now.text, InertText line
  read : ∃ reading, readTable (t.lines r.now.text) = some reading ∧
    ∀ s c, (s, c) ∈ reading.passing ↔ r.Passes s c

theorem Run.prints (r : Run) : ∃ t, r.Prints t := by
  obtain ⟨t, ht, hrun⟩ := r.test.wired.table r.jobs
  obtain ⟨t', ht', htab⟩ := collate_tableOf r.jobs.outputs (r.test.wired.wellKeyed r.jobs)
  obtain rfl : t' = t := by
    have heq : (Except.ok t' : Except PyError Table) = .ok t := ht'.symm.trans ht
    injection heq
  obtain ⟨hservers, hclients⟩ := Test.inert hrun
  refine ⟨t', ⟨by simp only [Collate.main, ht'], tableLines_inert r.now hservers hclients, ?_⟩⟩
  have hrows := collate_rows ht' htab
  by_cases hempty : t'.clientKeys = []
  · -- No job has succeeded, and the table has no rows.
    have hnone : ∀ s c, ¬ r.Passes s c := by
      rintro s c ⟨hs, hc, h0⟩
      have hmem := (hrun.mem_clients c).mpr ⟨hc, s, hs, h0⟩
      simp [hempty] at hmem
    have hnoServer : t'.serverKeys = [] := by
      refine List.eq_nil_iff_forall_not_mem.mpr fun s hs => ?_
      obtain ⟨hs, c, hc, h0⟩ := (hrun.mem_servers s).mp hs
      exact hnone s c ⟨hs, hc, h0⟩
    have hnoRow : t'.rows = [] := by simpa [hnoServer] using hrows
    refine ⟨⟨(readCells t'.headerLine).tail, [], [], []⟩,
      by simp [readTable, Table.lines, hnoRow], fun s c => ?_⟩
    simpa using hnone s c
  · obtain ⟨passing, _, hread, hpassing, -⟩ := readTable_lines r.now.text hempty
      (fun s hs => r.test.names_cell s (List.mem_append_left _ ((hrun.mem_servers s).mp hs).1))
      (fun c hc => r.test.names_cell c (List.mem_append_right _ ((hrun.mem_clients c).mp hc).1))
      hrows
    refine ⟨_, hread, fun s c => ?_⟩
    rw [hpassing, hrun.mem_servers, hrun.mem_clients, ite_green_iff]
    have hlookup : ∀ {s c}, s ∈ r.test.workflow.server → c ∈ r.test.workflow.client →
        (r.jobs.outputs.lookup (resultKey s c) = some "0" ↔
          r.jobs.exitStatus (r.test.source s, c) = 0) := by
      intro s c hs hc
      rw [r.test.wired.lookup_resultKey r.jobs (r.test.wired.server_plain s hs)
        (r.test.wired.client_plain c hc)]
      simp [hs, hc]
    refine ⟨?_, ?_⟩
    · rintro ⟨⟨hs, -⟩, ⟨hc, -⟩, h0⟩
      exact ⟨hs, hc, (hlookup hs hc).mp h0⟩
    · rintro ⟨hs, hc, h0⟩
      exact ⟨⟨hs, c, hc, h0⟩, ⟨hc, s, hs, h0⟩, (hlookup hs hc).mpr h0⟩

/-- The lines that a run puts behind the heading of its section. -/
def Run.section (r : Run) : List Text :=
  (Collate.main (.ok r.jobs.outputs) r.now.text).1.map String.toList

/-- The section of a run can always be inserted. -/
theorem Run.insertable (r : Run) :
    Insertable (readFile (printed (Collate.main (.ok r.jobs.outputs) r.now.text).1)) ∧
      (readFile (printed (Collate.main (.ok r.jobs.outputs) r.now.text).1)).splitOn '\n' =
        r.section := by
  obtain ⟨t, ht⟩ := r.prints
  obtain ⟨lines, last, hlines, hlast⟩ := tableLines_last t r.now.text
  have hinert := ht.inert
  rw [hlines] at hinert
  simp only [Run.section, ht.main, hlines]
  exact insertable_readFile hlast hinert

/-! ### Any history of runs -/

/-- The last run of a test that has pushed. -/
def latest (test : Test) (runs : List Run) : Option Run :=
  (runs.filter fun r => r.test = test ∧ r.pullRequest = false).getLast?

theorem latest_snoc (test : Test) (runs : List Run) (r : Run) :
    latest test (runs ++ [r]) =
      if r.test = test ∧ r.pullRequest = false then some r else latest test runs := by
  unfold latest
  rw [List.filter_append, List.filter_singleton]
  by_cases h : r.test = test ∧ r.pullRequest = false
  · simp [h]
  · rw [if_neg h]
    simp [h]

/-- A section behind some runs, from what it was at first. -/
def sectionAfter (test : Test) (runs : List Run) (first : List Text) : List Text :=
  ((latest test runs).map Run.section).getD first

theorem sectionAfter_snoc (test : Test) (runs : List Run) (r : Run) (first : List Text) :
    sectionAfter test (runs ++ [r]) first =
      if r.test = test ∧ r.pullRequest = false then r.section
      else sectionAfter test runs first := by
  unfold sectionAfter
  rw [latest_snoc]
  split
  · rfl
  · rfl

/-- The lines of a README behind some runs, from its lines at first. -/
def sectionsAfter (s : Sections) (runs : List Run) : Sections :=
  { s with
    peerConnection := sectionAfter .peerConnection runs s.peerConnection
    dataChannel := sectionAfter .dataChannelEcho runs s.dataChannel }

variable {awk : Awk} {s : Sections} {repo : Repo}

/-- What a run commits. -/
theorem Run.collate_eq (r : Run) :
    r.collate awk repo =
      { readme := r.test.program.update awk
          (readFile (printed (Collate.main (.ok r.jobs.outputs) r.now.text).1)) repo.readme
        testResults := Function.update repo.testResults r.test
          (printed (Collate.main (.ok r.jobs.outputs) r.now.text).1) } := by
  obtain ⟨t, ht⟩ := r.prints
  simp only [Run.collate, ht.main]

/-- A README with other lines in one section. -/
def setSection (s : Sections) (test : Test) (lines : List Text) : Sections :=
  match test with
  | .peerConnection => { s with peerConnection := lines }
  | .dataChannelEcho => { s with dataChannel := lines }

theorem update_setSection {test : Test} {readme content : Text} (hs : s.OK)
    (h : records '\n' readme = s.lines) (hins : Insertable content) :
    (setSection s test (content.splitOn '\n')).OK ∧
      records '\n' (test.program.update awk content readme) =
        (setSection s test (content.splitOn '\n')).lines := by
  cases test with
  | peerConnection =>
      have hok := hs.setPeerConnection hins
      refine ⟨hok, ?_⟩
      rw [Test.program, update_peerConnection hs h hins]
      exact records_lines hok
  | dataChannelEcho =>
      have hok := hs.setDataChannel hins
      refine ⟨hok, ?_⟩
      rw [Test.program, update_dataChannel hs h hins]
      exact records_lines hok

/-- One run: if it pushes, the lines of its section change. -/
theorem Run.push_lines (r : Run) (hs : s.OK) (h : records '\n' repo.readme = s.lines) :
    let s' := if r.pullRequest then s else setSection s r.test r.section
    s'.OK ∧ records '\n' (r.push awk repo).readme = s'.lines := by
  unfold Run.push
  by_cases hpull : r.pullRequest = true
  · simpa [hpull] using ⟨hs, h⟩
  · rw [if_neg hpull, if_neg hpull, Run.collate_eq]
    obtain ⟨hins, hsection⟩ := r.insertable
    rw [← hsection]
    exact update_setSection hs h hins

theorem sectionsAfter_snoc (s : Sections) (runs : List Run) (r : Run) :
    sectionsAfter s (runs ++ [r]) =
      if r.pullRequest then sectionsAfter s runs
      else setSection (sectionsAfter s runs) r.test r.section := by
  obtain ⟨test, jobs, now, pullRequest⟩ := r
  cases pullRequest with
  | true => simp [sectionsAfter, sectionAfter_snoc]
  | false =>
      cases test with
      | peerConnection => simp [sectionsAfter, sectionAfter_snoc, setSection]
      | dataChannelEcho => simp [sectionsAfter, sectionAfter_snoc, setSection]

/-- Any runs: the induction is on the runs, from the last one back. -/
theorem pushes_lines (awk : Awk) (runs : List Run) (hs : s.OK)
    (h : records '\n' repo.readme = s.lines) :
    (sectionsAfter s runs).OK ∧
      records '\n' (pushes awk repo runs).readme = (sectionsAfter s runs).lines := by
  induction runs using List.reverseRecOn with
  | nil => exact ⟨hs, h⟩
  | append_singleton runs r ih =>
      have hstep : pushes awk repo (runs ++ [r]) = r.push awk (pushes awk repo runs) := by
        simp [pushes]
      rw [hstep, sectionsAfter_snoc]
      exact r.push_lines ih.1 ih.2

theorem pushes_testResults (test : Test) (runs : List Run) :
    (pushes awk repo runs).testResults test =
      ((latest test runs).map fun r => terminate '\n' r.section).getD (repo.testResults test) := by
  induction runs using List.reverseRecOn with
  | nil => rfl
  | append_singleton runs r ih =>
      have hstep : pushes awk repo (runs ++ [r]) = r.push awk (pushes awk repo runs) := by
        simp [pushes]
      rw [hstep, latest_snoc, Run.push]
      by_cases hpull : r.pullRequest = true
      · simpa [hpull] using ih
      · rw [if_neg hpull, Run.collate_eq]
        by_cases htest : r.test = test
        · subst htest
          simp [hpull, Run.section, printed]
        · have hne : test ≠ r.test := fun heq => htest heq.symm
          simpa [htest, hne] using ih

/-! ### Reading the README -/

/-- The lines that stand between the two headings of a program. -/
def readSection (p : Program) (lines : List Text) : List Text :=
  ((lines.dropWhile fun l => !lineMatches p.start l).tail).takeWhile fun l => !lineMatches p.stop l

theorem readSection_eq {p : Program} {xs ys zs : List Text} {start stop : Text}
    (hx : ∀ l ∈ xs, lineMatches p.start l = false) (hstart : lineMatches p.start start = true)
    (hy : ∀ l ∈ ys, lineMatches p.stop l = false) (hstop : lineMatches p.stop stop = true) :
    readSection p (xs ++ start :: (ys ++ stop :: zs)) = ys := by
  have hdrop : (xs ++ start :: (ys ++ stop :: zs)).dropWhile (fun l => !lineMatches p.start l) =
      start :: (ys ++ stop :: zs) := by
    rw [List.dropWhile_append_of_pos fun l hl => by simp [hx l hl],
      List.dropWhile_cons_of_neg (by simp [hstart])]
  rw [readSection, hdrop, List.tail_cons,
    List.takeWhile_append_of_pos fun l hl => by simp [hy l hl],
    List.takeWhile_cons_of_neg (by simp [hstop]), List.append_nil]

/-- The lines of the section of a test. -/
def sectionOf (s : Sections) : Test → List Text
  | .peerConnection => s.peerConnection
  | .dataChannelEcho => s.dataChannel

theorem readSection_lines (test : Test) (hs : s.OK) :
    readSection test.program s.lines = sectionOf s test := by
  cases test with
  | peerConnection =>
      exact readSection_eq (fun l hl => (hs.before.peerConnection l hl).1)
        (hs.peerConnectionLine.matches peerConnectionHeading_mem)
        (fun l hl => (hs.peerConnection.peerConnection l hl).2)
        (hs.dataChannelLine.matches dataChannelHeading_mem)
  | dataChannelEcho =>
      have hlines : s.lines =
          (s.before ++ s.peerConnectionLine :: s.peerConnection) ++
            s.dataChannelLine :: (s.dataChannel ++ s.getStartedLine :: s.getStarted) := by
        simp [Sections.lines]
      rw [hlines]
      refine readSection_eq ?_ (hs.dataChannelLine.matches dataChannelHeading_mem)
        (fun l hl => (hs.dataChannel.dataChannel l hl).2)
        (hs.getStartedLine.matches getStartedHeading_mem)
      intro l hl
      rcases List.mem_append.mp hl with hl | hl
      · exact (hs.before.dataChannel l hl).1
      · rcases List.mem_cons.mp hl with rfl | hl
        · exact hs.peerConnectionLine.other dataChannelHeading_mem
            peerConnection_ne_dataChannel.symm
        · exact (hs.peerConnection.dataChannel l hl).1

theorem sectionOf_sectionsAfter (s : Sections) (runs : List Run) (test : Test) :
    sectionOf (sectionsAfter s runs) test = sectionAfter test runs (sectionOf s test) := by
  cases test with
  | peerConnection => rfl
  | dataChannelEcho => rfl

/-- The two sections of a README by the positions of its headings. -/
theorem sections_eq {lines : List Text} {i j k : Nat} (hlines : s.lines = lines)
    (hi : s.before ++ [s.peerConnectionLine] = lines.take (i + 1)) (hij : i < j) (hjk : j < k)
    (hk : k < lines.length)
    (hj : s.before ++ s.peerConnectionLine :: s.peerConnection ++ [s.dataChannelLine] =
      lines.take (j + 1))
    (hend : s.getStartedLine :: s.getStarted = lines.drop k) :
    s.peerConnection = (lines.take j).drop (i + 1) ∧
      [s.dataChannelLine] = (lines.take (j + 1)).drop j ∧
      s.dataChannel = (lines.take k).drop (j + 1) := by
  have hleni : (s.before ++ [s.peerConnectionLine]).length = i + 1 := by
    rw [hi, List.length_take]
    omega
  have hfront : lines.take (j + 1) =
      (s.before ++ [s.peerConnectionLine]) ++ s.peerConnection ++ [s.dataChannelLine] := by
    rw [← hj]
    simp
  have hlenj : ((s.before ++ [s.peerConnectionLine]) ++ s.peerConnection).length = j := by
    have hlen := congrArg List.length hfront
    rw [List.length_take, List.length_append, List.length_singleton] at hlen
    omega
  have htake : lines.take j = (s.before ++ [s.peerConnectionLine]) ++ s.peerConnection := by
    have hle : lines.take j = (lines.take (j + 1)).take j := by
      rw [List.take_take, Nat.min_eq_left (by omega)]
    rw [hle, hfront, List.take_left' hlenj]
  have hrest : lines.take k = lines.take (j + 1) ++ s.dataChannel := by
    refine (List.append_left_inj (lines.drop k)).mp ?_
    rw [List.take_append_drop, hfront, ← hend, ← hlines]
    simp [Sections.lines]
  have hlenj1 : (lines.take (j + 1)).length = j + 1 := by
    rw [List.length_take]
    omega
  refine ⟨?_, ?_, ?_⟩
  · rw [htake, List.drop_left' hleni]
  · rw [hfront, List.drop_left' hlenj]
  · rw [hrest, List.drop_left' hlenj1]

/--
**The README after any runs.**

Whatever runs of the two workflows there have been, in whatever order, nothing outside
the two sections has changed, and each section is that of the last run of its test that
has pushed, or still the old one.
-/
theorem pushes_readme (awk : Awk) (repo : Repo) {lines : List Text} {i j k : Nat}
    (hlines : records '\n' repo.readme = lines) (h : Headings lines i j k) (runs : List Run) :
    records '\n' (pushes awk repo runs).readme =
      lines.take (i + 1) ++
        sectionAfter .peerConnection runs ((lines.take j).drop (i + 1)) ++
        (lines.take (j + 1)).drop j ++
        sectionAfter .dataChannelEcho runs ((lines.take k).drop (j + 1)) ++ lines.drop k := by
  subst hlines
  obtain ⟨s, hs, hlines, hfront, hmiddle, hdc, hgs⟩ := h.sections
  obtain ⟨-, hafter⟩ := pushes_lines awk runs hs hlines.symm
  obtain ⟨hpc, hline, hdata⟩ := sections_eq hlines hfront h.dataChannel_after h.getStarted_after
    h.getStarted.lt hmiddle hgs
  rw [hafter, ← hpc, ← hline, ← hdata, ← hfront, ← hgs]
  simp [sectionsAfter, Sections.lines]

theorem test_of_latest {test : Test} {runs : List Run} {r : Run} (h : latest test runs = some r) :
    r.test = test := by
  have hmem : r ∈ runs.filter fun r => r.test = test ∧ r.pullRequest = false :=
    List.mem_of_getLast? h
  exact (of_decide_eq_true (List.mem_filter.mp hmem).2).1

/-- A reader finds the lines of the last run that has pushed. -/
theorem readSection_pushes (awk : Awk) {i j k : Nat} (h : Headings (records '\n' repo.readme) i j k)
    {runs : List Run} {test : Test} {r : Run} (hr : latest test runs = some r) :
    readSection test.program (records '\n' (pushes awk repo runs).readme) = r.section := by
  obtain ⟨s, hs, hlines, -⟩ := h.sections
  obtain ⟨hok, hafter⟩ := pushes_lines awk runs hs hlines.symm
  rw [hafter, readSection_lines test hok, sectionOf_sectionsAfter, sectionAfter, hr]
  rfl

/-- The lines of a run tell what passes. -/
theorem Run.read_section (r : Run) :
    ∃ reading, readTable (r.section.map String.ofList) = some reading ∧
      ∀ s c, (s, c) ∈ reading.passing ↔ r.Passes s c := by
  obtain ⟨t, ht⟩ := r.prints
  have hprinted : r.section.map String.ofList = t.lines r.now.text := by
    simp [Run.section, ht.main]
  rw [hprinted]
  exact ht.read

/--
**What the README shows.**

Behind any runs of the two workflows a reader finds in the section of a test the table
of the last run that has pushed, and the results file of the test holds the same lines.
A pair of a server and a client has the green image there just when the job behind its
badge ended with status 0 in that run.
-/
theorem pushes_shown (awk : Awk) (repo : Repo) {i j k : Nat}
    (h : Headings (records '\n' repo.readme) i j k) (runs : List Run) {test : Test} {r : Run}
    (hr : latest test runs = some r) :
    readSection test.program (records '\n' (pushes awk repo runs).readme) = r.section ∧
      (pushes awk repo runs).testResults test = terminate '\n' r.section ∧
      ∃ reading, readTable (r.section.map String.ofList) = some reading ∧
        ∀ s c, (s, c) ∈ reading.passing ↔
          s ∈ test.workflow.server ∧ c ∈ test.workflow.client ∧
            r.jobs.exitStatus (test.source s, c) = 0 := by
  obtain rfl := test_of_latest hr
  refine ⟨readSection_pushes awk h hr, ?_, r.read_section⟩
  rw [pushes_testResults, hr]
  rfl

/-! ### An example -/

theorem newYear_chars :
    ∀ c ∈ "2025-01-01".toList, c.isDigit = true ∨ c ∈ ['-', ' ', ':', '.'] := by
  simp

/-- A run in which every client connects to every server but `werift`. -/
def weriftFails : Run where
  test := .dataChannelEcho
  jobs := serverFails dataChannelEchoTest "werift"
  now := ⟨"2025-01-01", newYear_chars⟩
  pullRequest := false

/-- A repository with a short README and empty results files. -/
def smallRepo : Repo := ⟨terminate '\n' smallReadme, fun _ => []⟩

theorem smallRepo_records : records '\n' smallRepo.readme = smallReadme :=
  records_terminate (by decide +kernel)

theorem smallReadme_headings : Headings smallReadme 1 3 5 :=
  ⟨⟨by decide, by decide +kernel⟩, ⟨by decide, by decide +kernel⟩, ⟨by decide, by decide +kernel⟩,
    by decide, by decide⟩

theorem smallRepo_pushes_readme :
    records '\n' (pushes plainAwk smallRepo [weriftFails]).readme =
      smallReadme.take 4 ++ weriftFails.section ++ smallReadme.drop 5 := by
  have hpushes := pushes_readme plainAwk smallRepo smallRepo_records smallReadme_headings
    [weriftFails]
  simpa [sectionAfter, latest, weriftFails, smallReadme] using hpushes

theorem smallRepo_pushes_shown :
    ∃ reading, readTable (weriftFails.section.map String.ofList) = some reading ∧
      ("sipsorcery", "werift") ∈ reading.passing ∧ ("werift", "werift") ∉ reading.passing := by
  have hlast : latest .dataChannelEcho [weriftFails] = some weriftFails := rfl
  have hheadings : Headings (records '\n' smallRepo.readme) 1 3 5 :=
    smallRepo_records ▸ smallReadme_headings
  obtain ⟨-, -, reading, hread, hpassing⟩ :=
    pushes_shown plainAwk smallRepo hheadings [weriftFails] hlast
  refine ⟨reading, hread, (hpassing _ _).mpr ?_, fun h => absurd ((hpassing _ _).mp h) ?_⟩
  · decide
  · decide

end WebrtcEchoes.Actions
