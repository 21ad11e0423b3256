/-
What the two README updates do to a file.

A `README.md` in which the three headings stand in order, once each, is a value of
`Sections`: the lines in front of the first heading, and behind each heading the lines
of its section.  An update replaces one of the sections and touches nothing else, so on
`Sections` it is the update of a field.  That an update can be repeated, that the last
of two wins and that the two programs do not get into each other's way is then a matter
of fields.
-/
import WebrtcEchoes.Actions.Readme

namespace WebrtcEchoes.Readme

open WebrtcEchoes.Lines

/-! ### One program -/

variable {p : Program} {newContent : Text}

/-- None of the patterns of the program matches any of the lines. -/
def Program.Ignores (p : Program) (lines : List Text) : Prop :=
  ∀ l ∈ lines, lineMatches p.start l = false ∧ lineMatches p.stop l = false

theorem prints_outside {xs : List Text} (h : p.Ignores xs) (ys : List Text) :
    p.prints newContent false (xs ++ ys) = xs ++ p.prints newContent false ys := by
  induction xs with
  | nil => rfl
  | cons l rest ih =>
      obtain ⟨hstart, hstop⟩ := h l (by simp)
      simp only [List.cons_append, Program.prints, hstart, hstop]
      exact congrArg (l :: ·) (ih fun l' hl' => h l' (by simp [hl']))

theorem prints_inside {xs : List Text} (h : p.Ignores xs) (ys : List Text) :
    p.prints newContent true (xs ++ ys) = p.prints newContent true ys := by
  induction xs with
  | nil => rfl
  | cons l rest ih =>
      obtain ⟨hstart, hstop⟩ := h l (by simp)
      simp only [List.cons_append, Program.prints, hstart, hstop]
      exact ih fun l' hl' => h l' (by simp [hl'])

/-- The lines between the two headings are not printed, and the new contents are. -/
theorem prints_section (newContent : Text) {xs ys zs : List Text} {start stop : Text}
    (hx : p.Ignores xs) (hstart : lineMatches p.start start = true) (hy : p.Ignores ys)
    (hstop : lineMatches p.stop stop = true) (hne : lineMatches p.start stop = false)
    (hz : p.Ignores zs) :
    p.prints newContent false (xs ++ start :: (ys ++ stop :: zs)) =
      xs ++ start :: newContent :: stop :: zs := by
  have hall : p.prints newContent false (zs ++ []) = zs ++ p.prints newContent false [] :=
    prints_outside hz []
  have hrest : p.prints newContent false zs = zs := by simpa [Program.prints] using hall
  rw [prints_outside hx]
  simp only [Program.prints, hstart, if_pos]
  rw [prints_inside hy]
  simp only [Program.prints, hne, hstop, hrest, Bool.false_eq_true, if_false, if_true]

/-! ### Sections -/

/-- The patterns of both programs. -/
def headings : List String := [peerConnectionHeading, dataChannelHeading, getStartedHeading]

theorem peerConnectionHeading_mem : peerConnectionHeading ∈ headings := by simp [headings]

theorem dataChannelHeading_mem : dataChannelHeading ∈ headings := by simp [headings]

theorem getStartedHeading_mem : getStartedHeading ∈ headings := by simp [headings]

theorem peerConnection_ne_dataChannel : peerConnectionHeading ≠ dataChannelHeading := by decide

theorem peerConnection_ne_getStarted : peerConnectionHeading ≠ getStartedHeading := by decide

theorem dataChannel_ne_getStarted : dataChannelHeading ≠ getStartedHeading := by decide

/-- The lines of a `README.md`. -/
structure Sections where
  before : List Text
  peerConnectionLine : Text
  peerConnection : List Text
  dataChannelLine : Text
  dataChannel : List Text
  getStartedLine : Text
  getStarted : List Text

def Sections.lines (s : Sections) : List Text :=
  s.before ++ s.peerConnectionLine :: (s.peerConnection ++ s.dataChannelLine ::
    (s.dataChannel ++ s.getStartedLine :: s.getStarted))

theorem Sections.forall_mem_lines {s : Sections} {P : Text → Prop} :
    (∀ l ∈ s.lines, P l) ↔
      (∀ l ∈ s.before, P l) ∧ P s.peerConnectionLine ∧ (∀ l ∈ s.peerConnection, P l) ∧
        P s.dataChannelLine ∧ (∀ l ∈ s.dataChannel, P l) ∧ P s.getStartedLine ∧
          ∀ l ∈ s.getStarted, P l := by
  simp [Sections.lines, or_imp, forall_and]

/-- No heading matches any of the lines. -/
def NoHeading (lines : List Text) : Prop := ∀ l ∈ lines, ∀ h ∈ headings, lineMatches h l = false

instance (lines : List Text) : Decidable (NoHeading lines) :=
  inferInstanceAs (Decidable (∀ l ∈ lines, ∀ h ∈ headings, lineMatches h l = false))

/-- The line matches one heading and no other. -/
def IsHeading (heading : String) (line : Text) : Prop :=
  ∀ h ∈ headings, lineMatches h line = true ↔ h = heading

structure Sections.OK (s : Sections) : Prop where
  oneLine : ∀ l ∈ s.lines, '\n' ∉ l
  before : NoHeading s.before
  peerConnectionLine : IsHeading peerConnectionHeading s.peerConnectionLine
  peerConnection : NoHeading s.peerConnection
  dataChannelLine : IsHeading dataChannelHeading s.dataChannelLine
  dataChannel : NoHeading s.dataChannel
  getStartedLine : IsHeading getStartedHeading s.getStartedLine
  getStarted : NoHeading s.getStarted

/-- Contents that an update may be given. -/
structure Insertable (content : Text) : Prop where
  plain : '\\' ∉ content
  noHeading : NoHeading (content.splitOn '\n')

theorem NoHeading.peerConnection {lines : List Text} (h : NoHeading lines) :
    peerConnectionProgram.Ignores lines :=
  fun l hl => ⟨h l hl _ peerConnectionHeading_mem, h l hl _ dataChannelHeading_mem⟩

theorem NoHeading.dataChannel {lines : List Text} (h : NoHeading lines) :
    dataChannelProgram.Ignores lines :=
  fun l hl => ⟨h l hl _ dataChannelHeading_mem, h l hl _ getStartedHeading_mem⟩

theorem IsHeading.matches {heading : String} {line : Text} (h : IsHeading heading line)
    (hmem : heading ∈ headings) : lineMatches heading line = true := (h heading hmem).mpr rfl

theorem IsHeading.other {heading h' : String} {line : Text} (h : IsHeading heading line)
    (hmem : h' ∈ headings) (hne : h' ≠ heading) : lineMatches h' line = false :=
  Bool.eq_false_iff.mpr fun hm => hne ((h h' hmem).mp hm)

variable {s : Sections} {awk : Awk} {readme : Text}

theorem Sections.OK.setPeerConnection (hs : s.OK) {content : Text} (h : Insertable content) :
    Sections.OK { s with peerConnection := content.splitOn '\n' } := by
  obtain ⟨hbefore, hpcl, -, hdcl, hdc, hgsl, hgs⟩ := Sections.forall_mem_lines.mp hs.oneLine
  have hnew : ∀ l ∈ content.splitOn '\n', '\n' ∉ l := fun _ => not_mem_of_mem_splitOn
  exact ⟨Sections.forall_mem_lines.mpr ⟨hbefore, hpcl, hnew, hdcl, hdc, hgsl, hgs⟩, hs.before,
    hs.peerConnectionLine, h.noHeading, hs.dataChannelLine, hs.dataChannel, hs.getStartedLine,
    hs.getStarted⟩

theorem Sections.OK.setDataChannel (hs : s.OK) {content : Text} (h : Insertable content) :
    Sections.OK { s with dataChannel := content.splitOn '\n' } := by
  obtain ⟨hbefore, hpcl, hpc, hdcl, -, hgsl, hgs⟩ := Sections.forall_mem_lines.mp hs.oneLine
  have hnew : ∀ l ∈ content.splitOn '\n', '\n' ∉ l := fun _ => not_mem_of_mem_splitOn
  exact ⟨Sections.forall_mem_lines.mpr ⟨hbefore, hpcl, hpc, hdcl, hnew, hgsl, hgs⟩, hs.before,
    hs.peerConnectionLine, hs.peerConnection, hs.dataChannelLine, h.noHeading, hs.getStartedLine,
    hs.getStarted⟩

/-- Contents printed at once and contents printed line by line are the same text. -/
theorem terminate_content (xs ys : List Text) (content : Text) :
    terminate '\n' (xs ++ content :: ys) = terminate '\n' (xs ++ (content.splitOn '\n' ++ ys)) := by
  rw [terminate_append, terminate_append, terminate_append, terminate_splitOn]
  simp [terminate]

/-- **The program of the peer connection workflow replaces its section.** -/
theorem update_peerConnection (hs : s.OK) (hlines : records '\n' readme = s.lines) {content : Text}
    (h : Insertable content) :
    peerConnectionProgram.update awk content readme =
      terminate '\n' ({ s with peerConnection := content.splitOn '\n' } : Sections).lines := by
  have hrest :
      peerConnectionProgram.Ignores (s.dataChannel ++ s.getStartedLine :: s.getStarted) := by
    intro l hl
    simp only [List.mem_append, List.mem_cons] at hl
    rcases hl with hl | rfl | hl
    · exact hs.dataChannel.peerConnection l hl
    · exact ⟨hs.getStartedLine.other peerConnectionHeading_mem peerConnection_ne_getStarted,
        hs.getStartedLine.other dataChannelHeading_mem dataChannel_ne_getStarted⟩
    · exact hs.getStarted.peerConnection l hl
  have hprints := prints_section (p := peerConnectionProgram) content
    hs.before.peerConnection (hs.peerConnectionLine.matches peerConnectionHeading_mem)
    hs.peerConnection.peerConnection (hs.dataChannelLine.matches dataChannelHeading_mem)
    (hs.dataChannelLine.other peerConnectionHeading_mem peerConnection_ne_dataChannel) hrest
  unfold Program.update
  rw [awk.assign_plain content h.plain, hlines]
  unfold Sections.lines
  rw [hprints, List.append_cons, terminate_content]
  simp

/-- **The program of the data channel workflow replaces its section.** -/
theorem update_dataChannel (hs : s.OK) (hlines : records '\n' readme = s.lines) {content : Text}
    (h : Insertable content) :
    dataChannelProgram.update awk content readme =
      terminate '\n' ({ s with dataChannel := content.splitOn '\n' } : Sections).lines := by
  have hfront : dataChannelProgram.Ignores
      (s.before ++ s.peerConnectionLine :: s.peerConnection) := by
    intro l hl
    simp only [List.mem_append, List.mem_cons] at hl
    rcases hl with hl | rfl | hl
    · exact hs.before.dataChannel l hl
    · exact ⟨hs.peerConnectionLine.other dataChannelHeading_mem peerConnection_ne_dataChannel.symm,
        hs.peerConnectionLine.other getStartedHeading_mem peerConnection_ne_getStarted.symm⟩
    · exact hs.peerConnection.dataChannel l hl
  have hprints := prints_section (p := dataChannelProgram) content
    hfront (hs.dataChannelLine.matches dataChannelHeading_mem)
    hs.dataChannel.dataChannel (hs.getStartedLine.matches getStartedHeading_mem)
    (hs.getStartedLine.other dataChannelHeading_mem dataChannel_ne_getStarted)
    hs.getStarted.dataChannel
  have hsplit : s.lines = s.before ++ s.peerConnectionLine :: s.peerConnection ++
      s.dataChannelLine :: (s.dataChannel ++ s.getStartedLine :: s.getStarted) := by
    simp [Sections.lines]
  unfold Program.update
  rw [awk.assign_plain content h.plain, hlines, hsplit, hprints, List.append_cons,
    terminate_content]
  simp [Sections.lines]

theorem records_lines (hs : s.OK) : records '\n' (terminate '\n' s.lines) = s.lines :=
  records_terminate hs.oneLine

/-! ### From the headings to the sections -/

/-- The pattern matches the line with this number, from 0 on, and no other. -/
structure MatchesOnly (pattern : String) (lines : List Text) (i : Nat) : Prop where
  lt : i < lines.length
  iff : ∀ n (h : n < lines.length), lineMatches pattern lines[n] = true ↔ n = i

/-- Each heading matches one line, and they come in order. -/
structure Headings (lines : List Text) (i j k : Nat) : Prop where
  peerConnection : MatchesOnly peerConnectionHeading lines i
  dataChannel : MatchesOnly dataChannelHeading lines j
  getStarted : MatchesOnly getStartedHeading lines k
  dataChannel_after : i < j
  getStarted_after : j < k

theorem take_drop_append (lines : List Text) {m n : Nat} (h : m ≤ n) :
    (lines.drop m).take (n - m) ++ lines.drop n = lines.drop m := by
  have hn : lines.drop n = (lines.drop m).drop (n - m) := by
    rw [List.drop_drop, Nat.add_sub_cancel' h]
  rw [hn, List.take_append_drop]

/-- A heading matches none of the lines with these numbers. -/
theorem Headings.noHeading {lines : List Text} {i j k : Nat} (h : Headings lines i j k)
    {ls : List Text} (hls : ∀ l ∈ ls, ∃ n, ∃ hn : n < lines.length, l = lines[n] ∧
      n ≠ i ∧ n ≠ j ∧ n ≠ k) : NoHeading ls := by
  intro l hl heading hmem
  obtain ⟨n, hn, rfl, hi, hj, hk⟩ := hls l hl
  simp only [headings, List.mem_cons, List.not_mem_nil, or_false] at hmem
  rcases hmem with rfl | rfl | rfl
  · exact Bool.eq_false_iff.mpr fun hm => hi ((h.peerConnection.iff n hn).mp hm)
  · exact Bool.eq_false_iff.mpr fun hm => hj ((h.dataChannel.iff n hn).mp hm)
  · exact Bool.eq_false_iff.mpr fun hm => hk ((h.getStarted.iff n hn).mp hm)

theorem exists_of_mem_slice {lines : List Text} {m n : Nat} {l : Text}
    (h : l ∈ (lines.drop m).take n) :
    ∃ i, ∃ hi : i < lines.length, l = lines[i] ∧ m ≤ i ∧ i < m + n := by
  obtain ⟨i, hi, rfl⟩ := List.mem_iff_getElem.mp h
  rw [List.length_take, List.length_drop] at hi
  refine ⟨m + i, by omega, ?_, by omega, by omega⟩
  rw [List.getElem_take, List.getElem_drop]

/-- The line with this number is one of the headings. -/
theorem Headings.isHeading {lines : List Text} {i j k n : Nat} (h : Headings lines i j k)
    (hn : n < lines.length) {heading : String} (hpc : peerConnectionHeading = heading ↔ n = i)
    (hdc : dataChannelHeading = heading ↔ n = j) (hgs : getStartedHeading = heading ↔ n = k) :
    IsHeading heading lines[n] := by
  intro h' hmem
  simp only [headings, List.mem_cons, List.not_mem_nil, or_false] at hmem
  rcases hmem with rfl | rfl | rfl
  · exact (h.peerConnection.iff n hn).trans hpc.symm
  · exact (h.dataChannel.iff n hn).trans hdc.symm
  · exact (h.getStarted.iff n hn).trans hgs.symm

/-- A file with the headings in order has its sections between them. -/
theorem Headings.sections {i j k : Nat} (h : Headings (records '\n' readme) i j k) :
    ∃ s : Sections, s.OK ∧ s.lines = records '\n' readme ∧
      s.before ++ [s.peerConnectionLine] = (records '\n' readme).take (i + 1) ∧
      s.before ++ s.peerConnectionLine :: s.peerConnection ++ [s.dataChannelLine] =
        (records '\n' readme).take (j + 1) ∧
      s.dataChannelLine :: (s.dataChannel ++ s.getStartedLine :: s.getStarted) =
        (records '\n' readme).drop j ∧
      s.getStartedLine :: s.getStarted = (records '\n' readme).drop k := by
  have hij := h.dataChannel_after
  have hjk := h.getStarted_after
  have hk := h.getStarted.lt
  generalize hls : records '\n' readme = ls at *
  have hone : ∀ l ∈ ls, '\n' ∉ l := fun l hl => not_mem_of_mem_records (hls ▸ hl)
  have hi : i < ls.length := by omega
  have hj : j < ls.length := by omega
  let s : Sections :=
    { before := ls.take i
      peerConnectionLine := ls[i]
      peerConnection := (ls.drop (i + 1)).take (j - (i + 1))
      dataChannelLine := ls[j]
      dataChannel := (ls.drop (j + 1)).take (k - (j + 1))
      getStartedLine := ls[k]
      getStarted := ls.drop (k + 1) }
  have hgs : s.getStartedLine :: s.getStarted = ls.drop k := (List.drop_eq_getElem_cons hk).symm
  have hdc : s.dataChannelLine :: (s.dataChannel ++ s.getStartedLine :: s.getStarted) =
      ls.drop j := by
    rw [hgs, take_drop_append ls (by omega)]
    exact (List.drop_eq_getElem_cons hj).symm
  have hpc : s.peerConnectionLine :: (s.peerConnection ++ ls.drop j) = ls.drop i := by
    rw [take_drop_append ls (by omega)]
    exact (List.drop_eq_getElem_cons hi).symm
  have hlines : s.lines = ls := by
    unfold Sections.lines
    rw [hdc, hpc]
    exact List.take_append_drop i ls
  have hfront : s.before ++ [s.peerConnectionLine] = ls.take (i + 1) :=
    (List.take_succ_eq_append_getElem hi).symm
  have hmiddle : s.before ++ s.peerConnectionLine :: s.peerConnection = ls.take j := by
    refine (List.append_left_inj (ls.drop j)).mp ?_
    rw [List.append_assoc, List.cons_append, hpc, List.take_append_drop, List.take_append_drop]
  refine ⟨s, ⟨hlines ▸ hone, ?_, ?_, ?_, ?_, ?_, ?_, ?_⟩, hlines, hfront, ?_, hdc, hgs⟩
  · refine h.noHeading fun l hl => ?_
    obtain ⟨n, hn, hl, -, hlt⟩ := exists_of_mem_slice (m := 0) (n := i) hl
    exact ⟨n, hn, hl, by omega, by omega, by omega⟩
  · exact h.isHeading hi (by simp) (iff_of_false peerConnection_ne_dataChannel.symm (by omega))
      (iff_of_false peerConnection_ne_getStarted.symm (by omega))
  · refine h.noHeading fun l hl => ?_
    obtain ⟨n, hn, hl, hle, hlt⟩ := exists_of_mem_slice hl
    exact ⟨n, hn, hl, by omega, by omega, by omega⟩
  · exact h.isHeading hj (iff_of_false peerConnection_ne_dataChannel (by omega)) (by simp)
      (iff_of_false dataChannel_ne_getStarted.symm (by omega))
  · refine h.noHeading fun l hl => ?_
    obtain ⟨n, hn, hl, hle, hlt⟩ := exists_of_mem_slice hl
    exact ⟨n, hn, hl, by omega, by omega, by omega⟩
  · exact h.isHeading hk (iff_of_false peerConnection_ne_getStarted (by omega))
      (iff_of_false dataChannel_ne_getStarted (by omega)) (by simp)
  · refine h.noHeading fun l hl => ?_
    obtain ⟨n, hn, rfl⟩ := List.mem_iff_getElem.mp hl
    rw [List.length_drop] at hn
    exact ⟨k + 1 + n, by omega, List.getElem_drop .., by omega, by omega, by omega⟩
  · rw [hmiddle]
    exact (List.take_succ_eq_append_getElem hj).symm

/--
**The two updates of a README.**

Each replaces the lines strictly between its two headings by the lines of the new
contents.  To repeat an update changes nothing, of two updates of one section the last
one wins, and updates of the two sections can be made in either order.
-/
theorem updates_replace (awk : Awk) (readme : Text) {i j k : Nat}
    (h : Headings (records '\n' readme) i j k) {P P' D D' : Text} (hP : Insertable P)
    (hP' : Insertable P') (hD : Insertable D) (hD' : Insertable D') :
    (records '\n' (peerConnectionProgram.update awk P readme) =
        (records '\n' readme).take (i + 1) ++ P.splitOn '\n' ++ (records '\n' readme).drop j ∧
      records '\n' (dataChannelProgram.update awk D readme) =
        (records '\n' readme).take (j + 1) ++ D.splitOn '\n' ++ (records '\n' readme).drop k) ∧
    (peerConnectionProgram.update awk P (peerConnectionProgram.update awk P readme) =
        peerConnectionProgram.update awk P readme ∧
      dataChannelProgram.update awk D (dataChannelProgram.update awk D readme) =
        dataChannelProgram.update awk D readme) ∧
    (peerConnectionProgram.update awk P' (peerConnectionProgram.update awk P readme) =
        peerConnectionProgram.update awk P' readme ∧
      dataChannelProgram.update awk D' (dataChannelProgram.update awk D readme) =
        dataChannelProgram.update awk D' readme) ∧
    dataChannelProgram.update awk D (peerConnectionProgram.update awk P readme) =
      peerConnectionProgram.update awk P (dataChannelProgram.update awk D readme) := by
  obtain ⟨s, hs, hlines, hfront, hmiddle, hdc, hgs⟩ := h.sections
  have hpc : ∀ {Q : Text}, Insertable Q → peerConnectionProgram.update awk Q readme =
      terminate '\n' ({ s with peerConnection := Q.splitOn '\n' } : Sections).lines :=
    fun hQ => update_peerConnection hs hlines.symm hQ
  have hdch : ∀ {Q : Text}, Insertable Q → dataChannelProgram.update awk Q readme =
      terminate '\n' ({ s with dataChannel := Q.splitOn '\n' } : Sections).lines :=
    fun hQ => update_dataChannel hs hlines.symm hQ
  have hsP := hs.setPeerConnection hP
  have hsD := hs.setDataChannel hD
  refine ⟨⟨?_, ?_⟩, ⟨?_, ?_⟩, ⟨?_, ?_⟩, ?_⟩
  · rw [hpc hP, records_lines hsP, ← hfront, ← hdc]
    simp [Sections.lines]
  · rw [hdch hD, records_lines hsD, ← hmiddle, ← hgs]
    simp [Sections.lines]
  · rw [hpc hP, update_peerConnection hsP (records_lines hsP) hP]
  · rw [hdch hD, update_dataChannel hsD (records_lines hsD) hD]
  · rw [hpc hP, hpc hP', update_peerConnection hsP (records_lines hsP) hP']
  · rw [hdch hD, hdch hD', update_dataChannel hsD (records_lines hsD) hD']
  · rw [hpc hP, hdch hD, update_dataChannel hsP (records_lines hsP) hD,
      update_peerConnection hsD (records_lines hsD) hP]

/-- An awk that knows no escape sequences. -/
def plainAwk : Awk := ⟨id, fun _ _ => rfl⟩

/-- The lines of a README with its three headings. -/
def smallReadme : List Text :=
  [[], peerConnectionHeading.toList, ['o'], dataChannelHeading.toList, ['o'],
    getStartedHeading.toList]

theorem smallReadme_updates_replace :
    records '\n' (peerConnectionProgram.update plainAwk ['n'] (terminate '\n' smallReadme)) =
      smallReadme.take 2 ++ [['n']] ++ smallReadme.drop 3 := by
  have hrec : records '\n' (terminate '\n' smallReadme) = smallReadme :=
    records_terminate (by decide +kernel)
  have hh : Headings (records '\n' (terminate '\n' smallReadme)) 1 3 5 := by
    rw [hrec]
    exact ⟨⟨by decide, by decide +kernel⟩, ⟨by decide, by decide +kernel⟩,
      ⟨by decide, by decide +kernel⟩, by decide, by decide⟩
  have hP : Insertable ['n'] := ⟨by decide, by decide +kernel⟩
  have hreplace := (updates_replace plainAwk _ hh hP hP hP hP).1.1
  rwa [hrec] at hreplace

end WebrtcEchoes.Readme
