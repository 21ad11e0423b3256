/-
From an echo on a data channel to a badge in the README.

The workflow `datachannel_echo-test.yml` runs each of the three clients against each of
the three servers and publishes the exit statuses of the clients.  A badge is green when
the status is 0, and the status is 0 when the string has made its round trip; so a badge
tells whether it has.
-/
import WebrtcEchoes.Proofs.Actions.Publication
import WebrtcEchoes.Proofs.Interop

namespace WebrtcEchoes.Actions

open WebrtcEchoes.Lines
open WebrtcEchoes.Collate
open WebrtcEchoes.Readme
open WebrtcEchoes.Interop (Library Job client server)
open WebrtcEchoes.EchoTest (RoundTrip)

/-- The jobs of one run of the workflow: each has a server, a client, a string and an end. -/
structure EchoJobs (decoder : Werift.Echo.TextDecoder) where
  url : String
  /-- The channel and the random string of the job of a server and a client. -/
  channel : Library → Library → Nat
  sent : Library → Library → String
  job : ∀ s c, Job decoder (channel s c) url (sent s c) s c
  finished : List (String × String)
  perm : finished.Perm dataChannelEchoTest.matrix

namespace EchoJobs

variable {decoder : Werift.Echo.TextDecoder}

/-- The library of a name in the matrix. -/
def libraryOf (name : String) : Option Library :=
  [Library.libdatachannel, .sipsorcery, .werift].find? fun l => l.name = name

@[simp] theorem libraryOf_name (l : Library) : libraryOf l.name = some l := by
  cases l with
  | libdatachannel => decide
  | sipsorcery => decide
  | werift => decide

/-- The exit status of the client in the job of a pair. -/
def exitStatus (x : EchoJobs decoder) (pair : String × String) : Nat :=
  match libraryOf pair.1, libraryOf pair.2 with
  | some s, some c => (x.job s c).result
  | _, _ => 1

/-- The run of the workflow with these jobs. -/
def run (x : EchoJobs decoder) (now : Timestamp) : Run where
  test := .dataChannelEcho
  jobs := { exitStatus := x.exitStatus, finished := x.finished, perm := x.perm }
  now := now
  pullRequest := false

/-- The string of a job came back in time. -/
def Echoed (x : EchoJobs decoder) (s c : Library) : Prop :=
  RoundTrip (client (x.channel s c) x.url (x.sent s c) c)
      (server decoder (x.channel s c) (x.sent s c) s) (x.job s c).events ∧
    ¬ (client (x.channel s c) x.url (x.sent s c) c).Aborted (x.job s c).result

theorem name_mem (l : Library) :
    l.name ∈ dataChannelEchoTest.server ∧ l.name ∈ dataChannelEchoTest.client := by
  cases l with
  | libdatachannel => decide
  | sipsorcery => decide
  | werift => decide

theorem passes_iff (x : EchoJobs decoder) (now : Timestamp) (s c : Library) :
    (x.run now).Passes s.name c.name ↔ x.Echoed s c := by
  have hstatus : x.exitStatus (s.name, c.name) = (x.job s c).result := by
    simp [exitStatus]
  have hverdict : (x.job s c).result = 0 ↔ x.Echoed s c := by
    obtain ⟨t, ht, hexit⟩ := (x.job s c).final
    exact EchoTest.exit_zero_iff ht hexit
  rw [← hverdict, ← hstatus]
  exact ⟨fun h => h.2.2, fun h => ⟨(name_mem s).1, (name_mem c).2, h⟩⟩

/--
**A badge of the data channel test tells whether the string came back.**

Whatever runs there have been before, when the jobs of a run have ended in any way and
their results are pushed, the README shows a server and a client as passing just when in
their job the string of the client made its round trip through the server in time.
-/
theorem badges_tell_echoes (awk : Awk) (repo : Repo) {i j k : Nat}
    (h : Headings (records '\n' repo.readme) i j k) (before : List Run) (x : EchoJobs decoder)
    (now : Timestamp) :
    ∃ reading,
      readTable ((readSection dataChannelProgram
        (records '\n' (pushes awk repo (before ++ [x.run now])).readme)).map String.ofList) =
          some reading ∧
      ∀ s c : Library, (s.name, c.name) ∈ reading.passing ↔ x.Echoed s c := by
  have hlast : latest .dataChannelEcho (before ++ [x.run now]) = some (x.run now) := by
    rw [latest_snoc]
    exact if_pos ⟨rfl, rfl⟩
  obtain ⟨reading, hread, hpassing⟩ := (x.run now).read_section
  refine ⟨reading, ?_, fun s c => ?_⟩
  · have hshown := readSection_pushes awk h hlast
    rw [← hread, ← hshown]
    rfl
  · rw [hpassing, passes_iff]

/-! ### An example -/

theorem open_init (dc : Nat) (url sent : String) (c : Library) :
    (client dc url sent c).Open (client dc url sent c).party.init := by
  cases c with
  | libdatachannel => exact ⟨rfl, rfl⟩
  | sipsorcery => exact ⟨rfl, rfl⟩
  | werift => exact ⟨rfl, rfl⟩

theorem exists_passing (decoder : Werift.Echo.TextDecoder) (dc : Nat) (url sent : String)
    (s c : Library) : ∃ x : Job decoder dc url sent s c, x.result = 0 := by
  have hinit : (EchoTest.system (client dc url sent c) (server decoder dc sent s)).run [] =
      some (EchoTest.system (client dc url sent c) (server decoder dc sent s)).init := rfl
  obtain ⟨fs, t, hrun, hexit, -⟩ := EchoTest.can_succeed hinit (open_init dc url sent c)
  refine ⟨⟨fs, 0, ?_⟩, rfl⟩
  rw [List.nil_append] at hrun
  rw [hrun]
  exact hexit

/-- Nine jobs that pass, and nine green badges. -/
theorem all_green :
    ∃ (x : EchoJobs Werift.Echo.bufferToString) (reading : Reading),
      readTable ((readSection dataChannelProgram
        (records '\n' (pushes plainAwk smallRepo
          ([weriftFails] ++ [x.run ⟨"2025-01-01", newYear_chars⟩])).readme)).map String.ofList) =
            some reading ∧
      ∀ s c : Library, (s.name, c.name) ∈ reading.passing := by
  have hheadings : Headings (records '\n' smallRepo.readme) 1 3 5 :=
    smallRepo_records ▸ smallReadme_headings
  choose job hjob using fun s c : Library =>
    exists_passing Werift.Echo.bufferToString 1 "http://echo-server:8080/offer" "12345" s c
  let x : EchoJobs Werift.Echo.bufferToString :=
    { url := "http://echo-server:8080/offer"
      channel := fun _ _ => 1
      sent := fun _ _ => "12345"
      job := job
      finished := dataChannelEchoTest.matrix
      perm := List.Perm.refl _ }
  obtain ⟨reading, hread, hpassing⟩ := badges_tell_echoes plainAwk smallRepo hheadings [weriftFails]
    x ⟨"2025-01-01", newYear_chars⟩
  refine ⟨x, reading, hread, fun s c => (hpassing s c).mpr ?_⟩
  obtain ⟨t, ht, hexit⟩ := (job s c).final
  exact (EchoTest.exit_zero_iff ht hexit).mp (hjob s c)

end EchoJobs

end WebrtcEchoes.Actions
