/-
Whether a client that is started with a URL goes to that URL.

Of the nine ways to start one of three clients, seven go to the URL that was given.  The
other two are `client-datachannel.sh` of the sipsorcery and of the werift client: it makes
two more words of `-t 1`, the URL is no longer alone on the command line, and a positional
word is none of the named options; so the client tests its default URL instead.
-/
import WebrtcEchoes.Launch
import WebrtcEchoes.Proofs.Libdatachannel.Arguments

namespace WebrtcEchoes.Launch

open Libdatachannel.Arguments
open Libdatachannel.Client (Test)

/-- A character that means something to the shell. -/
def isMeta (c : Char) : Bool := "*?[]\\\"'$&|;<>()#~".toList.contains c

/-- A server URL that the shell passes on as it is. -/
structure ServerUrl where
  url : Word
  ne_nil : url ≠ []
  noBlank : url.any isBlank = false
  noMeta : url.any isMeta = false
  /-- A URL starts with its scheme. -/
  noDash : url.head? ≠ some '-'

/-- The offer is posted to this URL. -/
def Target.Is (u : Word) : Target → Prop
  | .url word => word = u
  | .serverPath server path =>
      ∃ scheme authority rest, IsUrl u scheme authority rest ∧
        server = scheme ++ "://".toList ++ authority ∧ path = '/' :: rest

/-- The client posts its offer to the URL and runs the test that is meant. -/
def Right (p : Parsers) (u : Word) (client : Client) (start : Start) : Prop :=
  ∃ r, launch p client (start.args u) = some r ∧ r.test = start.test ∧ r.target.Is u

/-! ### The words of the scripts -/

theorem pieces_of_noBlank {u : Word} (h : u.any isBlank = false) : pieces u = [u] := by
  induction u with
  | nil => rfl
  | cons c rest ih =>
      obtain ⟨hc, hrest⟩ : isBlank c = false ∧ rest.any isBlank = false := by
        simpa only [List.any_cons, Bool.or_eq_false_iff] using h
      simp [pieces, hc, ih hrest]

theorem pieces_append {u : Word} (h : u.any isBlank = false) (rest : Word) :
    pieces (u ++ ' ' :: rest) = u :: pieces rest := by
  induction u with
  | nil => simp [pieces, isBlank]
  | cons c u ih =>
      obtain ⟨hc, hrest⟩ : isBlank c = false ∧ u.any isBlank = false := by
        simpa only [List.any_cons, Bool.or_eq_false_iff] using h
      simp only [List.cons_append, pieces, hc, ih hrest, Bool.false_eq_true, if_false]

theorem args_url (u : ServerUrl) : Start.url.args u.url = [u.url] := by
  simp [Start.args, clientSh, fieldSplit, pieces_of_noBlank u.noBlank, u.ne_nil]

theorem args_options (u : ServerUrl) :
    Start.options.args u.url = [dashS, u.url, dashT, testWord .dataChannel] := by
  have hline : "-s ".toList ++ u.url ++ " -t 1".toList =
      dashS ++ ' ' :: (u.url ++ ' ' :: (dashT ++ ' ' :: testWord .dataChannel)) := by
    simp [dashS, dashT, testWord]
  simp only [Start.args, clientSh, fieldSplit, hline]
  rw [pieces_append (by decide), pieces_append u.noBlank, pieces_append (by decide),
    pieces_of_noBlank (by decide)]
  simp [u.ne_nil, dashS, dashT, testWord]

theorem args_dataChannel (u : ServerUrl) :
    Start.dataChannel.args u.url = [u.url, dashT, testWord .dataChannel] := by
  simp [Start.args, clientDatachannelSh, fieldSplit, pieces_of_noBlank u.noBlank, u.ne_nil]

/-! ### The clients with named options -/

/-- The line that a start makes of a URL. -/
def Start.items (u : Word) : Start → List Item
  | .url => [.positional u]
  | .options => [.s u, .t .dataChannel]
  | .dataChannel => [.positional u, .t .dataChannel]

theorem args_eq_items (u : ServerUrl) (start : Start) :
    start.args u.url = (start.items u.url).flatMap Item.words := by
  cases start with
  | url => exact args_url u
  | options => exact args_options u
  | dataChannel => exact args_dataChannel u

theorem proper_items (u : ServerUrl) (start : Start) : Proper (start.items u.url) := by
  have hword : ∀ word ∈ [u.url], word ≠ [] ∧ word.head? ≠ some '-' := by
    intro word hmem
    rw [List.mem_singleton.mp hmem]
    exact ⟨u.ne_nil, u.noDash⟩
  cases start with
  | url => exact ⟨Nat.zero_le 1, Nat.zero_le 1, hword⟩
  | options => exact ⟨Nat.le_refl 1, Nat.le_refl 1, hword⟩
  | dataChannel => exact ⟨Nat.zero_le 1, Nat.le_refl 1, hword⟩

/-- Where a client goes that takes a URL only when it is named or alone. -/
def Start.goesTo (u : Word) : Start → Word
  | .dataChannel => defaultUrl
  | _ => u

theorem withOptions_url {o : Sipsorcery.Client.Options} {u : Word} (hne : u ≠ [])
    (h : o.serverUrl = some u) :
    (Sipsorcery.Client.withOptions (some o)).echoServerUrl = u := by
  cases u with
  | nil => exact absurd rfl hne
  | cons c rest => simp [Sipsorcery.Client.withOptions, h]

/-- A run of the sipsorcery client whose arguments are for the parser. -/
theorem launch_withOptions (p : Parsers) {args : List Word} {o : Sipsorcery.Client.Options}
    {u : Word} {test : Test}
    (h : Sipsorcery.Client.settings p.parseArguments args = Sipsorcery.Client.withOptions (some o))
    (hne : u ≠ []) (hurl : o.serverUrl = some u) (htest : o.testType = sipsorceryTest test) :
    launch p .sipsorcery args = some ⟨test, .url u⟩ := by
  have hof : sipsorceryTestOf (sipsorceryTest test) = test := by cases test <;> rfl
  show some (Run.mk (sipsorceryTestOf (Sipsorcery.Client.settings p.parseArguments args).testType)
    (.url (Sipsorcery.Client.settings p.parseArguments args).echoServerUrl)) = _
  rw [h, withOptions_url hne hurl]
  show some (Run.mk (sipsorceryTestOf o.testType) (.url u)) = _
  rw [htest, hof]

/-- **The sipsorcery client leaves a URL out that is neither alone nor named.** -/
theorem launch_sipsorcery (p : Parsers) (u : ServerUrl) (start : Start) :
    launch p .sipsorcery (start.args u.url) = some ⟨start.test, .url (start.goesTo u.url)⟩ := by
  obtain ⟨o, hparse, hurl, htest⟩ := p.parseArguments_binds _ (proper_items u start)
  rw [← args_eq_items] at hparse
  cases start with
  | url =>
      rw [args_url]
      rfl
  | options =>
      refine launch_withOptions p ?_ u.ne_nil hurl htest
      rw [← hparse, args_options]
      rfl
  | dataChannel =>
      have hne : defaultUrl ≠ [] := by decide
      refine launch_withOptions p ?_ hne hurl htest
      rw [← hparse, args_dataChannel]
      rfl

/-- **And so does the werift client.** -/
theorem launch_werift (p : Parsers) (u : ServerUrl) (start : Start) :
    launch p .werift (start.args u.url) = some ⟨start.test, .url (start.goesTo u.url)⟩ := by
  have hbind := p.yargs_binds (Werift.Client.defaults (processArgv (start.args u.url))) _
    (proper_items u start)
  rw [← args_eq_items] at hbind
  have hargs : Werift.Client.args p.yargs (processArgv (start.args u.url)) = _ := hbind
  rw [launch, hargs]
  cases start with
  | url =>
      have hdefault : (Werift.Client.defaults (processArgv (Start.url.args u.url))).s = u.url := by
        obtain ⟨c, rest, hcons⟩ := List.exists_cons_of_ne_nil u.ne_nil
        rw [args_url, hcons]
        rfl
      show some (Run.mk _ (.url (Werift.Client.defaults _).s)) = _
      rw [hdefault]
      rfl
  | options => rfl
  | dataChannel =>
      have hdefault :
          (Werift.Client.defaults (processArgv (Start.dataChannel.args u.url))).s =
            defaultUrl := by
        rw [args_dataChannel]
        rfl
      show some (Run.mk _ (.url (Werift.Client.defaults _).s)) = _
      rw [hdefault]
      rfl

/-! ### The libdatachannel client -/

/-- The same line, as this client reads it. -/
def Start.line (u : ServerUrl) : Start → Line
  | .url => ⟨some u.url, [], fun _ h => by rw [← Option.some.inj h]; exact u.noDash⟩
  | .options => ⟨none, [.s u.url, .t (testWord .dataChannel)], by simp⟩
  | .dataChannel =>
      ⟨some u.url, [.t (testWord .dataChannel)],
        fun _ h => by rw [← Option.some.inj h]; exact u.noDash⟩

theorem args_eq_line (u : ServerUrl) (start : Start) :
    start.args u.url = (start.line u).words := by
  cases start with
  | url => exact args_url u
  | options => exact args_options u
  | dataChannel => exact args_dataChannel u

/-- **The libdatachannel client finds the URL whenever it comes first or is named.** -/
theorem frontEnd_start (overflow : Int → Int) (u : ServerUrl) (start : Start) :
    frontEnd "/app/client" overflow (start.args u.url) =
      check ⟨testNumber start.test, u.url⟩ := by
  rw [args_eq_line, frontEnd_line]
  cases start with
  | url => rfl
  | options => rfl
  | dataChannel => rfl

/-- A URL with one segment at most behind its authority. -/
def OneSegment (u : Word) : Prop :=
  ∃ scheme authority path, IsUrl u scheme authority path ∧ '/' ∉ path

theorem right_libdatachannel_iff (p : Parsers) (u : ServerUrl) (start : Start) :
    Right p u.url .libdatachannel start ↔ OneSegment u.url := by
  simp only [Right, launch, frontEnd_start]
  refine ⟨?_, ?_⟩
  · rintro ⟨r, hrun, -, his⟩
    split at hrun
    · rename_i a hcheck
      obtain rfl := Option.some.inj hrun
      obtain ⟨server, rest, -, -, hrest, ha⟩ := check_eq_accepted.mp hcheck
      obtain ⟨scheme, authority, path, hurl, -, hpath⟩ := his
      rw [ha] at hpath
      obtain rfl : rest = path := (List.cons.inj hpath).2
      exact ⟨scheme, authority, rest, hurl, hrest⟩
    · simp at hrun
  · rintro ⟨scheme, authority, path, hurl, hslash⟩
    have hcheck : check ⟨testNumber start.test, u.url⟩ =
        .accepted ⟨start.test, u.url, scheme ++ "://".toList ++ authority, '/' :: path⟩ :=
      check_eq_accepted.mpr
        ⟨scheme ++ "://".toList ++ authority, path, rfl, hurl.eq, hslash, rfl⟩
    rw [hcheck]
    exact ⟨_, rfl, rfl, scheme, authority, path, hurl, rfl, rfl⟩

/-! ### All of them -/

/-- The two clients with named options go to the URL except with `client-datachannel.sh`. -/
theorem goesTo_eq_iff (u : Word) (start : Start) :
    start.goesTo u = u ↔ (start = .dataChannel → u = defaultUrl) := by
  cases start with
  | url => simp [Start.goesTo]
  | options => simp [Start.goesTo]
  | dataChannel => simp [Start.goesTo, eq_comm]

theorem right_sipsorcery_iff (p : Parsers) (u : ServerUrl) (start : Start) :
    Right p u.url .sipsorcery start ↔ (start = .dataChannel → u.url = defaultUrl) := by
  rw [← goesTo_eq_iff]
  simp only [Right, launch_sipsorcery, Option.some.injEq, exists_eq_left', true_and, Target.Is]

theorem right_werift_iff (p : Parsers) (u : ServerUrl) (start : Start) :
    Right p u.url .werift start ↔ (start = .dataChannel → u.url = defaultUrl) := by
  rw [← goesTo_eq_iff]
  simp only [Right, launch_werift, Option.some.injEq, exists_eq_left', true_and, Target.Is]

/-- When a client that is started in one of the three ways goes to its URL. -/
def Found (u : Word) : Client → Start → Prop
  | .libdatachannel, _ => OneSegment u
  | .sipsorcery, .dataChannel => u = "http://localhost:8080/offer".toList
  | .werift, .dataChannel => u = "http://localhost:8080/offer".toList
  | _, _ => True

/--
**When a client goes to the URL it is started with.**

For each of the nine ways to start one of the three clients: the offer is posted to `u`
and the test is the one that is meant, if and only if the URL has one segment for the
libdatachannel client, always for the other two under `client.sh`, and under
`client-datachannel.sh` only where `u` is the URL that they go to when they are given none.
-/
theorem conventions_agree_iff (p : Parsers) (u : ServerUrl) (client : Client) (start : Start) :
    Right p u.url client start ↔ Found u.url client start := by
  cases client with
  | libdatachannel => exact right_libdatachannel_iff p u start
  | sipsorcery =>
      rw [right_sipsorcery_iff]
      cases start with
      | url => exact iff_of_true (fun h => absurd h (by decide)) trivial
      | options => exact iff_of_true (fun h => absurd h (by decide)) trivial
      | dataChannel => exact ⟨fun h => h rfl, fun h _ => h⟩
  | werift =>
      rw [right_werift_iff]
      cases start with
      | url => exact iff_of_true (fun h => absurd h (by decide)) trivial
      | options => exact iff_of_true (fun h => absurd h (by decide)) trivial
      | dataChannel => exact ⟨fun h => h rfl, fun h _ => h⟩

/-! ### A pair of parsers -/

/-- The first `-s` and the first `-t` of a command line. -/
def bind : List Word → Option Word × Option Test
  | [] => (none, none)
  | [_] => (none, none)
  | name :: value :: rest =>
      if name = dashS then (some value, (bind rest).2)
      else if name = dashT then
        ((bind rest).1,
          some (if value = testWord .dataChannel then .dataChannel else .peerConnection))
      else bind (value :: rest)

theorem bind_items : ∀ items : List Item,
    (∀ word ∈ items.filterMap Item.word?, word.head? ≠ some '-') →
    bind (items.flatMap Item.words) =
      ((items.filterMap Item.url?).head?, (items.filterMap Item.test?).head?) := by
  intro items
  induction items with
  | nil => intro _; rfl
  | cons item items ih =>
      intro hword
      have hrest := ih fun word hmem => hword word (by
        cases item <;> simp_all [Item.word?])
      cases item with
      | s url =>
          show bind (dashS :: url :: items.flatMap Item.words) = _
          rw [bind, if_pos rfl, hrest]
          rfl
      | t test =>
          show bind (dashT :: testWord test :: items.flatMap Item.words) = _
          rw [bind, if_neg (by decide), if_pos rfl, hrest]
          cases test <;> rfl
      | positional word =>
          have hdash : word.head? ≠ some '-' := hword word (by simp [Item.word?])
          have hs : word ≠ dashS := fun h => hdash (by rw [h]; rfl)
          have ht : word ≠ dashT := fun h => hdash (by rw [h]; rfl)
          show bind (word :: items.flatMap Item.words) = _
          cases hwords : items.flatMap Item.words with
          | nil =>
              rw [hwords] at hrest
              rw [bind]
              exact hrest
          | cons value rest =>
              rw [hwords] at hrest
              rw [bind, if_neg hs, if_neg ht, hrest]
              rfl

/-- Parsers that bind the first `-s` and the first `-t`. -/
def firstParsers : Parsers where
  overflow := id
  parseArguments args :=
    some ⟨some ((bind args).1.getD Sipsorcery.Client.defaultEchoServerUrl),
      sipsorceryTest ((bind args).2.getD .peerConnection), 10⟩
  yargs defaults args :=
    some ⟨(bind args).1.getD defaults.s, ((bind args).2.map weriftTest).getD defaults.t⟩
  parseArguments_binds items h := by
    have hbind := bind_items items fun word hmem => (h.word word hmem).2
    exact ⟨_, rfl, by rw [hbind], by rw [hbind]⟩
  yargs_binds defaults items h := by
    rw [bind_items items fun word hmem => (h.word word hmem).2]

/-- The URL of the echo server in a container. -/
def echoServer : ServerUrl where
  url := "http://echo-server:8080/offer".toList
  ne_nil := by decide
  noBlank := by decide
  noMeta := by decide
  noDash := by decide

/-- `client-datachannel.sh` of the sipsorcery image tests localhost instead. -/
theorem echoServer_not_tested :
    launch firstParsers .sipsorcery (Start.dataChannel.args echoServer.url) =
        some ⟨.dataChannel, .url "http://localhost:8080/offer".toList⟩ ∧
      ¬ ∀ client start, Right firstParsers echoServer.url client start := by
  refine ⟨launch_sipsorcery firstParsers echoServer .dataChannel, fun h => ?_⟩
  have hurl := (right_sipsorcery_iff firstParsers echoServer .dataChannel).mp
    (h .sipsorcery .dataChannel) rfl
  exact absurd hurl (by decide)

end WebrtcEchoes.Launch
