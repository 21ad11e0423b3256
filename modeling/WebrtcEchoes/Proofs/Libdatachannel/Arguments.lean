/-
The language that the libdatachannel client accepts on its command line.

A `Line` is a command line as the usage text has it: at most one leading URL, and then
options with their arguments.  The loop accepts exactly the words of a line, and stops at
`-h` behind the words of a line.  What the client takes for the number and how it splits
the URL then decides whether the accepted lines are those they should be: `atoi` reads a
number out of words that are none, and the split is at the last slash of the URL and not at
the first one of its path.
-/
import WebrtcEchoes.Libdatachannel.Arguments
import Mathlib.Data.List.Basic
import Mathlib.Data.List.TakeWhile

namespace WebrtcEchoes.Libdatachannel.Arguments

open Client

/-! ### Lines -/

/-- An option with its argument. -/
inductive Opt
  | t (number : Word)
  | s (url : Word)
  deriving DecidableEq, Repr

def Opt.words : Opt → List Word
  | .t number => [['-', 't'], number]
  | .s url => [['-', 's'], url]

/-- A leading URL, which does not start with a dash, and options. -/
structure Line where
  lead : Option Word
  opts : List Opt
  noDash : ∀ url, lead = some url → url.head? ≠ some '-'

def Line.words (l : Line) : List Word := l.lead.toList ++ l.opts.flatMap Opt.words

def Opt.number? : Opt → Option Word
  | .t number => some number
  | .s _ => none

def Opt.url? : Opt → Option Word
  | .t _ => none
  | .s url => some url

/-- The number in force. -/
def Line.number (l : Line) : Option Word := (l.opts.filterMap Opt.number?).getLast?

/-- The URL in force. -/
def Line.url (l : Line) : Word :=
  (l.opts.filterMap Opt.url?).getLast?.getD (l.lead.getD defaultUrl)

/-- A decimal integer: digits behind an optional sign. -/
def decimal : Word → Option Int
  | '-' :: digits =>
      if digits ≠ [] ∧ digits.all Char.isDigit then some (-(digitsValue digits)) else none
  | '+' :: digits =>
      if digits ≠ [] ∧ digits.all Char.isDigit then some (digitsValue digits) else none
  | digits => if digits ≠ [] ∧ digits.all Char.isDigit then some (digitsValue digits) else none

/-- The number of the test, 0 where none is given. -/
def Line.value (l : Line) : Option Int :=
  match l.number with
  | none => some 0
  | some number => decimal number

/-- The number that selects a test. -/
def testNumber : Test → Int
  | .peerConnection => 0
  | .dataChannel => 1

/-- The words are those of a line that gives this test and this URL. -/
def Accepts (args : List Word) (test : Test) (url : Word) : Prop :=
  ∃ l : Line, l.words = args ∧ l.url = url ∧ '/' ∈ url ∧ l.value = some (testNumber test)

/-- The words of a line, and then `-h`. -/
def AsksUsage (args : List Word) : Prop :=
  ∃ (l : Line) (rest : List Word), args = l.words ++ ['-', 'h'] :: rest

/-! ### The words of a line are its own -/

theorem opts_eq_of_words : ∀ opts opts' : List Opt,
    opts.flatMap Opt.words = opts'.flatMap Opt.words → opts = opts' := by
  intro opts
  induction opts with
  | nil =>
      intro opts' h
      cases opts' with
      | nil => rfl
      | cons opt rest => cases opt <;> simp [Opt.words] at h
  | cons opt rest ih =>
      intro opts' h
      cases opts' with
      | nil => cases opt <;> simp [Opt.words] at h
      | cons opt' rest' =>
          cases opt with
          | t n =>
              cases opt' with
              | t n' =>
                  obtain ⟨rfl, hrest⟩ :
                      n = n' ∧ rest.flatMap Opt.words = rest'.flatMap Opt.words := by
                    simpa [Opt.words] using h
                  rw [ih rest' hrest]
              | s u => simp [Opt.words] at h
          | s u =>
              cases opt' with
              | t n' => simp [Opt.words] at h
              | s u' =>
                  obtain ⟨rfl, hrest⟩ :
                      u = u' ∧ rest.flatMap Opt.words = rest'.flatMap Opt.words := by
                    simpa [Opt.words] using h
                  rw [ih rest' hrest]

theorem head?_opts_words (opts : List Opt) :
    ∀ word, (opts.flatMap Opt.words).head? = some word → word.head? = some '-' := by
  intro word h
  cases opts with
  | nil => simp at h
  | cons opt rest =>
      cases opt with
      | t n =>
          obtain rfl : ['-', 't'] = word := by simpa [Opt.words] using h
          rfl
      | s u =>
          obtain rfl : ['-', 's'] = word := by simpa [Opt.words] using h
          rfl

theorem Line.eq_of_words {l l' : Line} (h : l.words = l'.words) : l = l' := by
  obtain ⟨lead, opts, hdash⟩ := l
  obtain ⟨lead', opts', hdash'⟩ := l'
  have hwords : lead.toList ++ opts.flatMap Opt.words =
      lead'.toList ++ opts'.flatMap Opt.words := h
  cases lead with
  | none =>
      cases lead' with
      | none =>
          obtain rfl := opts_eq_of_words opts opts' (by simpa using hwords)
          rfl
      | some url =>
          refine absurd ?_ (hdash' url rfl)
          exact head?_opts_words opts url (by simpa using congrArg List.head? hwords)
  | some url =>
      cases lead' with
      | none =>
          refine absurd ?_ (hdash url rfl)
          exact head?_opts_words opts' url (by simpa using (congrArg List.head? hwords).symm)
      | some url' =>
          obtain ⟨rfl, hopts⟩ : url = url' ∧ opts.flatMap Opt.words = opts'.flatMap Opt.words := by
            simpa using hwords
          obtain rfl := opts_eq_of_words opts opts' hopts
          rfl

/-! ### The loop -/

variable {argv0 : String} {overflow : Int → Int}

/-- What an option does to the two variables. -/
def Opt.apply (overflow : Int → Int) (o : Options) : Opt → Options
  | .t number => { o with test := atoi overflow number }
  | .s url => { o with url := url }

/-- The variables behind the loop over the words of a line. -/
def Line.options (overflow : Int → Int) (l : Line) : Options :=
  l.opts.foldl (Opt.apply overflow) ⟨0, l.lead.getD defaultUrl⟩

/-- A word that is taken for an option. -/
def IsDashed (word : Word) : Prop := word.head? = some '-'

theorem parseFrom_usage (i : Nat) (o : Options) (rest : List Word) :
    parseFrom argv0 overflow i o (['-', 'h'] :: rest) = .usage (usageText argv0) := by
  cases rest <;> simp [parseFrom]

/-- An option that is not known. -/
theorem parseFrom_unknown (i : Nat) (o : Options) {option : Word} (rest : List Word)
    (hh : option ≠ ['h']) (ht : option ≠ ['t']) (hs : option ≠ ['s']) :
    parseFrom argv0 overflow i o (('-' :: option) :: rest) =
      .throws ("Unknown option \"" ++ String.ofList option ++ "\"") := by
  cases rest <;> simp [parseFrom, hh, ht, hs]

/-- A word that is not taken for an option. -/
theorem parseFrom_positional (i : Nat) (o : Options) {word : Word} (rest : List Word)
    (hdash : ¬ IsDashed word) :
    parseFrom argv0 overflow i o (word :: rest) =
      if 1 < i then
        .throws ("Unexpected positional argument \"" ++ String.ofList word ++ "\"")
      else parseFrom argv0 overflow (i + 1) { o with url := word } rest := by
  cases word with
  | nil => rw [parseFrom]; simp
  | cons c cs =>
      have hc : c ≠ '-' := fun hc => hdash (by simp [IsDashed, hc])
      rw [parseFrom]
      intro option hcons
      exact hc (List.cons.inj hcons).1

theorem parseFrom_opts (opts : List Opt) :
    ∀ (i : Nat) (o : Options) (rest : List Word),
      parseFrom argv0 overflow i o (opts.flatMap Opt.words ++ rest) =
        parseFrom argv0 overflow (i + 2 * opts.length) (opts.foldl (Opt.apply overflow) o)
          rest := by
  induction opts with
  | nil => intro i o rest; rfl
  | cons opt opts ih =>
      intro i o rest
      have hlen : i + 2 * (opts.length + 1) = i + 2 + 2 * opts.length := by omega
      rw [List.length_cons, hlen]
      cases opt with
      | t number =>
          rw [List.foldl_cons, ← ih]
          simp [Opt.words, parseFrom, Opt.apply]
      | s url =>
          rw [List.foldl_cons, ← ih]
          simp [Opt.words, parseFrom, Opt.apply]

/-- The leading URL is taken before the options. -/
theorem parse_words (argv0 : String) (overflow : Int → Int) (l : Line) (rest : List Word) :
    ∃ i, 1 ≤ i ∧ parse argv0 overflow (l.words ++ rest) =
      parseFrom argv0 overflow i (l.options overflow) rest ∧ (l.words ≠ [] → 1 < i) := by
  obtain ⟨lead, opts, hdash⟩ := l
  cases lead with
  | none =>
      refine ⟨1 + 2 * opts.length, by omega, ?_, ?_⟩
      · show parseFrom argv0 overflow 1 _ (opts.flatMap Opt.words ++ rest) = _
        rw [parseFrom_opts]
        rfl
      · intro h
        cases opts with
        | nil => exact absurd rfl h
        | cons opt opts => simp only [List.length_cons]; omega
  | some url =>
      refine ⟨2 + 2 * opts.length, by omega, ?_, fun _ => by omega⟩
      have hlead : parse argv0 overflow (url :: (opts.flatMap Opt.words ++ rest)) =
          parseFrom argv0 overflow 2 ⟨0, url⟩ (opts.flatMap Opt.words ++ rest) := by
        rw [parse, parseFrom_positional _ _ _ (hdash url rfl), if_neg (Nat.lt_irrefl 1)]
      show parse argv0 overflow (url :: (opts.flatMap Opt.words ++ rest)) = _
      rw [hlead, parseFrom_opts]
      rfl

/-- No option with its argument comes first. -/
def Stuck (rest : List Word) : Prop := ∀ (opt : Opt) (more : List Word), rest ≠ opt.words ++ more

theorem exists_opts : ∀ (n : Nat) (args : List Word), args.length ≤ n →
    ∃ (opts : List Opt) (rest : List Word), args = opts.flatMap Opt.words ++ rest ∧ Stuck rest := by
  intro n
  induction n with
  | zero =>
      intro args hlen
      obtain rfl : args = [] := List.length_eq_zero_iff.mp (by omega)
      refine ⟨[], [], rfl, fun opt more h => ?_⟩
      cases opt <;> simp [Opt.words] at h
  | succ n ih =>
      intro args hlen
      by_cases hstuck : Stuck args
      · exact ⟨[], args, rfl, hstuck⟩
      · obtain ⟨opt, more, rfl⟩ : ∃ opt more, args = Opt.words opt ++ more := by
          simpa [Stuck] using hstuck
        have hmore : more.length ≤ n := by
          rw [List.length_append] at hlen
          cases opt <;> simp [Opt.words] at hlen <;> omega
        obtain ⟨opts, rest, rfl, hrest⟩ := ih more hmore
        exact ⟨opt :: opts, rest, by simp, hrest⟩

/-- Every command line is a line and something that no option starts; before the first
word of a line there is no leading URL either. -/
theorem exists_line (args : List Word) :
    ∃ (l : Line) (rest : List Word), args = l.words ++ rest ∧ Stuck rest ∧
      (l.words = [] → ∀ word ∈ rest.head?, IsDashed word) := by
  have hopts : ∀ rest : List Word, (∀ word ∈ rest.head?, IsDashed word) →
      ∃ (l : Line) (more : List Word), rest = l.words ++ more ∧ Stuck more ∧
        (l.words = [] → ∀ word ∈ more.head?, IsDashed word) := by
    intro rest hhead
    obtain ⟨opts, more, rfl, hmore⟩ := exists_opts _ rest (Nat.le_refl _)
    refine ⟨⟨none, opts, by simp⟩, more, rfl, hmore, fun hnil => ?_⟩
    have hnil' : opts.flatMap Opt.words = [] := hnil
    simpa [hnil'] using hhead
  cases args with
  | nil => exact hopts [] (by simp)
  | cons word args =>
      by_cases hdash : IsDashed word
      · exact hopts (word :: args) (by simpa using hdash)
      · obtain ⟨opts, rest, rfl, hrest⟩ := exists_opts _ args (Nat.le_refl _)
        refine ⟨⟨some word, opts, ?_⟩, rest, rfl, hrest, fun hnil => ?_⟩
        · rintro url hurl
          obtain rfl : word = url := by simpa using hurl
          exact hdash
        · simp [Line.words] at hnil

/-- Where no option can be taken the loop is over, prints the usage or throws. -/
theorem parseFrom_stuck {i : Nat} {o : Options} {rest : List Word} (hstuck : Stuck rest)
    (hi : 1 < i ∨ ∀ word ∈ rest.head?, IsDashed word) :
    rest = [] ∨ (∃ more, rest = ['-', 'h'] :: more) ∨
      ∃ what, parseFrom argv0 overflow i o rest = .throws what := by
  cases rest with
  | nil => exact Or.inl rfl
  | cons word more =>
      refine Or.inr ?_
      by_cases hdash : IsDashed word
      · obtain ⟨option, rfl⟩ : ∃ option, word = '-' :: option := by
          cases word with
          | nil => simp [IsDashed] at hdash
          | cons c option =>
              obtain rfl : c = '-' := by simpa [IsDashed] using hdash
              exact ⟨option, rfl⟩
        by_cases hh : option = ['h']
        · exact Or.inl ⟨more, by rw [hh]⟩
        · refine Or.inr ?_
          by_cases ht : option = ['t']
          · subst ht
            cases more with
            | nil => exact ⟨"Missing argument for option \"t\"", by simp [parseFrom]⟩
            | cons number more => exact absurd rfl (hstuck (.t number) more)
          · by_cases hs : option = ['s']
            · subst hs
              cases more with
              | nil => exact ⟨"Missing argument for option \"s\"", by simp [parseFrom]⟩
              | cons url more => exact absurd rfl (hstuck (.s url) more)
            · exact ⟨_, parseFrom_unknown i o more hh ht hs⟩
      · have hlt : 1 < i := by
          rcases hi with hi | hi
          · exact hi
          · exact absurd (hi word rfl) hdash
        exact Or.inr ⟨_, by rw [parseFrom_positional i o more hdash, if_pos hlt]⟩

/-- **A command line is a line, asks for the usage or is refused.** -/
theorem parse_cases (argv0 : String) (overflow : Int → Int) (args : List Word) :
    (∃ l : Line, l.words = args) ∨ AsksUsage args ∨
      ∃ what, parse argv0 overflow args = .throws what := by
  obtain ⟨l, rest, rfl, hstuck, hhead⟩ := exists_line args
  obtain ⟨i, -, hparse, hi⟩ := parse_words argv0 overflow l rest
  have hpos : 1 < i ∨ ∀ word ∈ rest.head?, IsDashed word := by
    by_cases hnil : l.words = []
    · exact Or.inr (hhead hnil)
    · exact Or.inl (hi hnil)
  rw [hparse]
  rcases parseFrom_stuck (o := l.options overflow) hstuck hpos with rfl | ⟨more, rfl⟩ | hthrows
  · exact Or.inl ⟨l, by simp⟩
  · exact Or.inr (Or.inl ⟨l, more, rfl⟩)
  · exact Or.inr (Or.inr hthrows)

theorem parse_line (l : Line) : parse argv0 overflow l.words = .options (l.options overflow) := by
  obtain ⟨i, -, hparse, -⟩ := parse_words argv0 overflow l []
  rw [List.append_nil] at hparse
  rw [hparse, parseFrom]

theorem parse_usage (l : Line) (rest : List Word) :
    parse argv0 overflow (l.words ++ ['-', 'h'] :: rest) = .usage (usageText argv0) := by
  obtain ⟨i, -, hparse, -⟩ :=
    parse_words argv0 overflow l (['-', 'h'] :: rest)
  rw [hparse, parseFrom_usage]

/-- The options of a line are its number and its URL in force. -/
theorem foldl_apply (opts : List Opt) : ∀ o : Options,
    opts.foldl (Opt.apply overflow) o =
      ⟨((opts.filterMap Opt.number?).getLast?.map (atoi overflow)).getD o.test,
        (opts.filterMap Opt.url?).getLast?.getD o.url⟩ := by
  induction opts with
  | nil => intro o; rfl
  | cons opt opts ih =>
      intro o
      rw [List.foldl_cons, ih]
      cases opt with
      | t number =>
          cases h : (opts.filterMap Opt.number?).getLast? <;>
            simp [Opt.apply, Opt.number?, Opt.url?, List.getLast?_cons, h]
      | s url =>
          cases h : (opts.filterMap Opt.url?).getLast? <;>
            simp [Opt.apply, Opt.number?, Opt.url?, List.getLast?_cons, h]

theorem Line.options_eq (l : Line) :
    l.options overflow = ⟨(l.number.map (atoi overflow)).getD 0, l.url⟩ := by
  rw [Line.options, foldl_apply]
  rfl

/-! ### The number -/

theorem not_isSpace_of_isDigit {c : Char} (h : c.isDigit = true) : isSpace c = false := by
  by_contra hspace
  simp only [isSpace, Bool.not_eq_false, Bool.or_eq_true, decide_eq_true_eq] at hspace
  rcases hspace with ((((rfl | rfl) | rfl) | rfl) | rfl) | rfl
  all_goals exact absurd h (by decide)

theorem takeWhile_digits {digits : Word} (h : digits.all Char.isDigit = true) :
    digits.takeWhile Char.isDigit = digits := by
  rw [List.takeWhile_eq_self_iff]
  exact List.all_eq_true.mp h

/-- The number of a decimal integer is read to its end. -/
theorem leadingNumber_of_decimal {s : Word} {v : Int} (h : decimal s = some v) :
    leadingNumber s = v := by
  unfold decimal at h
  split at h
  · rename_i digits
    split at h
    · rename_i hd
      obtain rfl := Option.some.inj h
      have hdrop : ('-' :: digits).dropWhile isSpace = '-' :: digits := rfl
      rw [leadingNumber, hdrop]
      show -((digitsValue (digits.takeWhile Char.isDigit) : Nat) : Int) = _
      rw [takeWhile_digits hd.2]
    · simp at h
  · rename_i digits
    split at h
    · rename_i hd
      obtain rfl := Option.some.inj h
      have hdrop : ('+' :: digits).dropWhile isSpace = '+' :: digits := rfl
      rw [leadingNumber, hdrop]
      show ((digitsValue (digits.takeWhile Char.isDigit) : Nat) : Int) = _
      rw [takeWhile_digits hd.2]
    · simp at h
  · rename_i hminus hplus
    split at h
    · rename_i hd
      obtain rfl := Option.some.inj h
      obtain ⟨hne, hall⟩ := hd
      cases s with
      | nil => exact absurd rfl hne
      | cons c cs =>
          have hc : c.isDigit = true := List.all_eq_true.mp hall c (by simp)
          have hdrop : (c :: cs).dropWhile isSpace = c :: cs := by
            simp [not_isSpace_of_isDigit hc]
          rw [leadingNumber, hdrop]
          split
          · rename_i digits heq
            exact absurd heq (hminus digits)
          · rename_i digits heq
            exact absurd heq (hplus digits)
          · rw [takeWhile_digits hall]
    · simp at h

theorem atoi_of_decimal {s : Word} {v : Int} (h : decimal s = some v) (hv : inRange v = true) :
    atoi overflow s = v := by
  rw [atoi, leadingNumber_of_decimal h, if_pos hv]

theorem testOf_eq_some {n : Int} {test : Test} : testOf n = some test ↔ n = testNumber test := by
  unfold testOf
  cases test with
  | peerConnection =>
      by_cases h0 : n = 0
      · simp [h0, testNumber]
      · by_cases h1 : n = 1
        · simp [h1, testNumber]
        · simp [h0, h1, testNumber]
  | dataChannel =>
      by_cases h0 : n = 0
      · simp [h0, testNumber]
      · by_cases h1 : n = 1
        · simp [h1, testNumber]
        · simp [h0, h1, testNumber]

theorem inRange_testNumber (test : Test) : inRange (testNumber test) = true := by
  cases test <;> decide

/-! ### The split of the URL -/

theorem findLastOf_eq_none {c : Char} {s : Word} : findLastOf c s = none ↔ c ∉ s := by
  induction s with
  | nil => simp [findLastOf]
  | cons x rest ih =>
      cases hrest : findLastOf c rest with
      | some i =>
          have hmem : c ∈ rest := by
            by_contra hnot
            simp [ih.mpr hnot] at hrest
          simp [findLastOf, hrest, hmem]
      | none =>
          have hnot : c ∉ rest := ih.mp hrest
          by_cases hx : x = c
          · simp [findLastOf, hrest, hx]
          · have hcx : c ≠ x := fun h => hx h.symm
            simp [findLastOf, hrest, hx, hnot, hcx]

/-- What comes before and behind the last occurrence of a character. -/
theorem findLastOf_eq_some {c : Char} {s : Word} {i : Nat} (h : findLastOf c s = some i) :
    ∃ a b, s = a ++ c :: b ∧ c ∉ b ∧ i = a.length := by
  induction s generalizing i with
  | nil => simp [findLastOf] at h
  | cons x rest ih =>
      cases hrest : findLastOf c rest with
      | some j =>
          obtain ⟨a, b, rfl, hb, rfl⟩ := ih hrest
          obtain rfl : a.length + 1 = i := by simpa [findLastOf, hrest] using h
          exact ⟨x :: a, b, rfl, hb, rfl⟩
      | none =>
          obtain ⟨rfl, rfl⟩ : x = c ∧ 0 = i := by simpa [findLastOf, hrest] using h
          exact ⟨[], rest, rfl, findLastOf_eq_none.mp hrest, rfl⟩

/-- A word has one last occurrence of a character. -/
theorem lastSplit_unique {c : Char} {a b a' b' : Word} (h : a ++ c :: b = a' ++ c :: b')
    (hb : c ∉ b) (hb' : c ∉ b') : a = a' ∧ b = b' := by
  rcases List.append_eq_append_iff.mp h with ⟨mid, rfl, hmid⟩ | ⟨mid, rfl, hmid⟩
  · cases mid with
    | nil => exact ⟨by simp, by simpa using hmid⟩
    | cons x mid =>
        obtain ⟨-, rfl⟩ := List.cons.inj hmid
        exact absurd (by simp) hb
  · cases mid with
    | nil => exact ⟨by simp, by simpa using hmid.symm⟩
    | cons x mid =>
        obtain ⟨-, rfl⟩ := List.cons.inj hmid
        exact absurd (by simp) hb'

/-- A URL of the form `scheme://authority/path`. -/
structure IsUrl (url scheme authority path : Word) : Prop where
  eq : url = scheme ++ "://".toList ++ authority ++ '/' :: path
  scheme_ne : ':' ∉ scheme ∧ '/' ∉ scheme
  authority_ne : authority ≠ [] ∧ '/' ∉ authority

/-- Server and path are those of the URL. -/
def Splits (a : Accepted) : Prop :=
  ∀ scheme authority path, IsUrl a.url scheme authority path →
    a.server = scheme ++ "://".toList ++ authority ∧ a.path = '/' :: path ∧
      a.server ++ a.path = a.url

/-- What `check` accepts, and how it splits the URL. -/
theorem check_eq_accepted {o : Options} {a : Accepted} :
    check o = .accepted a ↔ ∃ server path, o.test = testNumber a.test ∧
      o.url = server ++ '/' :: path ∧ '/' ∉ path ∧
      a = ⟨a.test, o.url, server, '/' :: path⟩ := by
  unfold check
  refine ⟨?_, ?_⟩
  · intro h
    split at h
    · simp at h
    · rename_i test htest
      split at h
      · simp at h
      · rename_i separator hsep
        obtain ⟨server, path, hurl, hpath, rfl⟩ := findLastOf_eq_some hsep
        obtain rfl := Outcome.accepted.inj h
        exact ⟨server, path, testOf_eq_some.mp htest, hurl, hpath, by simp [hurl]⟩
  · rintro ⟨server, path, htest, hurl, hpath, ha⟩
    rw [testOf_eq_some.mpr htest]
    cases hsep : findLastOf '/' o.url with
    | none =>
        refine absurd (findLastOf_eq_none.mp hsep) ?_
        simp [hurl]
    | some separator =>
        obtain ⟨server', path', hurl', hpath', rfl⟩ := findLastOf_eq_some hsep
        obtain ⟨rfl, rfl⟩ := lastSplit_unique (hurl'.symm.trans hurl) hpath' hpath
        rw [ha]
        simp [hurl]

/-- **The URL is split at its first slash behind the authority just when that is its last.** -/
theorem splits_iff {o : Options} {a : Accepted} (h : check o = .accepted a) :
    Splits a ↔ ∀ scheme authority path, IsUrl a.url scheme authority path → '/' ∉ path := by
  obtain ⟨server, rest, -, hurl, hrest, ha⟩ := check_eq_accepted.mp h
  have hurl' : a.url = server ++ '/' :: rest := by rw [ha]; exact hurl
  have hserver : a.server = server := by rw [ha]
  have hpath : a.path = '/' :: rest := by rw [ha]
  refine ⟨?_, ?_⟩
  · intro hsplit scheme authority path hu
    obtain ⟨-, hp, -⟩ := hsplit scheme authority path hu
    rw [hpath] at hp
    rw [← (List.cons.inj hp).2]
    exact hrest
  · intro hslash scheme authority path hu
    obtain ⟨rfl, rfl⟩ := lastSplit_unique (hurl'.symm.trans hu.eq) hrest
      (hslash scheme authority path hu)
    exact ⟨hserver, hpath, by rw [hserver, hpath, hurl']⟩

/-! ### The front end -/

/-- What the front end makes of a line. -/
theorem frontEnd_line (l : Line) :
    frontEnd argv0 overflow l.words = check ⟨(l.number.map (atoi overflow)).getD 0, l.url⟩ := by
  rw [frontEnd, parse_line, Line.options_eq]

theorem frontEnd_usage {args : List Word} (h : AsksUsage args) :
    frontEnd argv0 overflow args = .usage (usageText argv0) := by
  obtain ⟨l, rest, rfl⟩ := h
  rw [frontEnd, parse_usage]

theorem check_ne_usage (o : Options) (text : String) : check o ≠ .usage text := by
  unfold check
  split
  · simp
  · split <;> simp

/-- A line is checked, and what is no line leads to the usage text or to an exception. -/
theorem frontEnd_cases (argv0 : String) (overflow : Int → Int) (args : List Word) :
    (∃ l : Line, l.words = args ∧ frontEnd argv0 overflow args =
      check ⟨(l.number.map (atoi overflow)).getD 0, l.url⟩) ∨
    (AsksUsage args ∧ frontEnd argv0 overflow args = .usage (usageText argv0)) ∨
    ∃ what, frontEnd argv0 overflow args = .throws what := by
  rcases parse_cases argv0 overflow args with ⟨l, rfl⟩ | husage | ⟨what, hwhat⟩
  · exact Or.inl ⟨l, rfl, frontEnd_line l⟩
  · exact Or.inr (Or.inl ⟨husage, frontEnd_usage husage⟩)
  · exact Or.inr (Or.inr ⟨what, by rw [frontEnd, hwhat]⟩)

/-- What a caller of the client may rely on. -/
structure Contract (argv0 : String) (overflow : Int → Int) (args : List Word) : Prop where
  /-- The documented command lines are accepted, and no others. -/
  accepts : ∀ test url,
    (∃ server path, frontEnd argv0 overflow args = .accepted ⟨test, url, server, path⟩) ↔
      Accepts args test url
  usage : frontEnd argv0 overflow args = .usage (usageText argv0) ↔ AsksUsage args
  throws : (∃ what, frontEnd argv0 overflow args = .throws what) ↔
    (¬ ∃ test url, Accepts args test url) ∧ ¬ AsksUsage args
  splits : ∀ a, frontEnd argv0 overflow args = .accepted a → Splits a

/-- The number in force is not a word that `atoi` takes for 0 or 1 although it is no decimal
integer in the range of `int`, and the URL in force has no slash in its path. -/
def Plain (overflow : Int → Int) (args : List Word) : Prop :=
  ∀ l : Line, l.words = args → '/' ∈ l.url →
    ∀ test, (l.number.map (atoi overflow)).getD 0 = testNumber test →
      (∀ number ∈ l.number, ∃ v, decimal number = some v ∧ inRange v = true) ∧
        ∀ scheme authority path, IsUrl l.url scheme authority path → '/' ∉ path

/-- The number of a line, where it is a decimal integer in range. -/
theorem value_of_inRange {l : Line}
    (h : ∀ number ∈ l.number, ∃ v, decimal number = some v ∧ inRange v = true) :
    l.value = some ((l.number.map (atoi overflow)).getD 0) := by
  unfold Line.value
  cases hnum : l.number with
  | none => rfl
  | some number =>
      obtain ⟨v, hv, hr⟩ := h number (by simp [hnum])
      simp [hv, atoi_of_decimal hv hr]

/-- A documented number is read as it is meant. -/
theorem atoi_of_value {l : Line} {test : Test} (h : l.value = some (testNumber test)) :
    (l.number.map (atoi overflow)).getD 0 = testNumber test := by
  unfold Line.value at h
  cases hnum : l.number with
  | none =>
      rw [hnum] at h
      simpa using h
  | some number =>
      rw [hnum] at h
      simp [atoi_of_decimal h (inRange_testNumber test)]

/-- A line is accepted when its URL has a slash and `atoi` reads the number of a test. -/
theorem frontEnd_accepted (argv0 : String) {l : Line} {test : Test} (hslash : '/' ∈ l.url)
    (htest : (l.number.map (atoi overflow)).getD 0 = testNumber test) :
    ∃ server path, frontEnd argv0 overflow l.words = .accepted ⟨test, l.url, server, path⟩ := by
  rw [frontEnd_line]
  cases hsep : findLastOf '/' l.url with
  | none => exact absurd hslash (findLastOf_eq_none.mp hsep)
  | some separator =>
      refine ⟨l.url.take separator, l.url.drop separator, ?_⟩
      rw [check, testOf_eq_some.mpr htest]
      simp only [hsep]

/-- And only then. -/
theorem line_of_accepted {args : List Word} {a : Accepted}
    (h : frontEnd argv0 overflow args = .accepted a) :
    ∃ l : Line, l.words = args ∧ l.url = a.url ∧ '/' ∈ l.url ∧
      (l.number.map (atoi overflow)).getD 0 = testNumber a.test ∧
      check ⟨(l.number.map (atoi overflow)).getD 0, l.url⟩ = .accepted a := by
  rcases frontEnd_cases argv0 overflow args with ⟨l, hl, hcheck⟩ | ⟨-, husage⟩ | ⟨what, hwhat⟩
  · rw [hcheck] at h
    obtain ⟨server, path, htest, hurl, -, ha⟩ := check_eq_accepted.mp h
    refine ⟨l, hl, by rw [ha], ?_, htest, h⟩
    have hurl' : l.url = server ++ '/' :: path := hurl
    simp [hurl']
  · simp [husage] at h
  · simp [hwhat] at h

theorem usage_iff (argv0 : String) (overflow : Int → Int) (args : List Word) :
    frontEnd argv0 overflow args = .usage (usageText argv0) ↔ AsksUsage args := by
  refine ⟨?_, frontEnd_usage⟩
  intro h
  rcases frontEnd_cases argv0 overflow args with ⟨l, -, hcheck⟩ | ⟨husage, -⟩ | ⟨what, hwhat⟩
  · exact absurd (hcheck.symm.trans h) (check_ne_usage _ _)
  · exact husage
  · simp [hwhat] at h

/-- The front end prints its usage text or none. -/
theorem usage_text {args : List Word} {text : String}
    (h : frontEnd argv0 overflow args = .usage text) : text = usageText argv0 := by
  rcases frontEnd_cases argv0 overflow args with ⟨l, -, hcheck⟩ | ⟨-, husage⟩ | ⟨what, hwhat⟩
  · exact absurd (hcheck.symm.trans h) (check_ne_usage _ _)
  · exact (Outcome.usage.inj (husage.symm.trans h)).symm
  · simp [hwhat] at h

/--
**The client accepts its documented command lines just when they are plain.**

For every argument vector, the front end accepts exactly the lines with a valid number and
a URL with a slash, prints the usage text at `-h`, throws for everything else and splits the
URL at the slash behind its authority, if and only if `atoi` does not read 0 or 1 out of a
number in force that is no such integer, and the path of the URL in force has no slash.
-/
theorem frontEnd_contract_iff (argv0 : String) (overflow : Int → Int) (args : List Word) :
    Contract argv0 overflow args ↔ Plain overflow args := by
  refine ⟨?_, ?_⟩
  · rintro hc l rfl hslash test htest
    obtain ⟨server, path, hacc⟩ := frontEnd_accepted argv0 hslash htest
    refine ⟨?_, ?_⟩
    · intro number hnumber
      obtain ⟨l', hwords, -, -, hvalue⟩ := (hc.accepts test l.url).mp ⟨server, path, hacc⟩
      obtain rfl := Line.eq_of_words hwords
      have hdecimal : decimal number = some (testNumber test) := by
        have hnum : l'.number = some number := hnumber
        simpa [Line.value, hnum] using hvalue
      exact ⟨_, hdecimal, inRange_testNumber test⟩
    · have hcheck := hacc
      rw [frontEnd_line] at hcheck
      exact (splits_iff hcheck).mp (hc.splits _ hacc)
  · intro hplain
    have haccepts : ∀ test url,
        (∃ server path, frontEnd argv0 overflow args = .accepted ⟨test, url, server, path⟩) ↔
          Accepts args test url := by
      intro test url
      refine ⟨?_, ?_⟩
      · rintro ⟨server, path, h⟩
        obtain ⟨l, hwords, hurl, hslash, htest, -⟩ := line_of_accepted h
        obtain ⟨hnumber, -⟩ := hplain l hwords hslash test htest
        have hslash' : '/' ∈ url := by rw [← show l.url = url from hurl]; exact hslash
        exact ⟨l, hwords, hurl, hslash', by rw [value_of_inRange hnumber, htest]⟩
      · rintro ⟨l, rfl, rfl, hslash, hvalue⟩
        exact frontEnd_accepted argv0 hslash (atoi_of_value hvalue)
    refine ⟨haccepts, usage_iff argv0 overflow args, ?_, ?_⟩
    · rw [← usage_iff argv0 overflow args]
      simp only [← haccepts]
      cases h : frontEnd argv0 overflow args with
      | usage text => simp [usage_text h]
      | throws what => simp
      | accepted a =>
          refine iff_of_false (by simp) ?_
          rintro ⟨hno, -⟩
          exact hno ⟨a.test, a.url, a.server, a.path, rfl⟩
    · intro a h
      obtain ⟨l, hwords, hurl, hslash, htest, hcheck⟩ := line_of_accepted h
      refine (splits_iff hcheck).mpr ?_
      rw [← hurl]
      exact (hplain l hwords hslash a.test htest).2

/-- The path of this URL has two segments. -/
def twoSegments : Word := "http://host/api/offer".toList

/-- A word that is no number selects test 0, and a path of two segments is cut in two. -/
theorem twoSegments_cut :
    frontEnd "client" id [twoSegments, "-t".toList, "first".toList] =
        .accepted ⟨.peerConnection, twoSegments, "http://host/api".toList, "/offer".toList⟩ ∧
      ¬ Contract "client" id [twoSegments, "-t".toList, "first".toList] := by
  have hacc : frontEnd "client" id [twoSegments, "-t".toList, "first".toList] =
      .accepted ⟨.peerConnection, twoSegments, "http://host/api".toList, "/offer".toList⟩ := by
    decide +kernel
  refine ⟨hacc, fun hc => ?_⟩
  have hurl : IsUrl twoSegments "http".toList "host".toList "api/offer".toList :=
    ⟨by decide, by decide, by decide⟩
  obtain ⟨hserver, -⟩ := hc.splits _ hacc _ _ _ hurl
  exact absurd hserver (by decide)

end WebrtcEchoes.Libdatachannel.Arguments
