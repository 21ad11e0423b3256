/-
`cJSON_Parse` on any bytes at all.

The NUL that ends a C string keeps the parser inside its buffer: none of its functions takes
the NUL for its own, so what it leaves is never empty and ends with the NUL again.  That is
the invariant; with it go the fuel, since every function leaves less than it was given, and
what holds of an item that was read.
-/
import WebrtcEchoes.Proofs.Gstreamer.CJson.Documents
import Mathlib.Data.List.TakeWhile

namespace WebrtcEchoes.Gstreamer.CJson

open Handler Json

variable {ν : Type} {α β : Type}

/-- The buffer ends with a NUL. -/
def Terminated (s : Bytes) : Prop := s.getLast? = some 0

/-- What is left of a buffer after something was read from it. -/
structure Left (input rest : Bytes) : Prop where
  suffix : rest <:+ input
  shorter : rest.length < input.length
  terminated : Terminated rest

/-- The function fails, or leaves enough of its buffer and an item with `P`. -/
def Parsed.Sound (input : Bytes) (P : α → Prop) : Parsed α → Prop
  | .done x rest => Left input rest ∧ P x
  | .failed => True
  | .outOfBounds | .outOfFuel => False

theorem Left.trans {a b c : Bytes} (h : Left a b) (h' : Left b c) : Left a c where
  suffix := h'.suffix.trans h.suffix
  shorter := Nat.lt_trans h'.shorter h.shorter
  terminated := h'.terminated

/-- One function after the other. -/
theorem sound_andThen {input : Bytes} {P : α → Prop} {Q : β → Prop} {p : Parsed α}
    {f : α → Bytes → Parsed β} (hp : p.Sound input P)
    (hf : ∀ x rest, Left input rest → P x → (f x rest).Sound input Q) :
    (p.andThen f).Sound input Q := by
  cases p with
  | done x rest => exact hf x rest hp.1 hp.2
  | failed => trivial
  | outOfBounds => exact hp.elim
  | outOfFuel => exact hp.elim

theorem sound_mono {input input' : Bytes} {P Q : α → Prop} {p : Parsed α}
    (hp : p.Sound input P) (hinput : ∀ rest, Left input rest → Left input' rest)
    (hPQ : ∀ x, P x → Q x) : p.Sound input' Q := by
  cases p with
  | done x rest => exact ⟨hinput rest hp.1, hPQ x hp.2⟩
  | failed => trivial
  | outOfBounds => exact hp
  | outOfFuel => exact hp

/-! ### The buffer -/

theorem terminated_ne_nil {s : Bytes} (h : Terminated s) : s ≠ [] := by
  rintro rfl
  cases h

theorem terminated_suffix {s t : Bytes} (h : Terminated s) (hsuffix : t <:+ s) (hne : t ≠ []) :
    Terminated t := by
  obtain ⟨u, rfl⟩ := hsuffix
  unfold Terminated at h ⊢
  rwa [List.getLast?_append_of_ne_nil u hne] at h

/-- What is dropped is not the whole buffer when its last byte is not the NUL. -/
theorem left_drop {s : Bytes} (h : Terminated s) {n : Nat} (hpos : 0 < n)
    (hlast : (s.take n).getLast? ≠ some 0) : Left s (s.drop n) := by
  have hlt : n < s.length := by
    refine Nat.lt_of_not_le fun hle => hlast ?_
    rw [List.take_of_length_le hle]
    exact h
  refine ⟨List.drop_suffix n s, ?_, ?_⟩
  · rw [List.length_drop]
    omega
  · refine terminated_suffix h (List.drop_suffix n s) fun hnil => ?_
    have hlen := congrArg List.length hnil
    rw [List.length_drop, List.length_nil] at hlen
    omega

theorem left_tail {b : UInt8} {rest : Bytes} (h : Terminated (b :: rest)) (hb : b ≠ 0) :
    Left (b :: rest) rest :=
  left_drop h (n := 1) Nat.one_pos (by simpa using hb)

theorem skipWhitespace_suffix {s : Bytes} (h : Terminated s) :
    skipWhitespace s <:+ s ∧ Terminated (skipWhitespace s) := by
  cases hdrop : s.dropWhile (· ≤ 32) with
  | nil =>
      have hskip : skipWhitespace s = [0] := by
        unfold skipWhitespace
        rw [hdrop, h]
        rfl
      rw [hskip]
      refine ⟨?_, rfl⟩
      obtain ⟨init, rfl⟩ := List.getLast?_eq_some_iff.mp h
      exact List.suffix_append init [0]
  | cons b rest =>
      have hskip : skipWhitespace s = s.dropWhile (· ≤ 32) := by
        unfold skipWhitespace
        rw [hdrop]
      have hsuffix := List.dropWhile_suffix (l := s) fun c => decide (c ≤ 32)
      rw [hskip]
      exact ⟨hsuffix, terminated_suffix h hsuffix (by rw [hdrop]; exact List.cons_ne_nil b rest)⟩

theorem left_of_skip {s rest : Bytes} (h : Terminated s) (hleft : Left (skipWhitespace s) rest) :
    Left s rest where
  suffix := hleft.suffix.trans (skipWhitespace_suffix h).1
  shorter := Nat.lt_of_lt_of_le hleft.shorter (skipWhitespace_suffix h).1.length_le
  terminated := hleft.terminated

/-- Behind white space, a byte that is not the NUL. -/
theorem left_byte {s rest : Bytes} {b : UInt8} (h : Terminated s)
    (hskip : skipWhitespace s = b :: rest) (hb : b ≠ 0) : Left s rest := by
  have hterm := (skipWhitespace_suffix h).2
  refine left_of_skip h ?_
  rw [hskip] at hterm ⊢
  exact left_tail hterm hb

/-! ### Strings and numbers -/

/-- There is no NUL in it. -/
def NoNul (text : Bytes) : Prop := ∀ b ∈ text, b ≠ 0

theorem noNul_cString (s : Bytes) : NoNul (cString s) := by
  intro b hb
  simpa using List.mem_takeWhile_imp hb

theorem scanString_split {s : Bytes} : ∀ {content : Bytes} {skipped : Nat},
    scanString s = some (content, skipped) → ∃ rest, s = content ++ 34 :: rest := by
  fun_induction scanString s with
  | case1 => intro content skipped h; cases h
  | case2 rest => intro content skipped h; cases h; exact ⟨rest, rfl⟩
  | case3 => intro content skipped h; cases h
  | case4 c rest hquote ih =>
      intro content skipped h
      obtain ⟨p, hp, heq⟩ := Option.map_eq_some_iff.mp h
      cases heq
      obtain ⟨r, rfl⟩ := ih hp
      exact ⟨r, rfl⟩
  | case5 b rest hquote hback ih =>
      intro content skipped h
      obtain ⟨p, hp, heq⟩ := Option.map_eq_some_iff.mp h
      cases heq
      obtain ⟨r, rfl⟩ := ih hp
      exact ⟨r, rfl⟩

theorem parseString_sound {s : Bytes} (h : Terminated s) : (parseString s).Sound s NoNul := by
  cases s with
  | nil => exact absurd rfl (terminated_ne_nil h)
  | cons b rest =>
      rw [parseString_cons]
      by_cases hb : b = 34
      · subst hb
        rw [if_pos rfl]
        cases hscan : scanString rest with
        | none => trivial
        | some q =>
            obtain ⟨content, skipped⟩ := q
            obtain ⟨r, rfl⟩ := scanString_split hscan
            simp only
            split
            · refine ⟨?_, noNul_cString _⟩
              refine left_drop h (n := content.length + 2) (Nat.succ_pos _) ?_
              have htake : (34 :: (content ++ 34 :: r)).take (content.length + 2) =
                  34 :: content ++ [34] := by
                rw [List.take_succ_cons, List.take_append]
                simp
              rw [htake, List.getLast?_append_of_ne_nil _ (List.cons_ne_nil _ _)]
              decide
            · trivial
      · rw [if_neg hb]
        trivial

theorem digitsLength_le (s : Bytes) : digitsLength s ≤ s.length :=
  (List.takeWhile_prefix isDigit).length_le

theorem fractionLength_le (s : Bytes) : fractionLength s ≤ s.length := by
  cases s with
  | nil => exact Nat.le_refl 0
  | cons b rest =>
      have hdigits := digitsLength_le rest
      show (if b = 46 then digitsLength rest + 1 else 0) ≤ rest.length + 1
      split
      · exact Nat.succ_le_succ hdigits
      · exact Nat.zero_le _

theorem exponentLength_le (s : Bytes) : exponentLength s ≤ s.length := by
  cases s with
  | nil => exact Nat.le_refl 0
  | cons b rest =>
      have hdigits := digitsLength_le (rest.drop (signLength rest))
      rw [List.length_drop] at hdigits
      unfold exponentLength
      simp only
      split
      · rename_i hc
        rw [List.length_cons]
        omega
      · exact Nat.zero_le _

theorem signLength_le (s : Bytes) : signLength s ≤ s.length := by
  cases s with
  | nil => exact Nat.le_refl 0
  | cons b rest =>
      show (if b = 43 ∨ b = 45 then 1 else 0) ≤ rest.length + 1
      split
      · exact Nat.succ_le_succ (Nat.zero_le _)
      · exact Nat.zero_le _

theorem strtodEnd_le (s : Bytes) : strtodEnd s ≤ s.length := by
  have hsign := signLength_le s
  have hwhole := digitsLength_le (s.drop (signLength s))
  have hfraction := fractionLength_le (s.drop (signLength s +
    digitsLength (s.drop (signLength s))))
  have hexponent := exponentLength_le (s.drop (signLength s +
    digitsLength (s.drop (signLength s)) + fractionLength (s.drop (signLength s +
      digitsLength (s.drop (signLength s))))))
  rw [List.length_drop] at hwhole hfraction hexponent
  unfold strtodEnd
  simp only
  split
  · exact Nat.zero_le _
  · omega

theorem parseNumber_sound (libc : Libc ν) {s : Bytes} (h : Terminated s) :
    (parseNumber libc s).Sound s fun v => ∃ x, v = .number x := by
  have hread : (s.take 63).takeWhile isNumberByte <+: s :=
    (List.takeWhile_prefix isNumberByte).trans (List.take_prefix 63 s)
  have hend := strtodEnd_le ((s.take 63).takeWhile isNumberByte)
  unfold parseNumber
  simp only
  by_cases hzero : strtodEnd ((s.take 63).takeWhile isNumberByte) = 0
  · rw [if_pos hzero]
    trivial
  · rw [if_neg hzero]
    refine ⟨left_drop h (Nat.pos_of_ne_zero hzero) fun hlast => ?_, _, rfl⟩
    -- what was read ends with a byte of a number
    have htake : s.take (strtodEnd ((s.take 63).takeWhile isNumberByte)) =
        ((s.take 63).takeWhile isNumberByte).take
          (strtodEnd ((s.take 63).takeWhile isNumberByte)) := by
      generalize (s.take 63).takeWhile isNumberByte = u at hread hend
      obtain ⟨t, rfl⟩ := hread
      exact List.take_append_of_le_length hend
    rw [htake] at hlast
    have hmem := List.mem_of_mem_take (List.mem_of_getLast? hlast)
    exact absurd (List.mem_takeWhile_imp hmem) (by decide)

/-! ### Values -/

/-- An item that was read at this depth. -/
def Readable (depth : Nat) (v : Value ν) : Prop :=
  v.AllTexts NoNul ∧ depth + v.depth ≤ nestingLimit

def ReadableItems (depth : Nat) (items : List (Value ν)) : Prop :=
  allTextsItems NoNul items ∧ depth + depthItems items ≤ nestingLimit

def ReadableMembers (depth : Nat) (members : List (Bytes × Value ν)) : Prop :=
  allTextsMembers NoNul members ∧ depth + depthMembers members ≤ nestingLimit

theorem parseArray_sound {loop : Bytes → Parsed (List (Value ν))} {depth : Nat} {input : Bytes}
    (h : Terminated input)
    (hloop : depth + 1 ≤ nestingLimit → ∀ s, s <:+ input → Terminated s →
      (loop s).Sound s (ReadableItems (depth + 1))) :
    (parseArray loop depth input).Sound input (Readable depth) := by
  have hterm := (skipWhitespace_suffix h).2
  have hsuffix := (skipWhitespace_suffix h).1
  unfold parseArray
  by_cases hlimit : nestingLimit ≤ depth
  · rw [if_pos hlimit]
    trivial
  rw [if_neg hlimit]
  have hdepth : depth + 1 ≤ nestingLimit := Nat.lt_of_not_le hlimit
  cases hskip : skipWhitespace input with
  | nil => trivial
  | cons b rest =>
      simp only
      by_cases hb : b = 93
      · subst hb
        rw [if_pos rfl]
        exact ⟨left_byte h hskip (by decide), trivial, hdepth⟩
      · rw [if_neg hb]
        rw [hskip] at hterm hsuffix
        have hread := sound_mono (hloop hdepth _ hsuffix hterm)
          (fun r hr => left_of_skip h (by rw [hskip]; exact hr)) fun xs hxs => hxs
        refine sound_andThen hread fun xs r hleft hxs => ⟨hleft, hxs.1, ?_⟩
        have hxs' := hxs.2
        simp only [Value.depth]
        omega

theorem parseObject_sound {loop : Bytes → Parsed (List (Bytes × Value ν))} {depth : Nat}
    {input : Bytes} (h : Terminated input)
    (hloop : depth + 1 ≤ nestingLimit → ∀ s, s <:+ input → Terminated s →
      (loop s).Sound s (ReadableMembers (depth + 1))) :
    (parseObject loop depth input).Sound input (Readable depth) := by
  have hterm := (skipWhitespace_suffix h).2
  have hsuffix := (skipWhitespace_suffix h).1
  unfold parseObject
  by_cases hlimit : nestingLimit ≤ depth
  · rw [if_pos hlimit]
    trivial
  rw [if_neg hlimit]
  have hdepth : depth + 1 ≤ nestingLimit := Nat.lt_of_not_le hlimit
  cases hskip : skipWhitespace input with
  | nil => trivial
  | cons b rest =>
      simp only
      by_cases hb : b = 125
      · subst hb
        rw [if_pos rfl]
        exact ⟨left_byte h hskip (by decide), trivial, hdepth⟩
      · rw [if_neg hb]
        rw [hskip] at hterm hsuffix
        have hread := sound_mono (hloop hdepth _ hsuffix hterm)
          (fun r hr => left_of_skip h (by rw [hskip]; exact hr)) fun ms hms => hms
        refine sound_andThen hread fun ms r hleft hms => ⟨hleft, hms.1, ?_⟩
        have hms' := hms.2
        simp only [Value.depth]
        omega

theorem parseColon_sound {input : Bytes} (h : Terminated input) :
    (parseColon input).Sound input fun _ => True := by
  unfold parseColon
  cases hskip : skipWhitespace input with
  | nil => trivial
  | cons b rest =>
      simp only
      by_cases hb : b = 58
      · subst hb
        rw [if_pos rfl]
        exact ⟨left_byte h hskip (by decide), trivial⟩
      · rw [if_neg hb]
        trivial

/-- The loop goes on behind a comma, or ends behind the bracket. -/
theorem parseRest_sound {close : UInt8} (hclose : close ≠ 0) {loop : Bytes → Parsed (List α)}
    {x : α} {input : Bytes} {P : List α → Prop} (h : Terminated input) (hlast : P [x])
    (hloop : ∀ s, Left input s → (loop s).Sound s fun xs => P (x :: xs)) :
    (parseRest close loop x input).Sound input P := by
  unfold parseRest
  cases hskip : skipWhitespace input with
  | nil => trivial
  | cons b rest =>
      simp only
      by_cases hcomma : b = 44
      · subst hcomma
        rw [if_pos rfl]
        have hleft := left_byte h hskip (by decide)
        exact sound_andThen (sound_mono (hloop rest hleft) (fun r hr => hleft.trans hr)
          fun xs hxs => hxs) fun xs r hr hxs => ⟨hr, hxs⟩
      · rw [if_neg hcomma]
        by_cases hb : b = close
        · subst hb
          rw [if_pos rfl]
          exact ⟨left_byte h hskip hclose, hlast⟩
        · rw [if_neg hb]
          trivial

/-- A word at the head of the buffer. -/
theorem left_word {word s : Bytes} (h : Terminated s) (hword : word.isPrefixOf s = true)
    (hpos : 0 < word.length) (hlast : word.getLast? ≠ some 0) : Left s (s.drop word.length) := by
  have htake : s.take word.length = word := by
    obtain ⟨t, rfl⟩ := List.isPrefixOf_iff_prefix.mp hword
    exact List.take_left
  exact left_drop h hpos (by rw [htake]; exact hlast)

/-- `parse_value` with its loops in place of the recursion. -/
theorem parseValue_step (libc : Libc ν) {fuel depth : Nat} {input : Bytes}
    (h : Terminated input) (hdepth : depth ≤ nestingLimit)
    (hitems : depth + 1 ≤ nestingLimit → ∀ s, Left input s →
      (parseItems libc fuel (depth + 1) s).Sound s (ReadableItems (depth + 1)))
    (hmembers : depth + 1 ≤ nestingLimit → ∀ s, Left input s →
      (parseMembers libc fuel (depth + 1) s).Sound s (ReadableMembers (depth + 1))) :
    (parseValue libc (fuel + 1) depth input).Sound input (Readable depth) := by
  rw [parseValue.eq_def]
  simp only
  split
  · rename_i hword
    exact ⟨left_word h hword (by decide) (by decide), trivial, hdepth⟩
  split
  · rename_i hword
    exact ⟨left_word h hword (by decide) (by decide), trivial, hdepth⟩
  split
  · rename_i hword
    exact ⟨left_word h hword (by decide) (by decide), trivial, hdepth⟩
  cases input with
  | nil => trivial
  | cons b rest =>
      simp only
      split
      · exact sound_andThen (parseString_sound h) fun text r hleft htext =>
          ⟨hleft, htext, hdepth⟩
      split
      · refine sound_mono (parseNumber_sound libc h) (fun r hr => hr) fun v hv => ?_
        obtain ⟨x, rfl⟩ := hv
        exact ⟨trivial, hdepth⟩
      split
      · rename_i hb
        have hleft := left_tail h (by rw [hb]; decide)
        refine sound_mono (parseArray_sound hleft.terminated fun hd s hs hterm => ?_)
          (fun r hr => hleft.trans hr) fun v hv => hv
        exact hitems hd s ⟨hs.trans hleft.suffix,
          Nat.lt_of_le_of_lt hs.length_le hleft.shorter, hterm⟩
      split
      · rename_i hb
        have hleft := left_tail h (by rw [hb]; decide)
        refine sound_mono (parseObject_sound hleft.terminated fun hd s hs hterm => ?_)
          (fun r hr => hleft.trans hr) fun v hv => hv
        exact hmembers hd s ⟨hs.trans hleft.suffix,
          Nat.lt_of_le_of_lt hs.length_le hleft.shorter, hterm⟩
      · trivial

theorem readableItems_cons {depth : Nat} {v : Value ν} {items : List (Value ν)}
    (hv : Readable depth v) (h : ReadableItems depth items) : ReadableItems depth (v :: items) := by
  refine ⟨⟨hv.1, h.1⟩, ?_⟩
  have hv' := hv.2
  have h' := h.2
  simp only [depthItems]
  omega

theorem readableMembers_cons {depth : Nat} {name : Bytes} {v : Value ν}
    {members : List (Bytes × Value ν)} (hname : NoNul name) (hv : Readable depth v)
    (h : ReadableMembers depth members) : ReadableMembers depth ((name, v) :: members) := by
  refine ⟨⟨⟨hname, hv.1⟩, h.1⟩, ?_⟩
  have hv' := hv.2
  have h' := h.2
  simp only [depthMembers]
  omega

theorem readableItems_nil {depth : Nat} (h : depth ≤ nestingLimit) :
    ReadableItems (ν := ν) depth [] := ⟨trivial, h⟩

theorem readableMembers_nil {depth : Nat} (h : depth ≤ nestingLimit) :
    ReadableMembers (ν := ν) depth [] := ⟨trivial, h⟩

/-- **No function of the parser leaves its buffer, and the fuel suffices.** -/
theorem parse_sound (libc : Libc ν) (fuel : Nat) :
    (∀ {depth : Nat} {input : Bytes}, Terminated input → depth ≤ nestingLimit →
      2 * input.length + 1 ≤ fuel →
      (parseValue libc fuel depth input).Sound input (Readable depth)) ∧
    (∀ {depth : Nat} {input : Bytes}, Terminated input → depth ≤ nestingLimit →
      2 * input.length + 2 ≤ fuel →
      (parseItems libc fuel depth input).Sound input (ReadableItems depth)) ∧
    (∀ {depth : Nat} {input : Bytes}, Terminated input → depth ≤ nestingLimit →
      2 * input.length + 2 ≤ fuel →
      (parseMembers libc fuel depth input).Sound input (ReadableMembers depth)) := by
  induction fuel with
  | zero =>
      refine ⟨?_, ?_, ?_⟩
      · intro depth input _ _ hfuel
        omega
      · intro depth input _ _ hfuel
        omega
      · intro depth input _ _ hfuel
        omega
  | succ fuel ih =>
      obtain ⟨ihvalue, ihitems, ihmembers⟩ := ih
      refine ⟨?_, ?_, ?_⟩
      · intro depth input hterm hdepth hfuel
        refine parseValue_step libc hterm hdepth ?_ ?_
        · intro hd s hs
          have hlen := hs.shorter
          exact ihitems hs.terminated hd (by omega)
        · intro hd s hs
          have hlen := hs.shorter
          exact ihmembers hs.terminated hd (by omega)
      · intro depth input hterm hdepth hfuel
        obtain ⟨hsuffix, hskip⟩ := skipWhitespace_suffix hterm
        have hlen := hsuffix.length_le
        have hvalue := sound_mono (ihvalue hskip hdepth (by omega))
          (fun r hr => left_of_skip hterm hr) fun v hv => hv
        rw [parseItems]
        refine sound_andThen hvalue fun v rest hleft hv => ?_
        have hshorter := hleft.shorter
        refine sound_mono (parseRest_sound (by decide) hleft.terminated
          (readableItems_cons hv (readableItems_nil hdepth)) fun s hs => ?_)
          (fun r hr => hleft.trans hr) fun xs hxs => hxs
        have hs' := hs.shorter
        exact sound_mono (ihitems hs.terminated hdepth (by omega)) (fun r hr => hr)
          fun xs hxs => readableItems_cons hv hxs
      · intro depth input hterm hdepth hfuel
        obtain ⟨hsuffix, hskip⟩ := skipWhitespace_suffix hterm
        have hlen := hsuffix.length_le
        have hname := sound_mono (parseString_sound hskip)
          (fun r hr => left_of_skip hterm hr) fun text ht => ht
        rw [parseMembers]
        refine sound_andThen hname fun name rest hleft hn => ?_
        have hcolon := sound_mono (parseColon_sound hleft.terminated)
          (fun r hr => hleft.trans hr) fun u hu => hu
        refine sound_andThen hcolon fun _ rest' hleft' _ => ?_
        have hshorter := hleft'.shorter
        obtain ⟨hsuffix', hskip'⟩ := skipWhitespace_suffix hleft'.terminated
        have hlen' := hsuffix'.length_le
        have hvalue := sound_mono (ihvalue hskip' hdepth (by omega))
          (fun r hr => hleft'.trans (left_of_skip hleft'.terminated hr)) fun v hv => hv
        refine sound_andThen hvalue fun v rest'' hleft'' hv => ?_
        have hshorter' := hleft''.shorter
        refine sound_mono (parseRest_sound (by decide) hleft''.terminated
          (readableMembers_cons hn hv (readableMembers_nil hdepth)) fun s hs => ?_)
          (fun r hr => hleft''.trans hr) fun ms hms => hms
        have hs' := hs.shorter
        exact sound_mono (ihmembers hs.terminated hdepth (by omega)) (fun r hr => hr)
          fun ms hms => readableMembers_cons hn hv hms

theorem skipUtf8Bom_suffix {s : Bytes} (h : Terminated s) :
    skipUtf8Bom s <:+ s ∧ Terminated (skipUtf8Bom s) := by
  unfold skipUtf8Bom
  split
  · rename_i hc
    refine ⟨List.drop_suffix 3 s, terminated_suffix h (List.drop_suffix 3 s) fun hnil => ?_⟩
    have hlen := congrArg List.length hnil
    rw [List.length_drop, List.length_nil] at hlen
    omega
  · exact ⟨List.suffix_refl s, h⟩

theorem terminated_cString (value : Bytes) : Terminated (cString value ++ [0]) :=
  List.getLast?_concat

/-- A buffer that ends with a NUL is never left. -/
theorem parseWithLengthOpts_sound (libc : Libc ν) {buffer : Bytes} (h : Terminated buffer)
    (requireNullTerminated : Bool) :
    (parseWithLengthOpts libc buffer requireNullTerminated).Sound buffer (Readable 0) := by
  obtain ⟨hsuffix, hbom⟩ := skipUtf8Bom_suffix h
  obtain ⟨hsuffix', hskip⟩ := skipWhitespace_suffix hbom
  have hlen := (hsuffix'.trans hsuffix).length_le
  have hvalue := sound_mono ((parse_sound libc (2 * buffer.length + 1)).1 hskip
    (Nat.zero_le _) (by omega)) (fun r hr => show Left buffer r from
      ⟨hr.suffix.trans (hsuffix'.trans hsuffix), Nat.lt_of_lt_of_le hr.shorter hlen,
        hr.terminated⟩) fun v hv => hv
  unfold parseWithLengthOpts
  rw [if_neg (terminated_ne_nil h)]
  refine sound_andThen hvalue fun v rest hleft hv => ?_
  cases requireNullTerminated with
  | false => exact ⟨hleft, hv⟩
  | true =>
      obtain ⟨hs, ht⟩ := skipWhitespace_suffix hleft.terminated
      simp only [if_true]
      split
      · exact ⟨⟨hs.trans hleft.suffix, Nat.lt_of_le_of_lt hs.length_le hleft.shorter, ht⟩, hv⟩
      · trivial

/-- The outermost item. -/
def Accepted (v : Value ν) : Prop := v.AllTexts NoNul ∧ v.depth ≤ nestingLimit

theorem readable_zero {v : Value ν} (h : Readable 0 v) : Accepted v :=
  ⟨h.1, Nat.zero_add v.depth ▸ h.2⟩

/--
**`cJSON_Parse` is safe on every text.**

For every C string, valid or not, no byte outside its buffer and its NUL is read, nothing is
written outside an allocation and the recursion ends; when there is an item, what is left of
the text is at least its NUL, no text and no name in the item holds a NUL, and its arrays and
objects are nested at most a thousand deep.
-/
theorem parseWithOpts_safe (libc : Libc ν) (value : Bytes) (requireNullTerminated : Bool) :
    (parseWithOpts libc value requireNullTerminated).Sound (cString value ++ [0]) Accepted :=
  sound_mono (parseWithLengthOpts_sound libc (terminated_cString value) requireNullTerminated)
    (fun _ hr => hr) fun _ hv => readable_zero hv

-- without the NUL, a byte behind the comma is read: this is the text of an object, cut short
example : parseWithLengthOpts digitLibc [123, 34, 97, 34, 58, 49, 44] false = .outOfBounds := rfl

end WebrtcEchoes.Gstreamer.CJson
