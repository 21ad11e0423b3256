/-
What `parse_string` makes of a string.

The size it allocates counts an escape as one byte, whatever the second loop makes of it, and
the two loops can come apart: a `\u` with something else than digits behind it is passed as
six bytes by the second loop and as two by the first.  The invariant is that nothing more is
written than the first loop would count from the same place on.
-/
import WebrtcEchoes.Gstreamer.CJson
import Mathlib.Data.Nat.Bitwise

namespace WebrtcEchoes.Gstreamer.CJson

open Handler Json

/-! ### UTF-8 -/

theorem continuation_byte (c : Nat) : (c ||| 0x80) &&& 0xBF = c % 64 + 128 := by
  have hbyte : ∀ r : Fin 256, (r.val ||| 0x80) &&& 0xBF = r.val % 64 + 128 := by
    decide +kernel
  have hlow : ((c ||| 0x80) &&& 0xBF) % 2 ^ 8 = ((c % 2 ^ 8 ||| 0x80) &&& 0xBF) % 2 ^ 8 := by
    rw [Nat.and_mod_two_pow, Nat.or_mod_two_pow, Nat.and_mod_two_pow, Nat.or_mod_two_pow,
      Nat.mod_mod]
  have hsmall : ∀ x : Nat, (x &&& 0xBF) % 2 ^ 8 = x &&& 0xBF := fun x =>
    Nat.mod_eq_of_lt (Nat.lt_of_le_of_lt Nat.and_le_right (by decide))
  rw [hsmall, hsmall] at hlow
  have hr := hbyte ⟨c % 2 ^ 8, Nat.mod_lt _ (by decide)⟩
  simp only at hr
  rw [hlow, hr]
  omega

theorem first_byte₂ (c : Nat) (h : c < 32) : (c ||| 0xC0) % 256 = c % 32 + 0xC0 := by
  have hall : ∀ r : Fin 32, (r.val ||| 0xC0) % 256 = r.val % 32 + 0xC0 := by decide
  exact hall ⟨c, h⟩

theorem first_byte₃ (c : Nat) (h : c < 16) : (c ||| 0xE0) % 256 = c % 16 + 0xE0 := by
  have hall : ∀ r : Fin 16, (r.val ||| 0xE0) % 256 = r.val % 16 + 0xE0 := by decide
  exact hall ⟨c, h⟩

theorem first_byte₄ (c : Nat) (h : c < 8) : (c ||| 0xF0) % 256 = c % 8 + 0xF0 := by
  have hall : ∀ r : Fin 8, (r.val ||| 0xF0) % 256 = r.val % 8 + 0xF0 := by decide
  exact hall ⟨c, h⟩

theorem ofNat_toNat {c : Nat} (h : c < 0xD800 ∨ (0xDFFF < c ∧ c ≤ 0x10FFFF)) :
    (Char.ofNat c).val.toNat = c := by
  have hvalid : c.isValidChar := by
    unfold Nat.isValidChar
    omega
  rw [Char.ofNat, dif_pos hvalid]
  rfl

/-- What is written for a code point is its UTF-8 encoding. -/
theorem codepointBytes_eq {c : Nat} (h : c < 0xD800 ∨ (0xDFFF < c ∧ c ≤ 0x10FFFF)) :
    codepointBytes c = some (utf8 c) := by
  have hval := ofNat_toNat h
  unfold codepointBytes utf8 String.utf8EncodeChar
  simp only [hval]
  by_cases h₁ : c < 0x80
  · have hand : c &&& 0x7F = c := by
      rw [show (0x7F : Nat) = 2 ^ 7 - 1 from rfl, Nat.and_two_pow_sub_one_eq_mod]
      exact Nat.mod_eq_of_lt h₁
    rw [if_pos h₁, if_pos (by omega : c ≤ 0x7f), hand]
  rw [if_neg h₁, if_neg (by omega : ¬ c ≤ 0x7f)]
  by_cases h₂ : c < 0x800
  · rw [if_pos h₂, if_pos (by omega : c ≤ 0x7ff)]
    simp only [encodeUtf8, Nat.shiftRight_eq_div_pow, List.cons_append, List.nil_append]
    rw [continuation_byte, first_byte₂ _ (by omega)]
  rw [if_neg h₂, if_neg (by omega : ¬ c ≤ 0x7ff)]
  by_cases h₃ : c < 0x10000
  · rw [if_pos h₃, if_pos (by omega : c ≤ 0xffff)]
    simp only [encodeUtf8, Nat.shiftRight_eq_div_pow, List.cons_append, List.nil_append,
      Nat.div_div_eq_div_mul]
    rw [continuation_byte, continuation_byte, first_byte₃ _ (by omega)]
  rw [if_neg h₃, if_neg (by omega : ¬ c ≤ 0xffff), if_pos (by omega : c ≤ 0x10FFFF)]
  simp only [encodeUtf8, Nat.shiftRight_eq_div_pow, List.cons_append, List.nil_append,
    Nat.div_div_eq_div_mul]
  rw [continuation_byte, continuation_byte, continuation_byte, first_byte₄ _ (by omega)]

theorem encodeUtf8_length (mark : Nat) : ∀ position codepoint : Nat,
    (encodeUtf8 mark position codepoint).length = position + 1
  | 0, _ => rfl
  | position + 1, codepoint => by
      simp [encodeUtf8, encodeUtf8_length mark position]

theorem codepointBytes_length {c : Nat} {bytes : Bytes} (h : codepointBytes c = some bytes) :
    bytes.length ≤ 4 ∧ (c < 0x10000 → bytes.length ≤ 3) ∧ (c < 0x80 → bytes.length = 1) := by
  unfold codepointBytes at h
  split at h
  · obtain rfl : _ = bytes := Option.some.inj h
    simp
  · split at h
    · obtain rfl := Option.some.inj h
      rw [encodeUtf8_length]
      omega
    · split at h
      · obtain rfl := Option.some.inj h
        rw [encodeUtf8_length]
        omega
      · split at h
        · obtain rfl := Option.some.inj h
          rw [encodeUtf8_length]
          omega
        · cases h

/-! ### Escapes -/

theorem hexValue_byte (d : HexDigit) : hexValue d.byte = some d.value.val := by
  obtain ⟨value, upper⟩ := d
  revert value upper
  decide

theorem parseHex4_codeUnit (u : CodeUnit) (rest : Bytes) :
    parseHex4 (u.d₃.byte :: u.d₂.byte :: u.d₁.byte :: u.d₀.byte :: rest) = u.value := by
  simp [parseHex4, parseHexFrom, hexValue_byte, CodeUnit.value]

theorem codeUnit_value_lt (u : CodeUnit) : u.value < 0x10000 := by
  have h₃ := u.d₃.value.isLt
  have h₂ := u.d₂.value.isLt
  have h₁ := u.d₁.value.isLt
  have h₀ := u.d₀.value.isLt
  unfold CodeUnit.value
  omega

theorem utf16LiteralToUtf8_unit {u : CodeUnit} (h : u.value < 0xD800 ∨ 0xDFFF < u.value)
    (rest : Bytes) : utf16LiteralToUtf8 (u.text ++ rest) = some (utf8 u.value, 6) := by
  have hlt := codeUnit_value_lt u
  have hcode : parseHex4 ((u.text ++ rest).drop 2) = u.value := parseHex4_codeUnit u rest
  unfold utf16LiteralToUtf8
  simp only [hcode]
  rw [if_neg (by simp [CodeUnit.text]), if_neg (by omega), if_neg (by omega),
    codepointBytes_eq (by omega)]
  rfl

theorem surrogates_codepoint {high low : Nat} (hhigh : 0xD800 ≤ high ∧ high ≤ 0xDBFF)
    (hlow : 0xDC00 ≤ low ∧ low ≤ 0xDFFF) :
    0x10000 + ((high &&& 0x3FF) <<< 10 ||| low &&& 0x3FF) =
      0x10000 + (high - 0xD800) * 1024 + (low - 0xDC00) := by
  have hmod : ∀ x : Nat, x &&& 0x3FF = x % 1024 := fun x =>
    Nat.and_two_pow_sub_one_eq_mod x 10
  have hor : (high % 1024) <<< 10 ||| low % 1024 = (high % 1024) <<< 10 + low % 1024 :=
    (Nat.shiftLeft_add_eq_or_of_lt (Nat.mod_lt _ (by decide)) _).symm
  rw [hmod, hmod, hor, Nat.shiftLeft_eq]
  omega

theorem utf16LiteralToUtf8_pair {high low : CodeUnit}
    (hhigh : 0xD800 ≤ high.value ∧ high.value ≤ 0xDBFF)
    (hlow : 0xDC00 ≤ low.value ∧ low.value ≤ 0xDFFF) (rest : Bytes) :
    utf16LiteralToUtf8 (high.text ++ (low.text ++ rest)) =
      some (utf8 (0x10000 + (high.value - 0xD800) * 1024 + (low.value - 0xDC00)), 12) := by
  have hfirst : parseHex4 ((high.text ++ (low.text ++ rest)).drop 2) = high.value :=
    parseHex4_codeUnit high _
  have hsecond : (high.text ++ (low.text ++ rest)).drop 6 = low.text ++ rest := rfl
  have hcode : parseHex4 ((low.text ++ rest).drop 2) = low.value := parseHex4_codeUnit low _
  unfold utf16LiteralToUtf8
  simp only [hfirst, hsecond, hcode]
  rw [if_neg (by simp [CodeUnit.text]), if_neg (by omega), if_pos (by omega),
    if_neg (by simp [CodeUnit.text]), if_neg (by simp [CodeUnit.text]), if_neg (by omega),
    surrogates_codepoint hhigh hlow, codepointBytes_eq (by omega)]
  rfl

theorem escapeByte_letter (e : Escape) : escapeByte e.letter = some e.byte := by
  cases e <;> rfl

/-! ### Reading a string -/

theorem unescape_eq_drop : ∀ (passed : Nat) (s : Bytes),
    unescape passed s = unescape 0 (s.drop passed)
  | 0, s => by rw [List.drop_zero]
  | passed + 1, [] => by simp [unescape]
  | passed + 1, b :: rest => by
      rw [unescape, List.drop_succ_cons]
      exact unescape_eq_drop passed rest

/-- An escape sequence at the head is passed as a whole. -/
theorem unescape_sequence {rest bytes : Bytes} {length : Nat}
    (h : escapeSequence (92 :: rest) = some (bytes, length)) (hlength : 0 < length) :
    unescape 0 (92 :: rest) =
      (bytes ++ (unescape 0 ((92 :: rest).drop length)).1,
        (unescape 0 ((92 :: rest).drop length)).2) := by
  obtain ⟨k, rfl⟩ := Nat.exists_eq_succ_of_ne_zero (Nat.pos_iff_ne_zero.mp hlength)
  rw [unescape, if_pos rfl, h, List.drop_succ_cons, ← unescape_eq_drop]
  rfl

theorem unescape_piece (p : Piece) (s : Bytes) :
    unescape 0 (p.text ++ s) = (p.bytes ++ (unescape 0 s).1, (unescape 0 s).2) := by
  cases p with
  | plain b h =>
      show unescape 0 (b :: s) = _
      rw [unescape, if_neg h.2.2]
      rfl
  | escape e =>
      have hletter : e.letter ≠ 117 := by cases e <;> decide
      have hseq : escapeSequence (92 :: e.letter :: s) = some ([e.byte], 2) := by
        simp [escapeSequence, hletter, escapeByte_letter]
      exact unescape_sequence hseq (by decide)
  | unit u h =>
      have hseq : escapeSequence (u.text ++ s) = some (utf8 u.value, 6) :=
        utf16LiteralToUtf8_unit h s
      exact unescape_sequence hseq (by decide)
  | pair high low hhigh hlow =>
      have hseq : escapeSequence (high.text ++ (low.text ++ s)) =
          some ((Piece.pair high low hhigh hlow).bytes, 12) :=
        utf16LiteralToUtf8_pair hhigh hlow s
      have hdrop : (high.text ++ (low.text ++ s)).drop 12 = s := rfl
      have hpair := unescape_sequence hseq (Nat.zero_lt_succ 11)
      show unescape 0 (high.text ++ low.text ++ s) = _
      rw [List.append_assoc, ← hdrop]
      exact hpair

theorem unescape_content (pieces : List Piece) :
    unescape 0 (content pieces) = (stringBytes pieces, true) := by
  induction pieces with
  | nil => rfl
  | cons p rest ih =>
      show unescape 0 (p.text ++ content rest) = _
      rw [unescape_piece, ih]
      rfl

theorem scanString_plain {b : UInt8} (h : b ≠ 34 ∧ b ≠ 92) {s content : Bytes} {skipped : Nat}
    (hs : scanString s = some (content, skipped)) :
    scanString (b :: s) = some (b :: content, skipped) := by
  rw [scanString.eq_def]
  simp only [if_neg h.1, if_neg h.2, hs, Option.map_some]

theorem scanString_escape (c : UInt8) {s content : Bytes} {skipped : Nat}
    (hs : scanString s = some (content, skipped)) :
    scanString (92 :: c :: s) = some (92 :: c :: content, skipped + 1) := by
  rw [scanString.eq_def]
  simp [hs]

theorem hexDigit_byte_ne (d : HexDigit) : d.byte ≠ 34 ∧ d.byte ≠ 92 := by
  obtain ⟨value, upper⟩ := d
  revert value upper
  decide

theorem scanString_codeUnit (u : CodeUnit) {s content : Bytes} {skipped : Nat}
    (hs : scanString s = some (content, skipped)) :
    scanString (u.text ++ s) = some (u.text ++ content, skipped + 1) :=
  scanString_escape 117 (scanString_plain (hexDigit_byte_ne u.d₃)
    (scanString_plain (hexDigit_byte_ne u.d₂) (scanString_plain (hexDigit_byte_ne u.d₁)
      (scanString_plain (hexDigit_byte_ne u.d₀) hs))))

theorem scanString_piece (p : Piece) {s content : Bytes} {skipped : Nat}
    (hs : scanString s = some (content, skipped)) :
    ∃ skipped', scanString (p.text ++ s) = some (p.text ++ content, skipped') := by
  cases p with
  | plain b h => exact ⟨_, scanString_plain h.2 hs⟩
  | escape e => exact ⟨_, scanString_escape e.letter hs⟩
  | unit u h => exact ⟨_, scanString_codeUnit u hs⟩
  | pair high low hhigh hlow =>
      have hboth := scanString_codeUnit high (scanString_codeUnit low hs)
      exact ⟨_, by simpa only [Piece.text, List.append_assoc] using hboth⟩

/-- The first loop ends at the closing quote. -/
theorem scanString_content (pieces : List Piece) (rest : Bytes) :
    ∃ skipped, scanString (content pieces ++ 34 :: rest) = some (content pieces, skipped) := by
  induction pieces with
  | nil =>
      refine ⟨0, ?_⟩
      show scanString (34 :: rest) = _
      rw [scanString.eq_def]
      rfl
  | cons p ps ih =>
      obtain ⟨skipped, hs⟩ := ih
      obtain ⟨skipped', hp⟩ := scanString_piece p hs
      refine ⟨skipped', ?_⟩
      show scanString (p.text ++ content ps ++ 34 :: rest) = _
      rw [List.append_assoc, hp]
      rfl
/-! ### The memory of a string -/

/-- What the first loop counts from a place on: an escape as one, and a backslash alone. -/
def units : Bytes → Nat
  | [] => 0
  | [_] => 1
  | b :: c :: rest => if b = 92 then units rest + 1 else units (c :: rest) + 1

/-- The count from a place on hardly depends on where an escape begins. -/
theorem units_cons (s : Bytes) : ∀ b : UInt8, units s ≤ units (b :: s) ∧
    units (b :: s) ≤ units s + 1 := by
  induction s with
  | nil => intro b; simp [units]
  | cons c rest ih =>
      intro b
      obtain ⟨hle, hlt⟩ := ih c
      rw [units]
      split <;> omega

theorem units_cons_of_ne {b : UInt8} (h : b ≠ 92) (s : Bytes) :
    units (b :: s) = units s + 1 := by
  cases s with
  | nil => rfl
  | cons c rest => rw [units, if_neg h]

theorem units_drop_le (k : Nat) : ∀ s : Bytes, units (s.drop k) ≤ units s := by
  induction k with
  | zero => intro s; exact Nat.le_refl _
  | succ k ih =>
      intro s
      cases s with
      | nil => exact Nat.le_refl _
      | cons b rest => exact Nat.le_trans (ih rest) (units_cons rest b).1

theorem scanString_units {s : Bytes} : ∀ {content : Bytes} {skipped : Nat},
    scanString s = some (content, skipped) → content.length = units content + skipped := by
  fun_induction scanString s with
  | case1 => intro content skipped h; cases h
  | case2 => intro content skipped h; cases h; rfl
  | case3 => intro content skipped h; cases h
  | case4 c rest hquote ih =>
      intro content skipped h
      obtain ⟨p, hp, heq⟩ := Option.map_eq_some_iff.mp h
      cases heq
      have hlen := ih hp
      simp only [List.length_cons, units, if_pos]
      omega
  | case5 b rest hquote hback ih =>
      intro content skipped h
      obtain ⟨p, hp, heq⟩ := Option.map_eq_some_iff.mp h
      cases heq
      have hlen := ih hp
      rw [units_cons_of_ne hback, List.length_cons]
      omega

/-- The digits that `parse_hex4` reads a number from are counted one by one. -/
theorem units_of_parseHexFrom (t : Bytes) : ∀ (s : Bytes) (h : Nat), parseHexFrom h s ≠ 0 →
    units (s ++ t) = units t + s.length
  | [], _, _ => rfl
  | b :: rest, h, hne => by
      rw [parseHexFrom] at hne
      cases hdigit : hexValue b with
      | none =>
          rw [hdigit] at hne
          exact absurd rfl hne
      | some digit =>
          rw [hdigit] at hne
          have hb : b ≠ 92 := by
            intro hb
            rw [hb, show hexValue 92 = none from rfl] at hdigit
            cases hdigit
          rw [List.cons_append, units_cons_of_ne hb, units_of_parseHexFrom t rest _ hne,
            List.length_cons]
          omega

/-- The literal that a number was read from is six bytes for five that are counted. -/
theorem units_literal {rest : Bytes} (hlength : 4 ≤ rest.length) (hcode : parseHex4 rest ≠ 0) :
    units (92 :: 117 :: rest) = units (rest.drop 4) + 5 := by
  have hdigits := units_of_parseHexFrom (rest.drop 4) (rest.take 4) 0 hcode
  rw [List.take_append_drop, List.length_take, Nat.min_eq_left hlength] at hdigits
  rw [units, if_pos rfl, hdigits]

theorem utf16LiteralToUtf8_units {rest bytes : Bytes} {length : Nat}
    (h : utf16LiteralToUtf8 (92 :: 117 :: rest) = some (bytes, length)) :
    0 < length ∧
      bytes.length + units ((92 :: 117 :: rest).drop length) ≤ units (92 :: 117 :: rest) := by
  unfold utf16LiteralToUtf8 at h
  split at h
  · cases h
  rename_i hlong
  have hlength : 4 ≤ rest.length := by
    simp only [List.length_cons] at hlong
    omega
  simp only [List.drop_succ_cons, List.drop_zero] at h
  split at h
  · cases h
  split at h
  · -- the first half alone is counted for more than the pair writes
    rename_i hhigh
    split at h
    · cases h
    split at h
    · cases h
    split at h
    · cases h
    obtain ⟨bs, hbs, heq⟩ := Option.map_eq_some_iff.mp h
    cases heq
    have hwritten := (codepointBytes_length hbs).1
    have hunits := units_literal hlength (by omega)
    have hdrop := units_drop_le 6 (rest.drop 4)
    refine ⟨by decide, ?_⟩
    have hrest : (rest.drop 4).drop 6 = rest.drop 10 := List.drop_drop
    rw [hrest] at hdrop
    simp only [List.drop_succ_cons]
    omega
  · obtain ⟨bs, hbs, heq⟩ := Option.map_eq_some_iff.mp h
    cases heq
    refine ⟨by decide, ?_⟩
    simp only [List.drop_succ_cons]
    by_cases hzero : parseHex4 rest = 0
    · have hwritten := (codepointBytes_length hbs).2.2 (by omega)
      have hdrop := units_drop_le 4 rest
      rw [units, if_pos rfl]
      omega
    · have hwritten := (codepointBytes_length hbs).1
      have hunits := units_literal hlength hzero
      omega

theorem escapeSequence_letter {c : UInt8} (h : c ≠ 117) (rest : Bytes) :
    escapeSequence (92 :: c :: rest) = (escapeByte c).map ([·], 2) := if_neg h

/-- A sequence writes no more than is counted for the bytes it passes. -/
theorem escapeSequence_units {rest bytes : Bytes} {length : Nat}
    (h : escapeSequence (92 :: rest) = some (bytes, length)) :
    0 < length ∧ bytes.length + units ((92 :: rest).drop length) ≤ units (92 :: rest) := by
  cases rest with
  | nil =>
      cases h
      exact ⟨by decide, Nat.le_refl _⟩
  | cons c rest =>
      by_cases hu : c = 117
      · subst hu
        exact utf16LiteralToUtf8_units h
      · rw [escapeSequence_letter hu] at h
        obtain ⟨out, -, heq⟩ := Option.map_eq_some_iff.mp h
        cases heq
        refine ⟨by decide, ?_⟩
        rw [units, if_pos rfl]
        simp only [List.drop_succ_cons, List.drop_zero, List.length_singleton]
        omega

theorem unescape_units : ∀ (n : Nat) (s : Bytes), s.length ≤ n →
    (unescape 0 s).1.length ≤ units s
  | _, [], _ => Nat.zero_le _
  | 0, _ :: _, h => absurd h (by simp)
  | n + 1, b :: rest, h => by
      have hrest : rest.length ≤ n := by simpa using h
      by_cases hb : b = 92
      · subst hb
        cases hseq : escapeSequence (92 :: rest) with
        | none => simp [unescape, hseq]
        | some q =>
            obtain ⟨bytes, length⟩ := q
            obtain ⟨hpos, hunits⟩ := escapeSequence_units hseq
            have hdrop : ((92 :: rest).drop length).length ≤ n := by
              rw [List.length_drop, List.length_cons]
              omega
            have ih := unescape_units n _ hdrop
            rw [unescape_sequence hseq hpos, List.length_append]
            omega
      · have ih := unescape_units n rest hrest
        rw [unescape, if_neg hb, units_cons_of_ne hb, List.length_cons]
        omega

/-- What is written fits what was allocated, with the NUL. -/
theorem allocation_suffices {rest content : Bytes} {skipped : Nat}
    (h : scanString rest = some (content, skipped)) :
    (unescape 0 content).1.length + 1 ≤ allocationLength content skipped := by
  have hscan := scanString_units h
  have hwritten := unescape_units content.length content (Nat.le_refl _)
  unfold allocationLength
  omega

/-- `parse_string` by what its loops find; there is no other way out. -/
theorem parseString_cons (b : UInt8) (rest : Bytes) :
    parseString (b :: rest) =
      if b = 34 then
        match scanString rest with
        | none => .failed
        | some (content, _) =>
            if (unescape 0 content).2 then
              .done (cString (unescape 0 content).1) (rest.drop (content.length + 1))
            else .failed
      else .failed := by
  rw [parseString]
  by_cases hb : b = 34
  · rw [if_pos hb, if_pos hb]
    cases hscan : scanString rest with
    | none => rfl
    | some q =>
        obtain ⟨content, skipped⟩ := q
        have hfits := allocation_suffices hscan
        have hroom : ¬ allocationLength content skipped <
            (unescape 0 content).1.length + (if (unescape 0 content).2 then 1 else 0) := by
          split <;> omega
        simp only
        rw [if_neg hroom]
  · rw [if_neg hb, if_neg hb]

/--
**`parse_string` stays inside its memory.**

Whatever the bytes are, with escapes cut short, digits missing or surrogates that do not
match, neither of its loops reads behind the buffer and the second writes no more than the
first has counted; the one read outside is that of a first byte where the buffer has none.
-/
theorem parseString_outOfBounds_iff (input : Bytes) :
    parseString input = .outOfBounds ↔ input = [] := by
  cases input with
  | nil => exact iff_of_true rfl rfl
  | cons b rest =>
      refine iff_of_false (fun h => ?_) (List.cons_ne_nil _ _)
      rw [parseString_cons] at h
      split at h
      · split at h
        · cases h
        · split at h <;> cases h
      · cases h

/-- A string is read for what it says, up to its first NUL. -/
theorem parseString_stringText (pieces : List Piece) (rest : Bytes) :
    parseString (stringText pieces ++ rest) = .done (cString (stringBytes pieces)) rest := by
  obtain ⟨skipped, hscan⟩ := scanString_content pieces rest
  show parseString (34 :: (content pieces ++ [34] ++ rest)) = _
  rw [parseString_cons, if_pos rfl, List.append_assoc, List.singleton_append, hscan]
  simp only [unescape_content, if_true]
  rw [← List.drop_drop, List.drop_left]
  rfl

end WebrtcEchoes.Gstreamer.CJson
