/-
UTF-8 read leniently.

A decoder that never fails writes U+FFFD for what is not UTF-8: one for every longest
start of a character that breaks off, and one for every byte that cannot start a
character.  It is a machine over the bytes, which remembers the character it is in the
middle of.  What the encoding of a text decodes to is that text.
-/
import Mathlib.Data.List.Basic
import Mathlib.Tactic.SplitIfs

namespace WebrtcEchoes.Utf8

def encode (text : List Char) : List UInt8 := text.flatMap String.utf8EncodeChar

/-- A character that has begun. -/
structure Begun where
  /-- The bits read so far. -/
  value : Nat
  /-- The number of bytes still to come. -/
  needed : Nat
  /-- The least and the greatest next byte. -/
  low : Nat
  high : Nat
  deriving DecidableEq, Repr

/-- U+FFFD -/
def replacement : Char := Char.ofNat 0xFFFD

/-- A byte where a character starts: what is written, and the character begun. -/
def start (b : Nat) : List Char × Option Begun :=
  if b ≤ 0x7F then ([Char.ofNat b], none)
  else if 0xC2 ≤ b ∧ b ≤ 0xDF then ([], some ⟨b - 0xC0, 1, 0x80, 0xBF⟩)
  else if 0xE0 ≤ b ∧ b ≤ 0xEF then
    ([], some ⟨b - 0xE0, 2, if b = 0xE0 then 0xA0 else 0x80, if b = 0xED then 0x9F else 0xBF⟩)
  else if 0xF0 ≤ b ∧ b ≤ 0xF4 then
    ([], some ⟨b - 0xF0, 3, if b = 0xF0 then 0x90 else 0x80, if b = 0xF4 then 0x8F else 0xBF⟩)
  else ([replacement], none)

/-- One more byte. -/
def feed (begun : Option Begun) (b : Nat) : List Char × Option Begun :=
  match begun with
  | none => start b
  | some c =>
      if c.low ≤ b ∧ b ≤ c.high then
        if c.needed ≤ 1 then ([Char.ofNat (c.value * 64 + (b - 0x80))], none)
        else ([], some ⟨c.value * 64 + (b - 0x80), c.needed - 1, 0x80, 0xBF⟩)
      else (replacement :: (start b).1, (start b).2)

def decodeFrom (begun : Option Begun) : List UInt8 → List Char
  | [] => if begun.isSome then [replacement] else []
  | b :: rest => (feed begun b.toNat).1 ++ decodeFrom (feed begun b.toNat).2 rest

def decode (bytes : List UInt8) : List Char := decodeFrom none bytes

/-! ### The encoding of a text -/

theorem decodeFrom_continue {c : Begun} {b : UInt8} (rest : List UInt8)
    (hb : c.low ≤ b.toNat ∧ b.toNat ≤ c.high) (hneeded : 1 < c.needed) :
    decodeFrom (some c) (b :: rest) =
      decodeFrom (some ⟨c.value * 64 + (b.toNat - 0x80), c.needed - 1, 0x80, 0xBF⟩) rest := by
  simp only [decodeFrom, feed, if_pos hb, if_neg (Nat.not_le.mpr hneeded), List.nil_append]

theorem decodeFrom_finish {c : Begun} {b : UInt8} (rest : List UInt8)
    (hb : c.low ≤ b.toNat ∧ b.toNat ≤ c.high) (hneeded : c.needed ≤ 1) :
    decodeFrom (some c) (b :: rest) =
      Char.ofNat (c.value * 64 + (b.toNat - 0x80)) :: decodeFrom none rest := by
  simp only [decodeFrom, feed, if_pos hb, if_pos hneeded, List.cons_append, List.nil_append]

theorem toNat_ofNat_of_lt {n : Nat} (h : n < 256) : (UInt8.ofNat n).toNat = n := by
  simpa using h

/-- A byte that continues a character. -/
theorem toNat_continuation (n : Nat) : (UInt8.ofNat (n % 0x40 + 0x80)).toNat = n % 0x40 + 0x80 :=
  toNat_ofNat_of_lt (by omega)

section Lengths

variable {v : Nat} (rest : List UInt8)

theorem decodeFrom_one (h : v ≤ 0x7F) :
    decodeFrom none (UInt8.ofNat v :: rest) = Char.ofNat v :: decodeFrom none rest := by
  have hb : (UInt8.ofNat v).toNat = v := toNat_ofNat_of_lt (by omega)
  simp only [decodeFrom, feed, start, hb, if_pos h, List.cons_append, List.nil_append]

theorem decodeFrom_two (hlow : 0x7F < v) (hhigh : v ≤ 0x7FF) :
    decodeFrom none
        (UInt8.ofNat (v / 64 % 0x20 + 0xC0) :: UInt8.ofNat (v % 0x40 + 0x80) :: rest) =
      Char.ofNat v :: decodeFrom none rest := by
  have hb : (UInt8.ofNat (v / 64 % 0x20 + 0xC0)).toNat = v / 64 % 0x20 + 0xC0 :=
    toNat_ofNat_of_lt (by omega)
  have hlast := toNat_continuation v
  rw [decodeFrom, hb]
  simp only [feed, start]
  rw [if_neg (by omega), if_pos (by omega), List.nil_append,
    decodeFrom_finish rest (by simp only [hlast]; omega) (by simp), hlast]
  have hv : (v / 64 % 0x20 + 0xC0 - 0xC0) * 64 + (v % 0x40 + 0x80 - 0x80) = v := by omega
  rw [hv]

theorem decodeFrom_three (hlow : 0x7FF < v) (hhigh : v ≤ 0xFFFF)
    (hvalid : v < 0xD800 ∨ 0xDFFF < v) :
    decodeFrom none
        (UInt8.ofNat (v / 4096 % 0x10 + 0xE0) :: UInt8.ofNat (v / 64 % 0x40 + 0x80) ::
          UInt8.ofNat (v % 0x40 + 0x80) :: rest) =
      Char.ofNat v :: decodeFrom none rest := by
  have hb : (UInt8.ofNat (v / 4096 % 0x10 + 0xE0)).toNat = v / 4096 % 0x10 + 0xE0 :=
    toNat_ofNat_of_lt (by omega)
  have hsecond := toNat_continuation (v / 64)
  have hlast := toNat_continuation v
  rw [decodeFrom, hb]
  simp only [feed, start]
  rw [if_neg (by omega), if_neg (by omega), if_pos (by omega), List.nil_append,
    decodeFrom_continue _ (by simp only [hsecond]; split <;> split <;> omega) (by simp),
    decodeFrom_finish rest (by simp only [hlast]; omega) (by simp), hlast, hsecond]
  have hv : ((v / 4096 % 0x10 + 0xE0 - 0xE0) * 64 + (v / 64 % 0x40 + 0x80 - 0x80)) * 64 +
      (v % 0x40 + 0x80 - 0x80) = v := by omega
  rw [hv]

theorem decodeFrom_four (hlow : 0xFFFF < v) (hhigh : v < 0x110000) :
    decodeFrom none
        (UInt8.ofNat (v / 262144 % 0x08 + 0xF0) :: UInt8.ofNat (v / 4096 % 0x40 + 0x80) ::
          UInt8.ofNat (v / 64 % 0x40 + 0x80) :: UInt8.ofNat (v % 0x40 + 0x80) :: rest) =
      Char.ofNat v :: decodeFrom none rest := by
  have hb : (UInt8.ofNat (v / 262144 % 0x08 + 0xF0)).toNat = v / 262144 % 0x08 + 0xF0 :=
    toNat_ofNat_of_lt (by omega)
  have hthird := toNat_continuation (v / 4096)
  have hsecond := toNat_continuation (v / 64)
  have hlast := toNat_continuation v
  rw [decodeFrom, hb]
  simp only [feed, start]
  rw [if_neg (by omega), if_neg (by omega), if_neg (by omega), if_pos (by omega), List.nil_append,
    decodeFrom_continue _ (by simp only [hthird]; split <;> split <;> omega) (by simp),
    decodeFrom_continue _ (by simp only [hsecond]; omega) (by simp),
    decodeFrom_finish rest (by simp only [hlast]; omega) (by simp), hlast, hsecond, hthird]
  have hv : (((v / 262144 % 0x08 + 0xF0 - 0xF0) * 64 + (v / 4096 % 0x40 + 0x80 - 0x80)) * 64 +
      (v / 64 % 0x40 + 0x80 - 0x80)) * 64 + (v % 0x40 + 0x80 - 0x80) = v := by omega
  rw [hv]

end Lengths

/-- A character is decoded as itself, in front of anything. -/
theorem decodeFrom_encodeChar (c : Char) (rest : List UInt8) :
    decodeFrom none (String.utf8EncodeChar c ++ rest) = c :: decodeFrom none rest := by
  have hchar : Char.ofNat c.val.toNat = c := Char.ofNat_toNat c
  have hvalid : c.val.toNat < 0xD800 ∨ 0xDFFF < c.val.toNat ∧ c.val.toNat < 0x110000 := c.valid
  unfold String.utf8EncodeChar
  dsimp only
  generalize c.val.toNat = v at hchar hvalid
  split_ifs with h1 h2 h3
  · exact hchar ▸ decodeFrom_one rest h1
  · exact hchar ▸ decodeFrom_two rest (by omega) h2
  · exact hchar ▸ decodeFrom_three rest (by omega) h3 (by omega)
  · exact hchar ▸ decodeFrom_four rest (by omega) (by omega)

/-- **Decoding undoes encoding.** -/
theorem decode_encode (text : List Char) : decode (encode text) = text := by
  unfold decode
  induction text with
  | nil => rfl
  | cons c rest ih =>
      show decodeFrom none (String.utf8EncodeChar c ++ encode rest) = _
      rw [decodeFrom_encodeChar, ih]

/-! ### Bytes that are the encoding of a text -/

def WellFormed (bytes : List UInt8) : Prop := ∃ text, encode text = bytes

/-- **Encoding undoes decoding on what is well formed, and nowhere else.** -/
theorem encode_decode_iff {bytes : List UInt8} :
    encode (decode bytes) = bytes ↔ WellFormed bytes := by
  refine ⟨?_, ?_⟩
  · intro h
    exact ⟨decode bytes, h⟩
  · rintro ⟨text, rfl⟩
    rw [decode_encode]

instance (bytes : List UInt8) : Decidable (WellFormed bytes) :=
  decidable_of_iff _ encode_decode_iff

end WebrtcEchoes.Utf8
