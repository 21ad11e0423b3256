/-
What `dump` writes of a text.

`dump_escaped` goes through the code points and escapes only ASCII ones.  In UTF-8 every byte
of another code point is above them, so the same is written when the escapes are taken byte
by byte, as `Lib/Json.lean` writes a string.  A reader that takes the escapes back has the
bytes that the text had.
-/
import WebrtcEchoes.Libwebrtc.Json
import WebrtcEchoes.Proofs.AnswerText

namespace WebrtcEchoes.Libwebrtc

/-! ### The bytes of a text -/

theorem utf8_bytesOf (text : String) : utf8 (bytesOf text) = some text := by
  unfold utf8 bytesOf String.fromUTF8?
  exact dif_pos text.isValidUTF8

theorem bytesOf_of_utf8 {bytes : Bytes} {text : String} (h : utf8 bytes = some text) :
    bytesOf text = bytes := by
  unfold utf8 String.fromUTF8? at h
  split at h
  · rw [← Option.some.inj h]
    rfl
  · simp at h

theorem bytesOf_eq_encode (text : String) : bytesOf text = Utf8.encode text.toList := by
  have h : text.toByteArray = text.toList.utf8Encode := by
    rw [← String.toByteArray_ofList, String.ofList_toList]
  show text.toByteArray.data.toList = _
  rw [h]
  exact List.toList_data_toByteArray

/-! ### No escape has a NUL -/

theorem digitChar_ne_nul {n : Nat} (h : n < 16) : Nat.digitChar n ≠ '\x00' := by
  have key : ∀ k : Fin 16, Nat.digitChar k ≠ '\x00' := by decide
  exact key ⟨n, h⟩

theorem escape_ne_nul {c d : Char} (h : d ∈ escape c) : d ≠ '\x00' := by
  have hpair : ∀ e : Char, e ≠ '\x00' → d ∈ ['\\', e] → d ≠ '\x00' := by
    intro e he hd
    simp only [List.mem_cons, List.not_mem_nil, or_false] at hd
    rcases hd with rfl | rfl
    · decide
    · exact he
  unfold escape at h
  split_ifs at h with h1 h2 h3 h4 h5 h6 h7 h8
  iterate 7 exact hpair _ (by decide) h
  · have hhi : Nat.digitChar (c.toNat / 16) ≠ '\x00' := digitChar_ne_nul (by omega)
    have hlo : Nat.digitChar (c.toNat % 16) ≠ '\x00' := digitChar_ne_nul (by omega)
    simp only [List.mem_cons, List.not_mem_nil, or_false] at h
    rcases h with rfl | rfl | rfl | rfl | rfl | rfl
    · decide
    · decide
    · decide
    · decide
    · exact hhi
    · exact hlo
  · obtain rfl : d = c := by simpa using h
    intro hnul
    rw [hnul] at h8
    exact h8 (by decide)

/-! ### The escapes, byte by byte -/

/-- The bytes of a code point that is not ASCII. -/
theorem utf8EncodeChar_high {c : Char} (h : 0x7F < c.toNat) {b : UInt8}
    (hb : b ∈ String.utf8EncodeChar c) : 0x80 ≤ b.toNat := by
  have hpos : ¬ c.val.toNat ≤ 0x7F := Nat.not_le.mpr h
  have hof : ∀ n, 0x80 ≤ n → n < 256 → 0x80 ≤ (UInt8.ofNat n).toNat := by
    intro n hlow hhigh
    rw [Utf8.toNat_ofNat_of_lt hhigh]
    exact hlow
  have hvalid : c.val.toNat < 0x110000 := by
    have := c.valid
    simp only [UInt32.isValidChar, Nat.isValidChar] at this
    omega
  unfold String.utf8EncodeChar at hb
  dsimp only at hb
  rw [if_neg hpos] at hb
  split_ifs at hb
  all_goals
    simp only [List.mem_cons, List.not_mem_nil, or_false] at hb
    rcases hb with rfl | rfl | rfl | rfl <;> exact hof _ (by omega) (by omega)

theorem pieceOf_text_high {b : UInt8} (h : 0x80 ≤ b.toNat) : (Json.pieceOf b).text = [b] := by
  have hplain : 32 ≤ b ∧ b ≠ 34 ∧ b ≠ 92 := by
    refine ⟨Nat.le_trans (by decide : 32 ≤ 0x80) h, ?_, ?_⟩ <;>
    · rintro rfl
      exact absurd h (by decide)
  rw [Json.pieceOf, dif_pos hplain]
  rfl

theorem encode_escape (c : Char) :
    Utf8.encode (escape c) =
      (String.utf8EncodeChar c).flatMap fun b => (Json.pieceOf b).text := by
  by_cases h : c.toNat ≤ 0x7F
  · have key : ∀ n : Fin 128, Utf8.encode (escape (Char.ofNat n)) =
        (String.utf8EncodeChar (Char.ofNat n)).flatMap fun b => (Json.pieceOf b).text := by
      decide +kernel
    have hc := key ⟨c.toNat, by omega⟩
    rwa [Char.ofNat_toNat] at hc
  · have hplain : escape c = [c] := by
      unfold escape
      repeat rw [if_neg (by omega)]
    have hsame : ∀ bs : Bytes, (∀ b ∈ bs, 0x80 ≤ b.toNat) →
        bs.flatMap (fun b => (Json.pieceOf b).text) = bs := by
      intro bs hbs
      induction bs with
      | nil => rfl
      | cons b rest ih =>
          rw [List.flatMap_cons, pieceOf_text_high (hbs b (by simp)),
            ih fun d hd => hbs d (by simp [hd])]
          rfl
    rw [hplain, hsame _ fun b hb => utf8EncodeChar_high (by omega) hb]
    simp [Utf8.encode]

/-- What is written of a text are the bytes of the text as a string of the grammar. -/
theorem encode_escapes (text : List Char) :
    Utf8.encode (text.flatMap escape) = Json.content (Json.pieces (Utf8.encode text)) := by
  unfold Json.content Json.pieces
  rw [List.flatMap_map]
  induction text with
  | nil => rfl
  | cons c rest ih =>
      have hcons : Utf8.encode ((c :: rest).flatMap escape) =
          Utf8.encode (escape c) ++ Utf8.encode (rest.flatMap escape) := by
        simp [Utf8.encode]
      rw [hcons, ih, encode_escape]
      simp [Utf8.encode]

end WebrtcEchoes.Libwebrtc
