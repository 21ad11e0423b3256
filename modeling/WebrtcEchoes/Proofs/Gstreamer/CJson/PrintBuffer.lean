/-
What one step of the printer does to its buffer.

Every function of the printer either moves the offset behind what it has written, or leaves
the offset and a NUL behind it, for `update_offset` to find.  What stood in front of the
offset is kept in both cases, and the memory asked for is never more than the text, its NUL
and one byte, so a function fails only where these do not fit.
-/
import WebrtcEchoes.Proofs.Gstreamer.CJson.Text

namespace WebrtcEchoes.Gstreamer.CJson

open Handler Json

/-- The offset is inside of the buffer, or the buffer is empty. -/
def Placed (p : PrintBuffer) : Prop := p.offset < p.cells.length ∨ p.cells = [] ∧ p.offset = 0

/-- What a function keeps of its buffer, whatever it writes behind the offset. -/
structure Kept (p q : PrintBuffer) : Prop where
  front : q.cells.take p.offset = p.cells.take p.offset
  depth : q.depth = p.depth
  noalloc : q.noalloc = p.noalloc
  format : q.format = p.format
  fixed : p.noalloc = true → q.cells.length = p.cells.length
  bounded : q.cells.length ≤ max p.cells.length intMax

/-- The text was written, and the offset is behind it. -/
structure Moved (p : PrintBuffer) (text : Bytes) (q : PrintBuffer) : Prop extends Kept p q where
  written : text.map some <+: q.cells.drop p.offset
  offset : q.offset = p.offset + text.length
  placed : Placed q

/-- The text was written with its NUL, and the offset is not behind it yet. -/
structure Wrote (p : PrintBuffer) (text : Bytes) (q : PrintBuffer) : Prop extends Kept p q where
  written : (text ++ [0]).map some <+: q.cells.drop p.offset
  from_offset : p.offset ≤ q.offset
  to_offset : q.offset ≤ p.offset + text.length
  room : p.offset + text.length + 2 ≤ q.cells.length

section Allocation

variable (allocates : Nat → Bool)

/-- There is no room for so much text, its NUL and one byte. -/
def Blocked (p : PrintBuffer) (length : Nat) : Prop :=
  intMax < p.offset + length + 2 ∨
    if p.noalloc then p.cells.length < p.offset + length + 2 else ∃ size, allocates size = false

def Moves (p : PrintBuffer) (text : Bytes) : Printed PrintBuffer → Prop
  | .done q => Moved p text q
  | .failed => Blocked allocates p text.length
  | .fault => False

def Prints (p : PrintBuffer) (text : Bytes) : Printed PrintBuffer → Prop
  | .done q => Wrote p text q
  | .failed => Blocked allocates p text.length
  | .fault => False

variable {allocates}

/-! ### One after the other -/

theorem Kept.refl (p : PrintBuffer) : Kept p p :=
  ⟨rfl, rfl, rfl, rfl, fun _ => rfl, Nat.le_max_left _ _⟩

theorem kept_trans {p q r : PrintBuffer} (h : Kept p q) (hoffset : p.offset ≤ q.offset)
    (h' : Kept q r) : Kept p r where
  front := by
    have hfront := congrArg (List.take p.offset) h'.front
    rw [List.take_take, List.take_take, Nat.min_eq_left hoffset] at hfront
    rw [hfront, h.front]
  depth := h'.depth.trans h.depth
  noalloc := h'.noalloc.trans h.noalloc
  format := h'.format.trans h.format
  fixed := fun hp => (h'.fixed (h.noalloc.trans hp)).trans (h.fixed hp)
  bounded := by
    have hq := h.bounded
    have hr := h'.bounded
    omega

/-- Two pieces of text that were written one behind the other. -/
theorem written_append {cells cells' : List Cell} {i : Nat} {text text' : Bytes}
    (h : text.map some <+: cells.drop i)
    (hkept : cells'.take (i + text.length) = cells.take (i + text.length))
    (h' : text'.map some <+: cells'.drop (i + text.length)) :
    (text ++ text').map some <+: cells'.drop i := by
  obtain ⟨rest, hrest⟩ := h'
  have hfront : (cells'.drop i).take text.length = text.map some := by
    have hcells := congrArg (List.drop i) hkept
    rw [List.drop_take, List.drop_take, Nat.add_sub_cancel_left] at hcells
    obtain ⟨t, ht⟩ := h
    rw [hcells, ← ht]
    exact List.take_left' (List.length_map some)
  refine ⟨rest, ?_⟩
  rw [List.map_append, List.append_assoc, hrest, ← hfront, ← List.drop_drop]
  exact List.take_append_drop _ _

theorem moved_trans {p q r : PrintBuffer} {text text' : Bytes} (h : Moved p text q)
    (h' : Moved q text' r) : Moved p (text ++ text') r where
  toKept := kept_trans h.toKept (by rw [h.offset]; omega) h'.toKept
  written := by
    have hfront := h'.front
    have hwritten := h'.written
    rw [h.offset] at hfront hwritten
    exact written_append h.written hfront hwritten
  offset := by rw [h'.offset, h.offset, List.length_append, Nat.add_assoc]
  placed := h'.placed

theorem moved_wrote {p q r : PrintBuffer} {text text' : Bytes} (h : Moved p text q)
    (h' : Wrote q text' r) : Wrote p (text ++ text') r where
  toKept := kept_trans h.toKept (by rw [h.offset]; omega) h'.toKept
  written := by
    have hfront := h'.front
    have hwritten := h'.written
    rw [h.offset] at hfront hwritten
    rw [List.append_assoc]
    exact written_append h.written hfront hwritten
  from_offset := by
    have hfrom := h'.from_offset
    rw [h.offset] at hfrom
    omega
  to_offset := by
    have hto := h'.to_offset
    rw [h.offset] at hto
    rw [List.length_append]
    omega
  room := by
    have hroom := h'.room
    rw [h.offset] at hroom
    rw [List.length_append]
    omega

theorem blocked_mono {p : PrintBuffer} {n m : Nat} (h : n ≤ m) (hb : Blocked allocates p n) :
    Blocked allocates p m := by
  unfold Blocked at hb ⊢
  rcases hb with hb | hb
  · exact Or.inl (by omega)
  · refine Or.inr ?_
    split at hb
    · rename_i hp
      rw [if_pos hp]
      omega
    · rename_i hp
      rw [if_neg hp]
      exact hb

theorem blocked_of_moved {p q : PrintBuffer} {text : Bytes} {n : Nat} (h : Moved p text q)
    (hb : Blocked allocates q n) : Blocked allocates p (text.length + n) := by
  unfold Blocked at hb ⊢
  rw [h.offset, h.noalloc] at hb
  rcases hb with hb | hb
  · exact Or.inl (by omega)
  · refine Or.inr ?_
    split at hb
    · rename_i hp
      rw [if_pos hp]
      have hfixed := h.fixed hp
      omega
    · rename_i hp
      rw [if_neg hp]
      exact hb

theorem moves_andThen {p : PrintBuffer} {text text' : Bytes} {r : Printed PrintBuffer}
    {f : PrintBuffer → Printed PrintBuffer} (h : Moves allocates p text r)
    (hf : ∀ q, Moved p text q → Moves allocates q text' (f q)) :
    Moves allocates p (text ++ text') (r.andThen f) := by
  cases r with
  | done q =>
      have hq := hf q h
      show Moves allocates p (text ++ text') (f q)
      cases hr : f q with
      | done r => rw [hr] at hq; exact moved_trans h hq
      | failed =>
          rw [hr] at hq
          show Blocked allocates p (text ++ text').length
          rw [List.length_append]
          exact blocked_of_moved h hq
      | fault => rw [hr] at hq; exact hq
  | failed => exact blocked_mono (by rw [List.length_append]; omega) h
  | fault => exact h

theorem moves_prints {p : PrintBuffer} {text text' : Bytes} {r : Printed PrintBuffer}
    {f : PrintBuffer → Printed PrintBuffer} (h : Moves allocates p text r)
    (hf : ∀ q, Moved p text q → Prints allocates q text' (f q)) :
    Prints allocates p (text ++ text') (r.andThen f) := by
  cases r with
  | done q =>
      have hq := hf q h
      show Prints allocates p (text ++ text') (f q)
      cases hr : f q with
      | done r => rw [hr] at hq; exact moved_wrote h hq
      | failed =>
          rw [hr] at hq
          show Blocked allocates p (text ++ text').length
          rw [List.length_append]
          exact blocked_of_moved h hq
      | fault => rw [hr] at hq; exact hq
  | failed => exact blocked_mono (by rw [List.length_append]; omega) h
  | fault => exact h

theorem moved_nil {p : PrintBuffer} (h : Placed p) : Moved p [] p where
  toKept := Kept.refl p
  written := List.nil_prefix
  offset := rfl
  placed := h

/-! ### The offset -/

theorem cellsStrlen_text {text : Bytes} (h : NoNul text) (rest : List Cell) :
    cellsStrlen ((text ++ [0]).map some ++ rest) = some text.length := by
  induction text with
  | nil => rfl
  | cons b t ih =>
      have hb : b ≠ 0 := h b List.mem_cons_self
      have ht := ih fun c hc => h c (List.mem_cons_of_mem b hc)
      show (if b = 0 then some 0 else (cellsStrlen ((t ++ [0]).map some ++ rest)).map (· + 1)) = _
      rw [if_neg hb, ht]
      rfl

/-- `update_offset` finds the end of the text, wherever in it the offset is. -/
theorem updateOffset_wrote {p q : PrintBuffer} {text : Bytes} (h : Wrote p text q)
    (htext : NoNul text) :
    updateOffset q = .done { q with offset := p.offset + text.length } := by
  obtain ⟨k, hk⟩ := Nat.exists_eq_add_of_le h.from_offset
  have hle : k ≤ text.length := by
    have hto := h.to_offset
    omega
  obtain ⟨rest, hrest⟩ := h.written
  have hcells : q.cells.drop q.offset = (text.drop k ++ [0]).map some ++ rest := by
    rw [hk, ← List.drop_drop, ← hrest, List.drop_append_of_le_length (by simp; omega),
      ← List.map_drop, List.drop_append_of_le_length hle]
  have hnonul : NoNul (text.drop k) := fun b hb => htext b (List.mem_of_mem_drop hb)
  have hlen := cellsStrlen_text hnonul rest
  unfold updateOffset
  rw [hcells, hlen]
  simp only [List.length_drop]
  have hoffset : q.offset + (text.length - k) = p.offset + text.length := by omega
  rw [hoffset]

theorem moved_of_wrote {p q : PrintBuffer} {text : Bytes} (h : Wrote p text q) :
    Moved p text { q with offset := p.offset + text.length } where
  front := h.front
  depth := h.depth
  noalloc := h.noalloc
  format := h.format
  fixed := h.fixed
  bounded := h.bounded
  written := (List.prefix_append (text.map some) _).trans (by
    rw [← List.map_append]
    exact h.written)
  offset := rfl
  placed := Or.inl (by
    have hroom := h.room
    show p.offset + text.length < q.cells.length
    omega)

theorem prints_update {p : PrintBuffer} {text text' : Bytes} {r : Printed PrintBuffer}
    {f : PrintBuffer → Printed PrintBuffer} (h : Prints allocates p text r)
    (htext : NoNul text) (hf : ∀ q, Moved p text q → Moves allocates q text' (f q)) :
    Moves allocates p (text ++ text') (r.andThen fun q => (updateOffset q).andThen f) := by
  cases r with
  | done q =>
      have hmoved := moved_of_wrote h
      show Moves allocates p _ ((updateOffset q).andThen f)
      rw [updateOffset_wrote h htext]
      exact moves_andThen (r := .done _) hmoved hf
  | failed => exact blocked_mono (by rw [List.length_append]; omega) h
  | fault => exact h

/-! ### The memory -/

/-- The buffer is as it was, with more memory behind it. -/
structure Grown (p q : PrintBuffer) : Prop where
  same : ∃ more, q = { p with cells := p.cells ++ more }
  fixed : p.noalloc = true → q.cells.length = p.cells.length
  bounded : q.cells.length ≤ max p.cells.length intMax

theorem grown_refl (p : PrintBuffer) : Grown p p where
  same := ⟨[], by rw [List.append_nil]⟩
  fixed := fun _ => rfl
  bounded := Nat.le_max_left _ _

/-- What `ensure` does: memory for what is needed and one byte, or a reason for none. -/
theorem ensure_spec (allocates : Nat → Bool) (needed : Nat) {p : PrintBuffer} (h : Placed p) :
    match ensure allocates needed p with
    | .done q => Grown p q ∧ p.offset + needed + 1 ≤ q.cells.length
    | .failed => intMax < p.offset + needed + 1 ∨
        if p.noalloc then p.cells.length < p.offset + needed + 1
        else ∃ size, allocates size = false
    | .fault => False := by
  have hvalid : ¬ (0 < p.cells.length ∧ p.cells.length ≤ p.offset) := by
    rcases h with h | ⟨h, -⟩
    · omega
    · simp [h]
  have hgrow : ∀ newsize, p.noalloc = false → newsize ≤ intMax →
      p.offset + needed + 1 ≤ newsize → p.cells.length ≤ newsize →
      match grow allocates newsize p with
      | .done q => Grown p q ∧ p.offset + needed + 1 ≤ q.cells.length
      | .failed => intMax < p.offset + needed + 1 ∨
          if p.noalloc then p.cells.length < p.offset + needed + 1
          else ∃ size, allocates size = false
      | .fault => False := by
    intro newsize hp hmax hneeded hlen
    unfold grow
    cases ha : allocates newsize with
    | false =>
        simp only [Bool.false_eq_true, if_false, hp]
        exact Or.inr ⟨newsize, ha⟩
    | true =>
        have hsize : p.cells.length + (newsize - p.cells.length) = newsize := by omega
        simp only [if_true, List.length_append, List.length_replicate, hsize]
        refine ⟨⟨⟨_, rfl⟩, ?_, ?_⟩, hneeded⟩
        · intro hp'
          rw [hp] at hp'
          cases hp'
        · simp only [List.length_append, List.length_replicate, hsize]
          omega
  unfold ensure
  rw [if_neg hvalid]
  by_cases hmax : intMax < needed
  · rw [if_pos hmax]
    exact Or.inl (by omega)
  rw [if_neg hmax]
  simp only
  by_cases hfits : needed + p.offset + 1 ≤ p.cells.length
  · rw [if_pos hfits]
    exact ⟨grown_refl p, by omega⟩
  rw [if_neg hfits]
  cases hp : p.noalloc with
  | true =>
      simp only [if_true]
      exact Or.inr (by omega)
  | false =>
      rw [hp] at hgrow
      simp only [Bool.false_eq_true, if_false]
      by_cases hhalf : intMax / 2 < needed + p.offset + 1
      · rw [if_pos hhalf]
        by_cases hle : needed + p.offset + 1 ≤ intMax
        · rw [if_pos hle]
          exact hgrow intMax rfl (Nat.le_refl _) (by omega) (by omega)
        · rw [if_neg hle]
          exact Or.inl (by omega)
      · rw [if_neg hhalf]
        exact hgrow _ rfl (by omega) (by omega) (by omega)

theorem write_of_room {bytes : Bytes} {p : PrintBuffer}
    (h : p.offset + bytes.length ≤ p.cells.length) :
    write 0 bytes p = .done { p with
      cells := p.cells.take p.offset ++ bytes.map some ++
        p.cells.drop (p.offset + bytes.length) } := if_pos h

/-- Two writes side by side are one. -/
theorem write_write (k : Nat) (bytes bytes' : Bytes) (p : PrintBuffer) :
    (write k bytes p).andThen (write (k + bytes.length) bytes') = write k (bytes ++ bytes') p := by
  unfold write
  simp only [List.length_append]
  by_cases h : p.offset + k + bytes.length ≤ p.cells.length
  · rw [if_pos h]
    have hlen : (p.cells.take (p.offset + k) ++ bytes.map some ++
        p.cells.drop (p.offset + k + bytes.length)).length = p.cells.length := by
      simp only [List.length_append, List.length_take, List.length_map, List.length_drop]
      omega
    have hhead : (p.cells.take (p.offset + k) ++ bytes.map some).length =
        p.offset + k + bytes.length := by
      simp only [List.length_append, List.length_take, List.length_map]
      omega
    show (if _ then _ else _) = _
    simp only [hlen, ← Nat.add_assoc]
    by_cases h' : p.offset + k + bytes.length + bytes'.length ≤ p.cells.length
    · rw [if_pos h', if_pos h']
      have htake : (p.cells.take (p.offset + k) ++ bytes.map some ++
          p.cells.drop (p.offset + k + bytes.length)).take (p.offset + k + bytes.length) =
          p.cells.take (p.offset + k) ++ bytes.map some := by
        exact List.take_left' hhead
      have hdrop : (p.cells.take (p.offset + k) ++ bytes.map some ++
          p.cells.drop (p.offset + k + bytes.length)).drop
            (p.offset + k + bytes.length + bytes'.length) =
          p.cells.drop (p.offset + k + bytes.length + bytes'.length) := by
        rw [← List.drop_drop, List.drop_left' hhead, List.drop_drop]
      rw [htake, hdrop, List.map_append]
      simp only [List.append_assoc]
    · rw [if_neg h', if_neg h']
  · rw [if_neg h, if_neg (by omega)]
    rfl

/-- What a write into memory that was made room for leaves. -/
theorem write_grown {p q : PrintBuffer} (bytes : Bytes) (h : Grown p q)
    (hle : p.offset ≤ p.cells.length) (hroom : p.offset + bytes.length ≤ q.cells.length) :
    ∃ r, write 0 bytes q = .done r ∧ Kept p r ∧ bytes.map some <+: r.cells.drop p.offset ∧
      r.offset = p.offset ∧ r.cells.length = q.cells.length := by
  obtain ⟨more, hq⟩ := h.same
  have hoffset : q.offset = p.offset := by rw [hq]
  have htake : q.cells.take p.offset = p.cells.take p.offset := by
    rw [hq]
    exact List.take_append_of_le_length hle
  have hlen : (q.cells.take p.offset ++ bytes.map some ++
      q.cells.drop (p.offset + bytes.length)).length = q.cells.length := by
    simp only [List.length_append, List.length_take, List.length_map, List.length_drop]
    omega
  have hfront : (q.cells.take p.offset).length = p.offset := by
    rw [List.length_take]
    omega
  refine ⟨_, write_of_room (by rw [hoffset]; exact hroom), ?_, ?_, hoffset, ?_⟩
  · rw [hoffset]
    refine ⟨?_, by rw [hq], by rw [hq], by rw [hq], ?_, ?_⟩
    · show (q.cells.take p.offset ++ bytes.map some ++ _).take p.offset = _
      rw [List.append_assoc, List.take_append_of_le_length (by omega), List.take_take,
        Nat.min_self, htake]
    · intro hp
      rw [hlen]
      exact h.fixed hp
    · rw [hlen]
      exact h.bounded
  · rw [hoffset]
    show _ <+: (q.cells.take p.offset ++ bytes.map some ++ _).drop p.offset
    rw [List.append_assoc, List.drop_left' hfront]
    exact List.prefix_append _ _
  · rw [hoffset]
    exact hlen

theorem placed_le {p : PrintBuffer} (h : Placed p) : p.offset ≤ p.cells.length := by
  rcases h with h | ⟨-, h⟩
  · exact Nat.le_of_lt h
  · rw [h]
    exact Nat.zero_le _

/-- Memory that is not there for what is needed is not there for the text. -/
theorem blocked_of_needed {p : PrintBuffer} {needed n : Nat} (hle : needed ≤ n + 1)
    (h : intMax < p.offset + needed + 1 ∨
      if p.noalloc then p.cells.length < p.offset + needed + 1
      else ∃ size, allocates size = false) : Blocked allocates p n := by
  unfold Blocked
  rcases h with h | h
  · exact Or.inl (by omega)
  · refine Or.inr ?_
    split at h
    · rename_i hp
      rw [if_pos hp]
      omega
    · rename_i hp
      rw [if_neg hp]
      exact h

/-- Bytes are put at the offset when there is memory for what is needed. -/
theorem put_spec {needed n : Nat} {bytes : Bytes} {p : PrintBuffer} (h : Placed p)
    (hlow : bytes.length ≤ needed) (hhigh : needed ≤ n + 1) :
    (∃ q, put allocates needed bytes p = .done q ∧ Kept p q ∧
      bytes.map some <+: q.cells.drop p.offset ∧ q.offset = p.offset ∧
        p.offset + needed + 1 ≤ q.cells.length) ∨
    put allocates needed bytes p = .failed ∧ Blocked allocates p n := by
  have hspec := ensure_spec allocates needed h
  unfold put
  cases he : ensure allocates needed p with
  | done q =>
      rw [he] at hspec
      obtain ⟨hgrown, hroom⟩ := hspec
      obtain ⟨r, hwrite, hkept, hwritten, hoffset, hlen⟩ :=
        write_grown bytes hgrown (placed_le h) (by omega)
      exact Or.inl ⟨r, hwrite, hkept, hwritten, hoffset, by omega⟩
  | failed =>
      rw [he] at hspec
      exact Or.inr ⟨rfl, blocked_of_needed hhigh hspec⟩
  | fault =>
      rw [he] at hspec
      exact hspec.elim

/-- Text is put at the offset, which moves on. -/
theorem emit_moves {needed length : Nat} (text tail : Bytes) {p : PrintBuffer} (h : Placed p)
    (hlength : length = text.length) (hlow : (text ++ tail).length ≤ needed)
    (hhigh : needed ≤ text.length + 1) :
    Moves allocates p text (emit allocates needed (text ++ tail) length p) := by
  unfold emit
  rcases put_spec h hlow hhigh with ⟨q, hput, hkept, hwritten, hoffset, hroom⟩ | ⟨hput, hb⟩
  · rw [hput]
    refine ⟨⟨hkept.front, hkept.depth, hkept.noalloc, hkept.format, hkept.fixed,
      hkept.bounded⟩, ?_, ?_, Or.inl ?_⟩
    · rw [List.map_append] at hwritten
      exact (List.prefix_append _ _).trans hwritten
    · show q.offset + length = _
      rw [hoffset, hlength]
    · show q.offset + length < q.cells.length
      rw [List.length_append] at hlow
      omega
  · rw [hput]
    exact hb

/-- Text is put at the offset with its NUL. -/
theorem put_prints {needed : Nat} {text : Bytes} {p : PrintBuffer} (h : Placed p)
    (hneeded : needed = text.length + 1) :
    Prints allocates p text (put allocates needed (text ++ [0]) p) := by
  have hlen : (text ++ [0]).length = text.length + 1 := List.length_append
  rcases put_spec h (by rw [hlen, hneeded]) (Nat.le_of_eq hneeded) with
    ⟨q, hput, hkept, hwritten, hoffset, hroom⟩ | ⟨hput, hb⟩
  · rw [hput]
    exact ⟨hkept, hwritten, by omega, by omega, by omega⟩
  · rw [hput]
    exact hb

/-- The same, and the offset moves on to the NUL. -/
theorem emit_prints {text : Bytes} {p : PrintBuffer} (h : Placed p) :
    Prints allocates p text (emit allocates (text.length + 1) (text ++ [0]) text.length p) := by
  have hlen : (text ++ [0]).length = text.length + 1 := List.length_append
  unfold emit
  rcases put_spec h (Nat.le_of_eq hlen) (Nat.le_refl _) with
    ⟨q, hput, hkept, hwritten, hoffset, hroom⟩ | ⟨hput, hb⟩
  · rw [hput]
    refine ⟨⟨hkept.front, hkept.depth, hkept.noalloc, hkept.format, hkept.fixed,
      hkept.bounded⟩, hwritten, ?_, ?_, ?_⟩
    · show p.offset ≤ q.offset + text.length
      omega
    · show q.offset + text.length ≤ p.offset + text.length
      omega
    · show p.offset + text.length + 2 ≤ q.cells.length
      omega
  · rw [hput]
    exact hb

end Allocation

end WebrtcEchoes.Gstreamer.CJson
