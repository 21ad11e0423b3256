/-
What `cJSON_Parse` makes of a valid text.

The text of a document is read for what it says, wherever it stands in the buffer, as long as
no numeral is longer than the buffer of `parse_number` and arrays and objects are nested no
deeper than the limit; one that is nested deeper fails.  The induction is over the document,
with what follows it in the buffer as an argument: only a numeral depends on that.
-/
import WebrtcEchoes.Proofs.Gstreamer.CJson.Strings

namespace WebrtcEchoes.Gstreamer.CJson

open Handler Json

variable {ν : Type}

/-! ### White space -/

theorem skipWhitespace_cons {b : UInt8} (h : 32 < b) (s : Bytes) :
    skipWhitespace (b :: s) = b :: s := by
  have hb : decide (b ≤ 32) = false := decide_eq_false (UInt8.not_le.mpr h)
  unfold skipWhitespace
  rw [List.dropWhile_cons_of_neg (by rw [hb]; exact Bool.false_ne_true)]

theorem skipWhitespace_space (w : Space) {b : UInt8} (h : 32 < b) (s : Bytes) :
    skipWhitespace (w.text ++ b :: s) = b :: s := by
  have hdrop : (w.text ++ b :: s).dropWhile (· ≤ 32) = (b :: s).dropWhile (· ≤ 32) :=
    List.dropWhile_append_of_pos fun c hc => decide_eq_true (space_byte hc).1
  have hb : decide (b ≤ 32) = false := decide_eq_false (UInt8.not_le.mpr h)
  unfold skipWhitespace
  rw [hdrop, List.dropWhile_cons_of_neg (by rw [hb]; exact Bool.false_ne_true)]

theorem skipWhitespace_idem (s : Bytes) : skipWhitespace (skipWhitespace s) = skipWhitespace s := by
  cases hdrop : s.dropWhile (· ≤ 32) with
  | nil =>
      have hskip : skipWhitespace s = s.getLast?.toList := by
        unfold skipWhitespace
        rw [hdrop]
      rw [hskip]
      cases s.getLast? with
      | none => rfl
      | some b =>
          show skipWhitespace [b] = [b]
          unfold skipWhitespace
          by_cases hb : b ≤ 32
          · rw [List.dropWhile_cons_of_pos (by simpa using hb)]
            rfl
          · rw [List.dropWhile_cons_of_neg (by simpa using hb)]
  | cons b rest =>
      have hskip : skipWhitespace s = b :: rest := by
        unfold skipWhitespace
        rw [hdrop]
      have hb : ¬ (decide (b ≤ 32)) = true := by
        have hhead := List.head?_dropWhile_not (fun c : UInt8 => decide (c ≤ 32)) s
        rw [hdrop] at hhead
        simpa using hhead
      rw [hskip]
      exact skipWhitespace_cons (UInt8.not_le.mp (by simpa using hb)) rest

/-- White space in front of a document is skipped. -/
theorem skipWhitespace_doc (w : Space) (d : Doc) (s : Bytes) :
    skipWhitespace (w.text ++ (d.text ++ s)) = d.text ++ s := by
  obtain ⟨b, t, hd, hb, -, -⟩ := d.text_head
  rw [hd]
  exact skipWhitespace_space w hb _

/-! ### Numbers -/

/-- The reading of a number ends in front of `s`. -/
def Stops (s : Bytes) : Prop := ∀ b ∈ s.head?, isNumberByte b = false

theorem isNumberByte_of_numeral {n : Numeral} {b : UInt8} (h : b ∈ n.text) :
    isNumberByte b = true := by
  have hb := numeral_byte h
  simp only [isNumberByte, Bool.or_eq_true, Bool.and_eq_true, decide_eq_true_eq, beq_iff_eq]
  rcases hb with hb | hb | hb | hb | hb | hb
  · exact Or.inl (Or.inl (Or.inl (Or.inl (Or.inl hb))))
  · exact Or.inl (Or.inl (Or.inl (Or.inl (Or.inr hb))))
  · exact Or.inl (Or.inl (Or.inl (Or.inr hb)))
  · exact Or.inr hb
  · exact Or.inl (Or.inr hb)
  · exact Or.inl (Or.inl (Or.inr hb))

theorem stops_space (w : Space) {b : UInt8} (h : isNumberByte b = false) (s : Bytes) :
    Stops (w.text ++ b :: s) := by
  intro c hc
  cases w with
  | nil =>
      obtain rfl : b = c := by simpa [Space.text] using hc
      exact h
  | cons x xs =>
      obtain rfl : x.byte = c := by simpa [Space.text] using hc
      cases x <;> rfl

theorem digitsLength_append (d : Digits) {s : Bytes} (h : ∀ b ∈ s.head?, isDigit b = false) :
    digitsLength (d.text ++ s) = d.text.length := by
  have hall : ∀ b ∈ d.text, isDigit b = true := by
    intro b hb
    have hrange := digits_byte hb
    simpa [isDigit] using hrange
  have hnone : s.takeWhile isDigit = [] := by
    cases s with
    | nil => rfl
    | cons b t =>
        have hb := h b rfl
        exact List.takeWhile_cons_of_neg (by rw [hb]; exact Bool.false_ne_true)
  rw [digitsLength, List.takeWhile_append_of_pos hall, hnone, List.append_nil]

theorem exponentText_head (e : Option Exponent) : ∀ b ∈ (exponentText e).head?,
    isDigit b = false ∧ b ≠ 46 := by
  intro b hb
  cases e with
  | none => cases hb
  | some e =>
      obtain rfl : (if e.upper then 69 else 101) = b := by
        simpa [exponentText, Exponent.text] using hb
      cases e.upper <;> decide

theorem fractionLength_text (f : Option Digits) (e : Option Exponent) :
    fractionLength (fractionText f ++ exponentText e) = (fractionText f).length := by
  have hhead := exponentText_head e
  cases f with
  | none =>
      cases he : exponentText e with
      | nil => rfl
      | cons b t =>
          rw [he] at hhead
          exact if_neg (hhead b rfl).2
  | some d =>
      have hdigits := digitsLength_append d (s := exponentText e) fun b hb => (hhead b hb).1
      show digitsLength (d.text ++ exponentText e) + 1 = d.text.length + 1
      rw [hdigits]

theorem exponentLength_text (e : Option Exponent) :
    exponentLength (exponentText e) = (exponentText e).length := by
  cases e with
  | none => rfl
  | some e =>
      obtain ⟨upper, sign, digits⟩ := e
      have hletter : (if upper then (69 : UInt8) else 101) = 101 ∨
          (if upper then (69 : UInt8) else 101) = 69 := by
        cases upper <;> decide
      have hdigits := digitsLength_append digits (s := []) (by intro b hb; cases hb)
      rw [List.append_nil] at hdigits
      have hpos : 0 < digits.text.length := Nat.succ_pos _
      have hsign : signLength (sign.toList.map Sign.byte ++ digits.text) = sign.toList.length := by
        cases sign with
        | none =>
            have hfirst := digitByte_range digits.first
            refine if_neg ?_
            rintro (hc | hc)
            · rw [hc] at hfirst
              exact absurd hfirst.1 (by decide)
            · rw [hc] at hfirst
              exact absurd hfirst.1 (by decide)
        | some s => cases s <;> rfl
      have hdrop : (sign.toList.map Sign.byte ++ digits.text).drop sign.toList.length =
          digits.text := by
        rw [← List.length_map (f := Sign.byte), List.drop_left]
      show exponentLength (_ :: _) = _
      unfold exponentLength
      simp only [hsign, hdrop, hdigits]
      rw [if_pos ⟨hletter, hpos⟩]
      simp only [exponentText, Exponent.text, List.length_cons, List.length_append,
        List.length_map]
      omega

theorem signLength_text (n : Numeral) :
    signLength n.text = (if n.negative then ([45] : Bytes) else []).length := by
  obtain ⟨negative, whole, fraction, exponent⟩ := n
  cases negative with
  | true => rfl
  | false =>
      have hfirst := digitByte_range whole.digits.first
      refine if_neg ?_
      rintro (hc | hc)
      · rw [hc] at hfirst
        exact absurd hfirst.1 (by decide)
      · rw [hc] at hfirst
        exact absurd hfirst.1 (by decide)

/-- `strtod` reads a numeral to its end. -/
theorem strtodEnd_text (n : Numeral) : strtodEnd n.text = n.text.length := by
  have hsign := signLength_text n
  obtain ⟨negative, whole, fraction, exponent⟩ := n
  have htext : (Numeral.mk negative whole fraction exponent).text =
    (if negative then [45] else []) ++
      (whole.digits.text ++ (fractionText fraction ++ exponentText exponent)) := rfl
  rw [htext] at hsign ⊢
  generalize hs : (if negative then ([45] : Bytes) else []) = sign at hsign ⊢
  have hhead : ∀ b ∈ (fractionText fraction ++ exponentText exponent).head?,
      isDigit b = false := by
    intro b hb
    cases fraction with
    | none => exact (exponentText_head exponent b hb).1
    | some d =>
        obtain rfl : 46 = b := by simpa [fractionText] using hb
        rfl
  have hwhole := digitsLength_append whole.digits hhead
  have hpos : 0 < whole.digits.text.length := Nat.succ_pos _
  have hfraction := fractionLength_text fraction exponent
  have hexponent := exponentLength_text exponent
  unfold strtodEnd
  simp only [hsign, List.drop_left, hwhole]
  rw [← List.drop_drop, List.drop_left, List.drop_left, hfraction, if_neg (by omega),
    ← List.drop_drop, ← List.drop_drop, List.drop_left, List.drop_left, List.drop_left,
    hexponent]
  simp only [List.length_append]
  omega

/-- A numeral that fits the buffer of `parse_number` is read as a whole. -/
theorem parseNumber_text (libc : Libc ν) {n : Numeral} (h : n.text.length ≤ 63) {rest : Bytes}
    (hrest : Stops rest) :
    parseNumber libc (n.text ++ rest) = .done (.number (libc.strtod n.text)) rest := by
  have htake : (n.text ++ rest).take 63 = n.text ++ rest.take (63 - n.text.length) := by
    rw [List.take_append, List.take_of_length_le h]
  have hnone : (rest.take (63 - n.text.length)).takeWhile isNumberByte = [] := by
    cases hr : rest.take (63 - n.text.length) with
    | nil => rfl
    | cons b t =>
        have hb : b ∈ rest.head? := by
          cases rest with
          | nil => simp at hr
          | cons c r =>
              cases hk : 63 - n.text.length with
              | zero => simp [hk] at hr
              | succ k =>
                  simp only [hk, List.take_succ_cons, List.cons.injEq] at hr
                  rw [hr.1]
                  rfl
        exact List.takeWhile_cons_of_neg (by rw [hrest b hb]; exact Bool.false_ne_true)
  have hread : ((n.text ++ rest).take 63).takeWhile isNumberByte = n.text := by
    rw [htake, List.takeWhile_append_of_pos fun b hb => isNumberByte_of_numeral hb, hnone,
      List.append_nil]
  have hne : n.text.length ≠ 0 := by
    obtain ⟨b, s, hn, -⟩ := numeral_head n
    rw [hn]
    exact Nat.succ_ne_zero _
  unfold parseNumber
  simp only [hread, strtodEnd_text]
  rw [if_neg hne, List.take_length, List.drop_left]

/-! ### Values -/

section Seen

variable (libc : Libc ν)

/-- A document as it is read: numerals by `strtod`, and texts up to their first NUL. -/
def seen (d : Doc) : Value ν := d.value (fun n => libc.strtod n.text) cString

def seenItems (items : Items) : List (Value ν) :=
  items.values (fun n => libc.strtod n.text) cString

def seenMembers (members : Members) : List (Bytes × Value ν) :=
  members.values (fun n => libc.strtod n.text) cString

end Seen

/-- The numeral fits the buffer of `parse_number`. -/
def Short (n : Numeral) : Prop := n.text.length ≤ 63

/-- The reading of something nested to `depth`, with `x` as its outcome. -/
def within {α : Type} (depth : Nat) (x : α) (rest : Bytes) : Parsed α :=
  if depth ≤ nestingLimit then .done x rest else .failed

theorem within_of_le {α : Type} {depth : Nat} (h : depth ≤ nestingLimit) (x : α) (rest : Bytes) :
    within depth x rest = .done x rest := if_pos h

theorem within_of_lt {α : Type} {depth : Nat} (h : nestingLimit < depth) (x : α) (rest : Bytes) :
    within depth x rest = .failed := if_neg (Nat.not_le.mpr h)

theorem ascii_null : ascii "null" = [110, 117, 108, 108] := rfl

theorem ascii_false : ascii "false" = [102, 97, 108, 115, 101] := rfl

theorem ascii_true : ascii "true" = [116, 114, 117, 101] := rfl

theorem isPrefixOf_cons_of_ne {a b : UInt8} (h : b ≠ a) (s t : Bytes) :
    (a :: s).isPrefixOf (b :: t) = false := by
  rw [List.isPrefixOf, beq_false_of_ne (Ne.symm h)]
  rfl

/-- A value that is none of the three words is read by its first byte. -/
theorem parseValue_cons (libc : Libc ν) (fuel depth : Nat) {b : UInt8}
    (h : b ≠ 110 ∧ b ≠ 102 ∧ b ≠ 116) (rest : Bytes) :
    parseValue libc (fuel + 1) depth (b :: rest) =
      if b = 34 then (parseString (b :: rest)).andThen fun text rest => .done (.string text) rest
      else if b = 45 ∨ (48 ≤ b ∧ b ≤ 57) then parseNumber libc (b :: rest)
      else if b = 91 then parseArray (parseItems libc fuel (depth + 1)) depth rest
      else if b = 123 then parseObject (parseMembers libc fuel (depth + 1)) depth rest
      else .failed := by
  have hnull : (ascii "null").isPrefixOf (b :: rest) = false :=
    isPrefixOf_cons_of_ne h.1 _ rest
  have hfalse : (ascii "false").isPrefixOf (b :: rest) = false :=
    isPrefixOf_cons_of_ne h.2.1 _ rest
  have htrue : (ascii "true").isPrefixOf (b :: rest) = false :=
    isPrefixOf_cons_of_ne h.2.2 _ rest
  rw [parseValue, hnull, hfalse, htrue]
  rfl

theorem parseRest_close {α : Type} (close : UInt8) (h : 32 < close ∧ close ≠ 44)
    (loop : Bytes → Parsed (List α)) (x : α) (after : Space) (rest : Bytes) :
    parseRest close loop x (after.text ++ close :: rest) = .done [x] rest := by
  unfold parseRest
  rw [skipWhitespace_space after h.1]
  exact (if_neg h.2).trans (if_pos rfl)

theorem parseRest_comma {α : Type} (close : UInt8) (loop : Bytes → Parsed (List α)) (x : α)
    (after : Space) (rest : Bytes) :
    parseRest close loop x (after.text ++ 44 :: rest) =
      (loop rest).andThen fun xs rest => .done (x :: xs) rest := by
  unfold parseRest
  rw [skipWhitespace_space after (by decide)]
  exact if_pos rfl

theorem parseColon_colon (w : Space) (rest : Bytes) :
    parseColon (w.text ++ 58 :: rest) = .done () rest := by
  unfold parseColon
  rw [skipWhitespace_space w (by decide)]
  exact if_pos rfl

/-- An array that is not empty is read by its loop. -/
theorem parseArray_items (loop : Bytes → Parsed (List (Value ν))) (depth : Nat) (items : Items)
    (rest : Bytes) (hloop : ∀ s, loop (skipWhitespace s) = loop s) :
    parseArray loop depth (items.text ++ rest) =
      if nestingLimit ≤ depth then .failed
      else (loop (items.text ++ rest)).andThen fun xs rest => .done (.array xs) rest := by
  have hhead : ∃ b t, skipWhitespace (items.text ++ rest) = b :: t ∧ b ≠ 93 := by
    cases items with
    | last before d after =>
        obtain ⟨b, t, hd, -, -, hb⟩ := d.text_head
        refine ⟨b, t ++ (after.text ++ rest), ?_, hb⟩
        rw [Items.text, List.append_assoc, List.append_assoc, skipWhitespace_doc, hd]
        rfl
    | more before d after more =>
        obtain ⟨b, t, hd, -, -, hb⟩ := d.text_head
        refine ⟨b, t ++ (after.text ++ 44 :: more.text ++ rest), ?_, hb⟩
        rw [Items.text, List.append_assoc, List.append_assoc, skipWhitespace_doc, hd]
        rfl
  obtain ⟨b, t, hskip, hb⟩ := hhead
  rw [← hloop (items.text ++ rest)]
  unfold parseArray
  rw [hskip]
  simp only
  rw [if_neg hb]

theorem parseObject_members (loop : Bytes → Parsed (List (Bytes × Value ν))) (depth : Nat)
    (members : Members) (rest : Bytes) (hloop : ∀ s, loop (skipWhitespace s) = loop s) :
    parseObject loop depth (members.text ++ rest) =
      if nestingLimit ≤ depth then .failed
      else (loop (members.text ++ rest)).andThen fun ms rest => .done (.object ms) rest := by
  have hhead : ∃ t, skipWhitespace (members.text ++ rest) = 34 :: t := by
    cases members with
    | last before key w w' d after =>
        rw [Members.text, List.append_assoc]
        exact ⟨_, skipWhitespace_space before (b := 34) (by decide) _⟩
    | more before key w w' d after more =>
        rw [Members.text, List.append_assoc]
        exact ⟨_, skipWhitespace_space before (b := 34) (by decide) _⟩
  obtain ⟨t, hskip⟩ := hhead
  rw [← hloop (members.text ++ rest)]
  unfold parseObject
  rw [hskip]
  simp only
  rw [if_neg (by decide : (34 : UInt8) ≠ 125)]

theorem parseItems_skip (libc : Libc ν) (fuel depth : Nat) (s : Bytes) :
    parseItems libc fuel depth (skipWhitespace s) = parseItems libc fuel depth s := by
  cases fuel with
  | zero => rw [parseItems, parseItems]
  | succ fuel => rw [parseItems, parseItems, skipWhitespace_idem]

theorem parseMembers_skip (libc : Libc ν) (fuel depth : Nat) (s : Bytes) :
    parseMembers libc fuel depth (skipWhitespace s) = parseMembers libc fuel depth s := by
  cases fuel with
  | zero => rw [parseMembers, parseMembers]
  | succ fuel => rw [parseMembers, parseMembers, skipWhitespace_idem]

/-- Two levels of the limit are one. -/
theorem within_andThen {α β : Type} (depth : Nat) (x : α) (rest : Bytes) (f : α → β) :
    ((within depth x rest).andThen fun x rest => .done (f x) rest) =
      within depth (f x) rest := by
  unfold within
  split <;> rfl

mutual
theorem parseValue_doc (libc : Libc ν) : (d : Doc) → d.AllNumerals Short →
    ∀ {fuel depth : Nat} {rest : Bytes}, depth ≤ nestingLimit → Stops rest →
      2 * d.text.length ≤ fuel →
      parseValue libc fuel depth (d.text ++ rest) = within (depth + d.depth) (seen libc d) rest
  | .null, _, fuel, depth, rest, hdepth, _, hfuel => by
      obtain ⟨k, rfl⟩ := Nat.exists_eq_succ_of_ne_zero (Nat.ne_of_gt (Nat.lt_of_lt_of_le
        (by decide) hfuel))
      have hwithin : within (depth + Doc.null.depth) (seen libc .null) rest = _ :=
        within_of_le hdepth _ _
      show parseValue libc (k + 1) depth (110 :: 117 :: 108 :: 108 :: rest) = _
      rw [hwithin, parseValue, ascii_null]
      rfl
  | .bool b, _, fuel, depth, rest, hdepth, _, hfuel => by
      obtain ⟨k, rfl⟩ := Nat.exists_eq_succ_of_ne_zero (Nat.ne_of_gt (Nat.lt_of_lt_of_le
        (by cases b <;> decide) hfuel))
      have hwithin : within (depth + (Doc.bool b).depth) (seen libc (.bool b)) rest = _ :=
        within_of_le hdepth _ _
      rw [hwithin]
      cases b with
      | false =>
          show parseValue libc (k + 1) depth (102 :: 97 :: 108 :: 115 :: 101 :: rest) = _
          rw [parseValue, ascii_null, ascii_false]
          rfl
      | true =>
          show parseValue libc (k + 1) depth (116 :: 114 :: 117 :: 101 :: rest) = _
          rw [parseValue, ascii_null, ascii_false, ascii_true]
          rfl
  | .number n, hshort, fuel, depth, rest, hdepth, hrest, hfuel => by
      obtain ⟨b, t, hn, hb⟩ := numeral_head n
      have hfuel' : 2 * n.text.length ≤ fuel := hfuel
      obtain ⟨k, rfl⟩ : ∃ k, fuel = k + 1 := by
        rw [hn, List.length_cons] at hfuel'
        exact ⟨fuel - 1, by omega⟩
      have hwords : b ≠ 110 ∧ b ≠ 102 ∧ b ≠ 116 ∧ b ≠ 34 := by
        rcases hb with rfl | ⟨hlow, hhigh⟩
        · decide
        · refine ⟨?_, ?_, ?_, ?_⟩ <;> intro hc <;> subst hc
          · exact absurd hhigh (by decide)
          · exact absurd hhigh (by decide)
          · exact absurd hhigh (by decide)
          · exact absurd hlow (by decide)
      have hnumber := parseNumber_text libc hshort hrest
      have hwithin : within (depth + (Doc.number n).depth) (seen libc (.number n)) rest = _ :=
        within_of_le hdepth _ _
      rw [hwithin]
      show parseValue libc (k + 1) depth (n.text ++ rest) = _
      rw [hn] at hnumber ⊢
      rw [List.cons_append, parseValue_cons libc k depth ⟨hwords.1, hwords.2.1, hwords.2.2.1⟩,
        if_neg hwords.2.2.2, if_pos hb]
      rw [List.cons_append] at hnumber
      rw [hnumber, ← hn]
      rfl
  | .string pieces, _, fuel, depth, rest, hdepth, _, hfuel => by
      obtain ⟨k, rfl⟩ : ∃ k, fuel = k + 1 := by
        have hlen : (Doc.string pieces).text.length = (content pieces).length + 2 := by
          simp [Doc.text, stringText]
        exact ⟨fuel - 1, by omega⟩
      have hstring := parseString_stringText pieces rest
      have hwithin : within (depth + (Doc.string pieces).depth) (seen libc (.string pieces))
          rest = _ := within_of_le hdepth _ _
      rw [hwithin]
      show parseValue libc (k + 1) depth (34 :: (content pieces ++ [34] ++ rest)) = _
      rw [parseValue_cons libc k depth (by decide), if_pos rfl]
      show (parseString (stringText pieces ++ rest)).andThen _ = _
      rw [hstring]
      rfl
  | .emptyArray w, _, fuel, depth, rest, _, _, hfuel => by
      obtain ⟨k, rfl⟩ : ∃ k, fuel = k + 1 := by
        have hlen : (Doc.emptyArray w).text.length = w.text.length + 2 := by simp [Doc.text]
        exact ⟨fuel - 1, by omega⟩
      show parseValue libc (k + 1) depth (91 :: (w.text ++ [93] ++ rest)) = _
      rw [parseValue_cons libc k depth (by decide), if_neg (by decide), if_neg (by decide),
        if_pos rfl, parseArray, List.append_assoc, List.singleton_append,
        skipWhitespace_space w (by decide)]
      by_cases hlimit : nestingLimit ≤ depth
      · rw [if_pos hlimit, within_of_lt (by simp only [Doc.depth]; omega)]
      · rw [if_neg hlimit, within_of_le (by simp only [Doc.depth]; omega)]
        rfl
  | .array items, hshort, fuel, depth, rest, _, _, hfuel => by
      have hlen : (Doc.array items).text.length = items.text.length + 2 := by simp [Doc.text]
      obtain ⟨k, rfl⟩ : ∃ k, fuel = k + 1 := ⟨fuel - 1, by omega⟩
      show parseValue libc (k + 1) depth (91 :: (items.text ++ [93] ++ rest)) = _
      rw [parseValue_cons libc k depth (by decide), if_neg (by decide), if_neg (by decide),
        if_pos rfl, List.append_assoc, List.singleton_append,
        parseArray_items _ _ _ _ (parseItems_skip libc k (depth + 1))]
      by_cases hlimit : nestingLimit ≤ depth
      · rw [if_pos hlimit, within_of_lt (by simp only [Doc.depth]; omega)]
      · rw [if_neg hlimit, parseItems_items libc items hshort (by omega) (by omega),
          within_andThen, Doc.depth, Nat.add_right_comm, Nat.add_assoc depth]
        rfl
  | .emptyObject w, _, fuel, depth, rest, _, _, hfuel => by
      obtain ⟨k, rfl⟩ : ∃ k, fuel = k + 1 := by
        have hlen : (Doc.emptyObject w).text.length = w.text.length + 2 := by simp [Doc.text]
        exact ⟨fuel - 1, by omega⟩
      show parseValue libc (k + 1) depth (123 :: (w.text ++ [125] ++ rest)) = _
      rw [parseValue_cons libc k depth (by decide), if_neg (by decide), if_neg (by decide),
        if_neg (by decide), if_pos rfl, parseObject, List.append_assoc, List.singleton_append,
        skipWhitespace_space w (by decide)]
      by_cases hlimit : nestingLimit ≤ depth
      · rw [if_pos hlimit, within_of_lt (by simp only [Doc.depth]; omega)]
      · rw [if_neg hlimit, within_of_le (by simp only [Doc.depth]; omega)]
        rfl
  | .object members, hshort, fuel, depth, rest, _, _, hfuel => by
      have hlen : (Doc.object members).text.length = members.text.length + 2 := by
        simp [Doc.text]
      obtain ⟨k, rfl⟩ : ∃ k, fuel = k + 1 := ⟨fuel - 1, by omega⟩
      show parseValue libc (k + 1) depth (123 :: (members.text ++ [125] ++ rest)) = _
      rw [parseValue_cons libc k depth (by decide), if_neg (by decide), if_neg (by decide),
        if_neg (by decide), if_pos rfl, List.append_assoc, List.singleton_append,
        parseObject_members _ _ _ _ (parseMembers_skip libc k (depth + 1))]
      by_cases hlimit : nestingLimit ≤ depth
      · rw [if_pos hlimit, within_of_lt (by simp only [Doc.depth]; omega)]
      · rw [if_neg hlimit, parseMembers_members libc members hshort (by omega) (by omega),
          within_andThen, Doc.depth, Nat.add_right_comm, Nat.add_assoc depth]
        rfl

theorem parseItems_items (libc : Libc ν) : (items : Items) → items.AllNumerals Short →
    ∀ {fuel depth : Nat} {rest : Bytes}, depth ≤ nestingLimit →
      2 * items.text.length + 1 ≤ fuel →
      parseItems libc fuel depth (items.text ++ 93 :: rest) =
        within (depth + items.depth) (seenItems libc items) rest
  | .last before d after, hshort, fuel, depth, rest, hdepth, hfuel => by
      obtain ⟨k, rfl⟩ : ∃ k, fuel = k + 1 := ⟨fuel - 1, by omega⟩
      have hlen : (Items.last before d after).text.length =
          before.text.length + (d.text.length + after.text.length) := by simp [Items.text]
      rw [parseItems, Items.text, List.append_assoc, List.append_assoc, skipWhitespace_doc,
        parseValue_doc libc d hshort hdepth (stops_space after (by rfl) rest) (by omega),
        Items.depth]
      by_cases hlimit : depth + d.depth ≤ nestingLimit
      · rw [within_of_le hlimit, within_of_le hlimit, Parsed.andThen_done,
          parseRest_close 93 (by decide)]
        rfl
      · rw [within_of_lt (Nat.lt_of_not_le hlimit), within_of_lt (Nat.lt_of_not_le hlimit)]
        rfl
  | .more before d after more, hshort, fuel, depth, rest, hdepth, hfuel => by
      obtain ⟨k, rfl⟩ : ∃ k, fuel = k + 1 := ⟨fuel - 1, by omega⟩
      have hlen : (Items.more before d after more).text.length =
          before.text.length + (d.text.length + (after.text.length + (more.text.length + 1))) := by
        simp [Items.text]
      have hassoc : (Items.more before d after more).text ++ 93 :: rest =
          before.text ++ (d.text ++ (after.text ++ 44 :: (more.text ++ 93 :: rest))) := by
        simp [Items.text]
      rw [parseItems, hassoc, skipWhitespace_doc,
        parseValue_doc libc d hshort.1 hdepth (stops_space after (by rfl) _) (by omega),
        Items.depth]
      by_cases hlimit : depth + d.depth ≤ nestingLimit
      · rw [within_of_le hlimit, Parsed.andThen_done, parseRest_comma,
          parseItems_items libc more hshort.2 hdepth (by omega)]
        by_cases hmore : depth + more.depth ≤ nestingLimit
        · rw [within_of_le hmore, within_of_le (by omega), Parsed.andThen_done]
          rfl
        · rw [within_of_lt (by omega), within_of_lt (by omega)]
          rfl
      · rw [within_of_lt (by omega), within_of_lt (by omega)]
        rfl

theorem parseMembers_members (libc : Libc ν) : (members : Members) →
    members.AllNumerals Short →
    ∀ {fuel depth : Nat} {rest : Bytes}, depth ≤ nestingLimit →
      2 * members.text.length + 1 ≤ fuel →
      parseMembers libc fuel depth (members.text ++ 125 :: rest) =
        within (depth + members.depth) (seenMembers libc members) rest
  | .last before key w w' d after, hshort, fuel, depth, rest, hdepth, hfuel => by
      obtain ⟨k, rfl⟩ : ∃ k, fuel = k + 1 := ⟨fuel - 1, by omega⟩
      have hlen : d.text.length ≤ (Members.last before key w w' d after).text.length := by
        simp only [Members.text, List.length_append, List.length_cons]
        omega
      have hassoc : (Members.last before key w w' d after).text ++ 125 :: rest =
          before.text ++ (stringText key ++
            (w.text ++ 58 :: (w'.text ++ (d.text ++ (after.text ++ 125 :: rest))))) := by
        simp [Members.text]
      have hskip : skipWhitespace (before.text ++ (stringText key ++
          (w.text ++ 58 :: (w'.text ++ (d.text ++ (after.text ++ 125 :: rest)))))) = _ :=
        skipWhitespace_doc before (.string key) _
      rw [parseMembers, hassoc, hskip]
      show (parseString (stringText key ++ _)).andThen _ = _
      rw [parseString_stringText, Parsed.andThen_done, parseColon_colon, Parsed.andThen_done,
        skipWhitespace_doc,
        parseValue_doc libc d hshort hdepth (stops_space after (by rfl) rest) (by omega),
        Members.depth]
      by_cases hlimit : depth + d.depth ≤ nestingLimit
      · rw [within_of_le hlimit, within_of_le hlimit, Parsed.andThen_done,
          parseRest_close 125 (by decide)]
        rfl
      · rw [within_of_lt (Nat.lt_of_not_le hlimit), within_of_lt (Nat.lt_of_not_le hlimit)]
        rfl
  | .more before key w w' d after more, hshort, fuel, depth, rest, hdepth, hfuel => by
      obtain ⟨k, rfl⟩ : ∃ k, fuel = k + 1 := ⟨fuel - 1, by omega⟩
      have hlen : d.text.length + more.text.length + 1 ≤
          (Members.more before key w w' d after more).text.length := by
        simp only [Members.text, List.length_append, List.length_cons]
        omega
      have hassoc : (Members.more before key w w' d after more).text ++ 125 :: rest =
          before.text ++ (stringText key ++ (w.text ++ 58 :: (w'.text ++
            (d.text ++ (after.text ++ 44 :: (more.text ++ 125 :: rest)))))) := by
        simp [Members.text]
      have hskip : skipWhitespace (before.text ++ (stringText key ++ (w.text ++ 58 ::
          (w'.text ++ (d.text ++ (after.text ++ 44 :: (more.text ++ 125 :: rest))))))) = _ :=
        skipWhitespace_doc before (.string key) _
      rw [parseMembers, hassoc, hskip]
      show (parseString (stringText key ++ _)).andThen _ = _
      rw [parseString_stringText, Parsed.andThen_done, parseColon_colon, Parsed.andThen_done,
        skipWhitespace_doc,
        parseValue_doc libc d hshort.1 hdepth (stops_space after (by rfl) _) (by omega),
        Members.depth]
      by_cases hlimit : depth + d.depth ≤ nestingLimit
      · rw [within_of_le hlimit, Parsed.andThen_done, parseRest_comma,
          parseMembers_members libc more hshort.2 hdepth (by omega)]
        by_cases hmore : depth + more.depth ≤ nestingLimit
        · rw [within_of_le hmore, within_of_le (by omega), Parsed.andThen_done]
          rfl
        · rw [within_of_lt (by omega), within_of_lt (by omega)]
          rfl
      · rw [within_of_lt (by omega), within_of_lt (by omega)]
        rfl
end

/-! ### The whole text -/

theorem cString_append {s : Bytes} (h : ∀ b ∈ s, b ≠ 0) (t : Bytes) :
    cString (s ++ t) = s ++ cString t :=
  List.takeWhile_append_of_pos fun b hb => decide_eq_true (h b hb)

/-- The byte order mark. -/
def bom : Bytes := [0xEF, 0xBB, 0xBF]

theorem skipUtf8Bom_bom {s : Bytes} (h : 2 ≤ s.length) : skipUtf8Bom (bom ++ s) = s := by
  refine if_pos ⟨?_, rfl⟩
  rw [List.length_append]
  exact Nat.lt_of_lt_of_le (by decide : 4 < 3 + 2) (Nat.add_le_add_left h 3)

theorem skipUtf8Bom_cons {b : UInt8} (h : b < 125) (s : Bytes) :
    skipUtf8Bom (b :: s) = b :: s := by
  refine if_neg fun hc => ?_
  have hb : b = 0xEF := by simpa using congrArg List.head? hc.2
  rw [hb] at h
  exact absurd h (by decide)

/-- A text begins with white space or with its document. -/
theorem skipUtf8Bom_doc (w : Space) (d : Doc) (s : Bytes) :
    skipUtf8Bom (w.text ++ (d.text ++ s)) = w.text ++ (d.text ++ s) := by
  cases w with
  | nil =>
      obtain ⟨b, t, hd, -, hb, -⟩ := d.text_head
      show skipUtf8Bom (d.text ++ s) = d.text ++ s
      rw [hd]
      exact skipUtf8Bom_cons hb _
  | cons x xs => exact skipUtf8Bom_cons (by cases x <;> decide) _

theorem stops_cString {s : Bytes} (h : Stops s) : Stops (cString s ++ [0]) := by
  intro b hb
  cases s with
  | nil =>
      obtain rfl : 0 = b := by simpa [cString] using hb
      rfl
  | cons c t =>
      by_cases hc : c = 0
      · obtain rfl : 0 = b := by simpa [cString, hc] using hb
        rfl
      · obtain rfl : c = b := by simpa [cString, hc] using hb
        exact h c rfl

theorem doc_length_pos (d : Doc) : 1 ≤ d.text.length := by
  obtain ⟨b, s, hd, -⟩ := d.text_head
  rw [hd]
  exact Nat.succ_pos _

/-- Behind the byte order mark and the white space stands the document. -/
theorem parseWithLengthOpts_doc (libc : Libc ν) (mark : Bool) (w : Space) {d : Doc}
    (hshort : d.AllNumerals Short) {rest : Bytes} (hrest : Stops rest) (hne : rest ≠ []) :
    parseWithLengthOpts libc ((if mark then bom else []) ++ (w.text ++ (d.text ++ rest))) false =
      within d.depth (seen libc d) rest := by
  have hpos := doc_length_pos d
  have hrestpos : 1 ≤ rest.length := List.length_pos_iff.mpr hne
  have hskip : skipUtf8Bom ((if mark then bom else []) ++ (w.text ++ (d.text ++ rest))) =
      w.text ++ (d.text ++ rest) := by
    cases mark with
    | false => exact skipUtf8Bom_doc w d rest
    | true =>
        refine skipUtf8Bom_bom ?_
        simp only [List.length_append]
        omega
  have hfuel : 2 * d.text.length ≤
      2 * ((if mark then bom else []) ++ (w.text ++ (d.text ++ rest))).length + 1 := by
    simp only [List.length_append]
    omega
  have hbuffer : (if mark then bom else []) ++ (w.text ++ (d.text ++ rest)) ≠ [] := by
    intro h
    have hlen := congrArg List.length h
    simp only [List.length_append, List.length_nil] at hlen
    omega
  unfold parseWithLengthOpts
  rw [if_neg hbuffer, hskip, skipWhitespace_doc,
    parseValue_doc libc d hshort (Nat.zero_le _) hrest hfuel, Nat.zero_add]
  unfold within
  split <;> rfl

theorem parse_text (libc : Libc ν) (mark : Bool) (w : Space) {d : Doc} {rest : Bytes}
    (hshort : d.AllNumerals Short) (hrest : Stops rest) :
    parse libc ((if mark then bom else []) ++ (w.text ++ (d.text ++ rest))) =
      (within d.depth (seen libc d) (cString rest ++ [0])).item? := by
  have hmark : ∀ b ∈ (if mark then bom else []), b ≠ 0 := by
    intro b hb
    cases mark with
    | false => cases hb
    | true =>
        simp only [if_true, bom, List.mem_cons, List.not_mem_nil, or_false] at hb
        rcases hb with rfl | rfl | rfl <;> decide
  have hstring : cString ((if mark then bom else []) ++ (w.text ++ (d.text ++ rest))) ++ [0] =
      (if mark then bom else []) ++ (w.text ++ (d.text ++ (cString rest ++ [0]))) := by
    rw [cString_append hmark, cString_append fun b hb => (space_byte hb).2,
      cString_append fun b hb => Doc.ne_zero d hb]
    simp only [List.append_assoc]
  unfold parse parseWithOpts
  rw [hstring, parseWithLengthOpts_doc libc mark w hshort (stops_cString hrest) (by simp)]

theorem within_item {α : Type} (depth : Nat) (x : α) (rest : Bytes) :
    (within depth x rest).item? = if depth ≤ nestingLimit then some x else none := by
  unfold within
  split <;> rfl

/--
**Every valid document is read for what it says.**

A text is a byte order mark or none, white space, and a document whose numerals have at most
63 bytes; what follows may be anything that does not go on with a numeral.  When arrays and
objects are nested at most a thousand deep, the item is the document's own, in the order of
its members and with every text up to its first NUL.  A document nested deeper is not read.
-/
theorem parse_doc (libc : Libc ν) (mark : Bool) (w : Space) (d : Doc) (rest : Bytes)
    (hshort : d.AllNumerals Short) (hrest : Stops rest) :
    parse libc ((if mark then bom else []) ++ (w.text ++ (d.text ++ rest))) =
      if d.depth ≤ nestingLimit then some (seen libc d) else none := by
  rw [parse_text libc mark w hshort hrest, within_item]

/-! ### A library of one digit -/

def digitNumeral (x : Fin 10) : Numeral where
  negative := false
  whole := if h : x.val = 0 then .zero else .positive ⟨x.val - 1, by omega⟩ []
  fraction := none
  exponent := none

theorem digitNumeral_text : ∀ x : Fin 10, (digitNumeral x).text = [digitByte x] := by
  decide

/-- The natural numbers in decimal, where those of one digit are the finite ones. -/
def digitLibc : Libc Nat where
  strtod := fun s => s.foldl (fun x b => x * 10 + (b.toNat - 48)) 0
  isFinite := fun x => decide (x < 10)
  format15 := fun x => [UInt8.ofNat (48 + x)]
  format17 := fun x => [UInt8.ofNat (48 + x)]
  compareDouble := fun x y => x == y
  format15_numeral := fun x hx =>
    have htext := digitNumeral_text ⟨x, of_decide_eq_true hx⟩
    ⟨_, htext.symm, by rw [htext, List.length_singleton]; decide⟩
  format17_numeral := fun x hx =>
    have htext := digitNumeral_text ⟨x, of_decide_eq_true hx⟩
    ⟨_, htext.symm, by rw [htext, List.length_singleton]; decide⟩

/-- `[7]`, followed by a line end. -/
theorem parse_seven :
    (Doc.array (.last [] (.number (digitNumeral 7)) [])).AllNumerals Short ∧ Stops [10] ∧
      parse digitLibc [91, 55, 93, 10] = some (.array [.number 7]) := by
  have hshort : (Doc.array (.last [] (.number (digitNumeral 7)) [])).AllNumerals Short := by
    show (digitNumeral 7).text.length ≤ 63
    rw [digitNumeral_text]
    decide
  have hstops : Stops [10] := by
    intro b hb
    obtain rfl : 10 = b := by simpa using hb
    rfl
  exact ⟨hshort, hstops, parse_doc digitLibc false [] _ [10] hshort hstops⟩

end WebrtcEchoes.Gstreamer.CJson
