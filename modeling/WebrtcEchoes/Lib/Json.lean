/-
JSON texts, over bytes.

A document is its concrete syntax tree, with the white space where the grammar allows it and
with the choices that a writer has: the case of a hexadecimal digit, a character or its
escape.  Only what the grammar derives can be built, so a statement about every document is
one about every text of the grammar.  Two things are not as in the standard: an escape of a
lone surrogate is left out, because it stands for no text, and the bytes of a string are not
asked to be UTF-8.

What a reader makes of a document depends on its reading of the numerals and of the texts,
which are parameters.  `Reads` takes both as they are.
-/
import Mathlib.Data.List.Basic

namespace WebrtcEchoes.Json

/-- What a document stands for, with the numbers in `ν`. -/
inductive Value (ν : Type)
  | null
  | bool (b : Bool)
  | number (x : ν)
  | string (text : List UInt8)
  | array (items : List (Value ν))
  | object (members : List (List UInt8 × Value ν))

variable {ν : Type}

/-! ### White space and numerals -/

inductive Blank
  | space | tab | newline | carriageReturn
  deriving DecidableEq, Repr

def Blank.byte : Blank → UInt8
  | .space => 32
  | .tab => 9
  | .newline => 10
  | .carriageReturn => 13

abbrev Space := List Blank

def Space.text (w : Space) : List UInt8 := w.map Blank.byte

def digitByte (d : Fin 10) : UInt8 := UInt8.ofNat (48 + d.val)

/-- At least one digit. -/
structure Digits where
  first : Fin 10
  rest : List (Fin 10)
  deriving DecidableEq, Repr

def Digits.text (d : Digits) : List UInt8 := digitByte d.first :: d.rest.map digitByte

/-- The part before the point, which has no leading zero. -/
inductive Whole
  | zero
  /-- The first digit is `pred + 1`. -/
  | positive (pred : Fin 9) (rest : List (Fin 10))
  deriving DecidableEq, Repr

def Whole.digits : Whole → Digits
  | .zero => ⟨0, []⟩
  | .positive pred rest => ⟨pred.succ, rest⟩

inductive Sign
  | plus | minus
  deriving DecidableEq, Repr

def Sign.byte : Sign → UInt8
  | .plus => 43
  | .minus => 45

structure Exponent where
  upper : Bool
  sign : Option Sign
  digits : Digits
  deriving DecidableEq, Repr

def Exponent.text (e : Exponent) : List UInt8 :=
  (if e.upper then 69 else 101) :: (e.sign.toList.map Sign.byte ++ e.digits.text)

structure Numeral where
  negative : Bool
  whole : Whole
  fraction : Option Digits
  exponent : Option Exponent
  deriving DecidableEq, Repr

def fractionText : Option Digits → List UInt8
  | none => []
  | some d => 46 :: d.text

def exponentText : Option Exponent → List UInt8
  | none => []
  | some e => e.text

def Numeral.text (n : Numeral) : List UInt8 :=
  (if n.negative then [45] else []) ++
    (n.whole.digits.text ++ (fractionText n.fraction ++ exponentText n.exponent))

/-! ### Strings -/

structure HexDigit where
  value : Fin 16
  upper : Bool
  deriving DecidableEq, Repr

def HexDigit.byte (d : HexDigit) : UInt8 :=
  if d.value < 10 then UInt8.ofNat (48 + d.value.val)
  else if d.upper then UInt8.ofNat (55 + d.value.val)
  else UInt8.ofNat (87 + d.value.val)

/-- The four digits behind `\u`. -/
structure CodeUnit where
  d₃ : HexDigit
  d₂ : HexDigit
  d₁ : HexDigit
  d₀ : HexDigit
  deriving DecidableEq, Repr

def CodeUnit.value (u : CodeUnit) : Nat :=
  ((u.d₃.value.val * 16 + u.d₂.value.val) * 16 + u.d₁.value.val) * 16 + u.d₀.value.val

def CodeUnit.text (u : CodeUnit) : List UInt8 :=
  [92, 117, u.d₃.byte, u.d₂.byte, u.d₁.byte, u.d₀.byte]

/-- The escapes of one letter. -/
inductive Escape
  | quote | backslash | slash | backspace | formFeed | newline | carriageReturn | tab
  deriving DecidableEq, Repr

def Escape.letter : Escape → UInt8
  | .quote => 34
  | .backslash => 92
  | .slash => 47
  | .backspace => 98
  | .formFeed => 102
  | .newline => 110
  | .carriageReturn => 114
  | .tab => 116

def Escape.byte : Escape → UInt8
  | .quote => 34
  | .backslash => 92
  | .slash => 47
  | .backspace => 8
  | .formFeed => 12
  | .newline => 10
  | .carriageReturn => 13
  | .tab => 9

/-- One step of a string.  A surrogate stands only in front of its other half. -/
inductive Piece
  | plain (b : UInt8) (h : 32 ≤ b ∧ b ≠ 34 ∧ b ≠ 92)
  | escape (e : Escape)
  | unit (u : CodeUnit) (h : u.value < 0xD800 ∨ 0xDFFF < u.value)
  | pair (high low : CodeUnit) (hhigh : 0xD800 ≤ high.value ∧ high.value ≤ 0xDBFF)
      (hlow : 0xDC00 ≤ low.value ∧ low.value ≤ 0xDFFF)

def Piece.text : Piece → List UInt8
  | .plain b _ => [b]
  | .escape e => [92, e.letter]
  | .unit u _ => u.text
  | .pair high low _ _ => high.text ++ low.text

/-- The UTF-8 bytes of a code point. -/
def utf8 (codepoint : Nat) : List UInt8 := String.utf8EncodeChar (Char.ofNat codepoint)

def Piece.bytes : Piece → List UInt8
  | .plain b _ => [b]
  | .escape e => [e.byte]
  | .unit u _ => utf8 u.value
  | .pair high low _ _ => utf8 (0x10000 + (high.value - 0xD800) * 1024 + (low.value - 0xDC00))

/-- What stands between the quotes. -/
def content (pieces : List Piece) : List UInt8 := pieces.flatMap Piece.text

def stringText (pieces : List Piece) : List UInt8 := 34 :: (content pieces ++ [34])

def stringBytes (pieces : List Piece) : List UInt8 := pieces.flatMap Piece.bytes

/-! ### Documents -/

mutual
inductive Doc
  | null
  | bool (b : Bool)
  | number (n : Numeral)
  | string (pieces : List Piece)
  | emptyArray (w : Space)
  | array (items : Items)
  | emptyObject (w : Space)
  | object (members : Members)

/-- The items of an array that has any, with the white space around them. -/
inductive Items
  | last (before : Space) (d : Doc) (after : Space)
  | more (before : Space) (d : Doc) (after : Space) (rest : Items)

inductive Members
  | last (before : Space) (key : List Piece) (w w' : Space) (d : Doc) (after : Space)
  | more (before : Space) (key : List Piece) (w w' : Space) (d : Doc) (after : Space)
      (rest : Members)
end

def boolText (b : Bool) : List UInt8 :=
  if b then [116, 114, 117, 101] else [102, 97, 108, 115, 101]

mutual
def Doc.text : Doc → List UInt8
  | .null => [110, 117, 108, 108]
  | .bool b => boolText b
  | .number n => n.text
  | .string pieces => stringText pieces
  | .emptyArray w => 91 :: (w.text ++ [93])
  | .array items => 91 :: (items.text ++ [93])
  | .emptyObject w => 123 :: (w.text ++ [125])
  | .object members => 123 :: (members.text ++ [125])

def Items.text : Items → List UInt8
  | .last before d after => before.text ++ (d.text ++ after.text)
  | .more before d after rest => before.text ++ (d.text ++ (after.text ++ 44 :: rest.text))

def Members.text : Members → List UInt8
  | .last before key w w' d after =>
      before.text ++ (stringText key ++ (w.text ++ 58 :: (w'.text ++ (d.text ++ after.text))))
  | .more before key w w' d after rest =>
      before.text ++ (stringText key ++
        (w.text ++ 58 :: (w'.text ++ (d.text ++ (after.text ++ 44 :: rest.text)))))
end

section Value

-- how the numerals and the texts are read
variable (number : Numeral → ν) (string : List UInt8 → List UInt8)

mutual
def Doc.value : Doc → Value ν
  | .null => .null
  | .bool b => .bool b
  | .number n => .number (number n)
  | .string pieces => .string (string (stringBytes pieces))
  | .emptyArray _ => .array []
  | .array items => .array items.values
  | .emptyObject _ => .object []
  | .object members => .object members.values

def Items.values : Items → List (Value ν)
  | .last _ d _ => [d.value]
  | .more _ d _ rest => d.value :: rest.values

def Members.values : Members → List (List UInt8 × Value ν)
  | .last _ key _ _ d _ => [(string (stringBytes key), d.value)]
  | .more _ key _ _ d _ rest => (string (stringBytes key), d.value) :: rest.values
end

end Value

/-- The text is that of a document with this value, with white space around it. -/
def Reads (text : List UInt8) (v : Value Numeral) : Prop :=
  ∃ (before after : Space) (d : Doc),
    text = before.text ++ (d.text ++ after.text) ∧ d.value id id = v

/-- The values of the members with a name. -/
def Value.named (name : List UInt8) : Value ν → List (Value ν)
  | .object members => (members.filter fun m => m.1 = name).map Prod.snd
  | _ => []

mutual
/-- How deep arrays and objects are nested. -/
def Doc.depth : Doc → Nat
  | .null | .bool _ | .number _ | .string _ => 0
  | .emptyArray _ | .emptyObject _ => 1
  | .array items => items.depth + 1
  | .object members => members.depth + 1

def Items.depth : Items → Nat
  | .last _ d _ => d.depth
  | .more _ d _ rest => max d.depth rest.depth

def Members.depth : Members → Nat
  | .last _ _ _ _ d _ => d.depth
  | .more _ _ _ _ d _ rest => max d.depth rest.depth
end

mutual
/-- Every numeral of the document satisfies `P`. -/
def Doc.AllNumerals (P : Numeral → Prop) : Doc → Prop
  | .number n => P n
  | .array items => items.AllNumerals P
  | .object members => members.AllNumerals P
  | .null | .bool _ | .string _ | .emptyArray _ | .emptyObject _ => True

def Items.AllNumerals (P : Numeral → Prop) : Items → Prop
  | .last _ d _ => d.AllNumerals P
  | .more _ d _ rest => d.AllNumerals P ∧ rest.AllNumerals P

def Members.AllNumerals (P : Numeral → Prop) : Members → Prop
  | .last _ _ _ _ d _ => d.AllNumerals P
  | .more _ _ _ _ d _ rest => d.AllNumerals P ∧ rest.AllNumerals P
end

mutual
def Value.depth : Value ν → Nat
  | .null | .bool _ | .number _ | .string _ => 0
  | .array items => depthItems items + 1
  | .object members => depthMembers members + 1

def depthItems : List (Value ν) → Nat
  | [] => 0
  | v :: rest => max v.depth (depthItems rest)

def depthMembers : List (List UInt8 × Value ν) → Nat
  | [] => 0
  | m :: rest => max m.2.depth (depthMembers rest)
end

mutual
/-- Every text and every name satisfies `P`. -/
def Value.AllTexts (P : List UInt8 → Prop) : Value ν → Prop
  | .string text => P text
  | .array items => allTextsItems P items
  | .object members => allTextsMembers P members
  | .null | .bool _ | .number _ => True

def allTextsItems (P : List UInt8 → Prop) : List (Value ν) → Prop
  | [] => True
  | v :: rest => v.AllTexts P ∧ allTextsItems P rest

def allTextsMembers (P : List UInt8 → Prop) : List (List UInt8 × Value ν) → Prop
  | [] => True
  | m :: rest => (P m.1 ∧ m.2.AllTexts P) ∧ allTextsMembers P rest
end

mutual
def Value.AllNumbers (P : ν → Prop) : Value ν → Prop
  | .number x => P x
  | .array items => allNumbersItems P items
  | .object members => allNumbersMembers P members
  | .null | .bool _ | .string _ => True

def allNumbersItems (P : ν → Prop) : List (Value ν) → Prop
  | [] => True
  | v :: rest => v.AllNumbers P ∧ allNumbersItems P rest

def allNumbersMembers (P : ν → Prop) : List (List UInt8 × Value ν) → Prop
  | [] => True
  | m :: rest => m.2.AllNumbers P ∧ allNumbersMembers P rest
end

/-! ### Writing a string -/

def hexOf (n : UInt8) : HexDigit := ⟨⟨n.toNat % 16, Nat.mod_lt _ (by decide)⟩, false⟩

/-- The code unit `00XX` of a byte. -/
def byteUnit (b : UInt8) : CodeUnit := ⟨hexOf 0, hexOf 0, hexOf (b / 16), hexOf (b % 16)⟩

theorem byteUnit_value (b : UInt8) :
    (byteUnit b).value < 0xD800 ∨ 0xDFFF < (byteUnit b).value := by
  have h₁ := (hexOf (b / 16)).value.isLt
  have h₀ := (hexOf (b % 16)).value.isLt
  have h₂ : (hexOf 0).value.val = 0 := rfl
  simp only [byteUnit, CodeUnit.value, h₂]
  omega

/-- The step of a string for one byte, with an escape only where there has to be one, and then
the shortest. -/
def pieceOf (b : UInt8) : Piece :=
  if h : 32 ≤ b ∧ b ≠ 34 ∧ b ≠ 92 then .plain b h
  else if b = 92 then .escape .backslash
  else if b = 34 then .escape .quote
  else if b = 8 then .escape .backspace
  else if b = 12 then .escape .formFeed
  else if b = 10 then .escape .newline
  else if b = 13 then .escape .carriageReturn
  else if b = 9 then .escape .tab
  else .unit (byteUnit b) (byteUnit_value b)

theorem pieceOf_bytes (b : UInt8) : (pieceOf b).bytes = [b] := by
  have hall : ∀ n : Fin 256, (pieceOf (UInt8.ofNat n)).bytes = [UInt8.ofNat n] := by
    decide +kernel
  have hb := hall ⟨b.toNat, b.toNat_lt⟩
  rwa [UInt8.ofNat_toNat] at hb

/-- The steps for a text. -/
def pieces (s : List UInt8) : List Piece := s.map pieceOf

theorem stringBytes_pieces (s : List UInt8) : stringBytes (pieces s) = s := by
  unfold stringBytes pieces
  rw [List.flatMap_map]
  simp only [pieceOf_bytes]
  induction s with
  | nil => rfl
  | cons b rest ih => rw [List.flatMap_cons, ih]; rfl

/-! ### The bytes of a text -/

/-- What a numeral is written with. -/
def NumeralByte (b : UInt8) : Prop :=
  (48 ≤ b ∧ b ≤ 57) ∨ b = 43 ∨ b = 45 ∨ b = 46 ∨ b = 69 ∨ b = 101

instance (b : UInt8) : Decidable (NumeralByte b) := by
  unfold NumeralByte
  infer_instance

theorem blank_byte_le (w : Blank) : w.byte ≤ 32 ∧ w.byte ≠ 0 := by
  cases w <;> decide

theorem space_byte {w : Space} {b : UInt8} (h : b ∈ w.text) : b ≤ 32 ∧ b ≠ 0 := by
  obtain ⟨c, -, rfl⟩ := List.mem_map.mp h
  exact blank_byte_le c

theorem digitByte_range : ∀ d : Fin 10, 48 ≤ digitByte d ∧ digitByte d ≤ 57 := by
  decide

theorem digits_byte {d : Digits} {b : UInt8} (h : b ∈ d.text) : 48 ≤ b ∧ b ≤ 57 := by
  rcases List.mem_cons.mp h with rfl | h
  · exact digitByte_range d.first
  · obtain ⟨c, -, rfl⟩ := List.mem_map.mp h
    exact digitByte_range c

theorem exponent_byte {e : Exponent} {b : UInt8} (h : b ∈ e.text) : NumeralByte b := by
  rcases List.mem_cons.mp h with rfl | h
  · cases e.upper <;> decide
  · rcases List.mem_append.mp h with h | h
    · obtain ⟨s, -, rfl⟩ := List.mem_map.mp h
      cases s <;> decide
    · exact Or.inl (digits_byte h)

theorem numeral_byte {n : Numeral} {b : UInt8} (h : b ∈ n.text) : NumeralByte b := by
  simp only [Numeral.text, List.mem_append] at h
  rcases h with h | h | h | h
  · split at h
    · obtain rfl : b = 45 := by simpa using h
      decide
    · cases h
  · exact Or.inl (digits_byte h)
  · cases hf : n.fraction with
    | none => simp [hf, fractionText] at h
    | some d =>
        rw [hf] at h
        rcases List.mem_cons.mp h with rfl | h
        · decide
        · exact Or.inl (digits_byte h)
  · cases he : n.exponent with
    | none => simp [he, exponentText] at h
    | some e =>
        rw [he] at h
        exact exponent_byte h

/-- A numeral begins with its sign or with a digit. -/
theorem numeral_head (n : Numeral) :
    ∃ b s, n.text = b :: s ∧ (b = 45 ∨ (48 ≤ b ∧ b ≤ 57)) := by
  obtain ⟨negative, whole, fraction, exponent⟩ := n
  cases negative with
  | true => exact ⟨45, _, rfl, Or.inl rfl⟩
  | false => exact ⟨digitByte whole.digits.first, _, rfl, Or.inr (digitByte_range _)⟩

/-- A document begins with a visible ASCII byte that closes nothing. -/
theorem Doc.text_head (d : Doc) : ∃ b s, d.text = b :: s ∧ 32 < b ∧ b < 125 ∧ b ≠ 93 := by
  cases d with
  | null => exact ⟨110, _, rfl, by decide⟩
  | bool b => cases b <;> exact ⟨_, _, rfl, by decide⟩
  | number n =>
      obtain ⟨b, s, hn, hb⟩ := numeral_head n
      refine ⟨b, s, hn, ?_⟩
      rcases hb with rfl | ⟨hlow, hhigh⟩
      · decide
      · have hlow' : 48 ≤ b.toNat := hlow
        have hhigh' : b.toNat ≤ 57 := hhigh
        refine ⟨?_, ?_, ?_⟩
        · exact Nat.lt_of_lt_of_le (by decide : 32 < 48) hlow'
        · exact Nat.lt_of_le_of_lt hhigh' (by decide : 57 < 125)
        · rintro rfl
          exact absurd hhigh (by decide)
  | string pieces => exact ⟨34, _, rfl, by decide⟩
  | emptyArray w => exact ⟨91, _, rfl, by decide⟩
  | array items => exact ⟨91, _, rfl, by decide⟩
  | emptyObject w => exact ⟨123, _, rfl, by decide⟩
  | object members => exact ⟨123, _, rfl, by decide⟩

/-- The text of an object with a member begins with white space or with its brace. -/
theorem Reads.head {text name : List UInt8} {v : Value Numeral} (h : Reads text v)
    (hname : v.named name ≠ []) : ∃ b s, text = b :: s ∧ (b ≤ 32 ∨ b = 123) := by
  obtain ⟨before, after, d, rfl, hv⟩ := h
  cases before with
  | cons w rest => exact ⟨w.byte, _, rfl, Or.inl (blank_byte_le w).1⟩
  | nil =>
      cases d with
      | emptyObject w => exact ⟨123, _, rfl, Or.inr rfl⟩
      | object members => exact ⟨123, _, rfl, Or.inr rfl⟩
      | _ =>
          rw [← hv] at hname
          exact absurd rfl hname

theorem hexDigit_byte_ne_zero (d : HexDigit) : d.byte ≠ 0 := by
  obtain ⟨value, upper⟩ := d
  revert value upper
  decide

theorem codeUnit_ne_zero {u : CodeUnit} {b : UInt8} (h : b ∈ u.text) : b ≠ 0 := by
  simp only [CodeUnit.text, List.mem_cons, List.not_mem_nil, or_false] at h
  rcases h with rfl | rfl | rfl | rfl | rfl | rfl
  · decide
  · decide
  all_goals exact hexDigit_byte_ne_zero _

theorem piece_ne_zero {p : Piece} {b : UInt8} (h : b ∈ p.text) : b ≠ 0 := by
  cases p with
  | plain c hc =>
      obtain rfl : b = c := by simpa [Piece.text] using h
      rintro rfl
      exact absurd hc.1 (by decide)
  | escape e =>
      simp only [Piece.text, List.mem_cons, List.not_mem_nil, or_false] at h
      rcases h with rfl | rfl
      · decide
      · cases e <;> decide
  | unit u hu => exact codeUnit_ne_zero h
  | pair high low hhigh hlow =>
      rcases List.mem_append.mp h with h | h <;> exact codeUnit_ne_zero h

theorem stringText_ne_zero {pieces : List Piece} {b : UInt8} (h : b ∈ stringText pieces) :
    b ≠ 0 := by
  simp only [stringText, content, List.mem_cons, List.mem_append, List.mem_flatMap,
    List.not_mem_nil, or_false] at h
  rcases h with rfl | ⟨p, -, h⟩ | rfl
  · decide
  · exact piece_ne_zero h
  · decide

theorem numeralByte_ne_zero {b : UInt8} (h : NumeralByte b) : b ≠ 0 := by
  rintro rfl
  exact absurd h (by decide)

mutual
/-- There is no NUL in a document. -/
theorem Doc.ne_zero : (d : Doc) → ∀ {b : UInt8}, b ∈ d.text → b ≠ 0
  | .null, b, h => by
      simp only [Doc.text, List.mem_cons, List.not_mem_nil, or_false] at h
      rcases h with rfl | rfl | rfl | rfl <;> decide
  | .bool c, b, h => by
      cases c <;> simp only [Doc.text, boolText, if_true, if_false, Bool.false_eq_true,
        List.mem_cons, List.not_mem_nil, or_false] at h
      · rcases h with rfl | rfl | rfl | rfl | rfl <;> decide
      · rcases h with rfl | rfl | rfl | rfl <;> decide
  | .number n, b, h => numeralByte_ne_zero (numeral_byte h)
  | .string pieces, b, h => stringText_ne_zero h
  | .emptyArray w, b, h => by
      simp only [Doc.text, List.mem_cons, List.mem_append, List.not_mem_nil, or_false] at h
      rcases h with rfl | h | rfl
      · decide
      · exact (space_byte h).2
      · decide
  | .array items, b, h => by
      simp only [Doc.text, List.mem_cons, List.mem_append, List.not_mem_nil, or_false] at h
      rcases h with rfl | h | rfl
      · decide
      · exact Items.ne_zero items h
      · decide
  | .emptyObject w, b, h => by
      simp only [Doc.text, List.mem_cons, List.mem_append, List.not_mem_nil, or_false] at h
      rcases h with rfl | h | rfl
      · decide
      · exact (space_byte h).2
      · decide
  | .object members, b, h => by
      simp only [Doc.text, List.mem_cons, List.mem_append, List.not_mem_nil, or_false] at h
      rcases h with rfl | h | rfl
      · decide
      · exact Members.ne_zero members h
      · decide

theorem Items.ne_zero : (items : Items) → ∀ {b : UInt8}, b ∈ items.text → b ≠ 0
  | .last before d after, b, h => by
      simp only [Items.text, List.mem_append] at h
      rcases h with h | h | h
      · exact (space_byte h).2
      · exact Doc.ne_zero d h
      · exact (space_byte h).2
  | .more before d after rest, b, h => by
      simp only [Items.text, List.mem_append, List.mem_cons] at h
      rcases h with h | h | h | rfl | h
      · exact (space_byte h).2
      · exact Doc.ne_zero d h
      · exact (space_byte h).2
      · decide
      · exact Items.ne_zero rest h

theorem Members.ne_zero : (members : Members) → ∀ {b : UInt8}, b ∈ members.text → b ≠ 0
  | .last before key w w' d after, b, h => by
      simp only [Members.text, List.mem_append, List.mem_cons] at h
      rcases h with h | h | h | rfl | h | h | h
      · exact (space_byte h).2
      · exact stringText_ne_zero h
      · exact (space_byte h).2
      · decide
      · exact (space_byte h).2
      · exact Doc.ne_zero d h
      · exact (space_byte h).2
  | .more before key w w' d after rest, b, h => by
      simp only [Members.text, List.mem_append, List.mem_cons] at h
      rcases h with h | h | h | rfl | h | h | h | rfl | h
      · exact (space_byte h).2
      · exact stringText_ne_zero h
      · exact (space_byte h).2
      · decide
      · exact (space_byte h).2
      · exact Doc.ne_zero d h
      · exact (space_byte h).2
      · decide
      · exact Members.ne_zero rest h
end

/-! ### The value of a document -/

theorem Value.named_nil (name : List UInt8) : (Value.object [] : Value ν).named name = [] := rfl

theorem Value.named_cons_self (name : List UInt8) (v : Value ν)
    (rest : List (List UInt8 × Value ν)) :
    (Value.object ((name, v) :: rest)).named name = v :: (Value.object rest).named name := by
  simp [Value.named]

theorem Value.named_cons_of_ne {name key : List UInt8} (h : key ≠ name) (v : Value ν)
    (rest : List (List UInt8 × Value ν)) :
    (Value.object ((key, v) :: rest)).named name = (Value.object rest).named name := by
  simp [Value.named, h]

variable (number : Numeral → ν) (string : List UInt8 → List UInt8)

mutual
theorem Doc.depth_value : (d : Doc) → (d.value number string).depth = d.depth
  | .null | .bool _ | .number _ | .string _ => by simp [Doc.value, Value.depth, Doc.depth]
  | .emptyArray _ => by simp [Doc.value, Value.depth, depthItems, Doc.depth]
  | .emptyObject _ => by simp [Doc.value, Value.depth, depthMembers, Doc.depth]
  | .array items => by
      simp only [Doc.value, Value.depth, Doc.depth]
      rw [Items.depth_values items]
  | .object members => by
      simp only [Doc.value, Value.depth, Doc.depth]
      rw [Members.depth_values members]

theorem Items.depth_values : (items : Items) →
    depthItems (items.values number string) = items.depth
  | .last _ d _ => by
      simp only [Items.values, depthItems, Items.depth, Doc.depth_value d, Nat.max_zero]
  | .more _ d _ rest => by
      simp only [Items.values, depthItems, Items.depth, Doc.depth_value d,
        Items.depth_values rest]

theorem Members.depth_values : (members : Members) →
    depthMembers (members.values number string) = members.depth
  | .last _ _ _ _ d _ => by
      simp only [Members.values, depthMembers, Members.depth, Doc.depth_value d, Nat.max_zero]
  | .more _ _ _ _ d _ rest => by
      simp only [Members.values, depthMembers, Members.depth, Doc.depth_value d,
        Members.depth_values rest]
end

end WebrtcEchoes.Json
