/-
`cJSON.c`, from the text of a request to the item that the handler looks into.

A parse buffer is what is left of it, from its offset on.  Every read is made through it, so
a read behind its end is seen, and so is a write behind the end of the memory that
`parse_string` asks for; allocations are taken to succeed.  The recursion is given fuel, and
how deep it is nested is an argument: the depth of the buffer is counted down again only
where the parser goes on.

What the handler sees of a string ends at its first NUL.  The doubles are a parameter, with
what `printf` writes for them; `valueint`, which nothing here reads, is left out.
-/
import WebrtcEchoes.Gstreamer.Handler
import WebrtcEchoes.Lib.Json

namespace WebrtcEchoes.Gstreamer.CJson

open Handler Json

/-- The doubles of the C library. -/
structure Libc (ν : Type) where
  /-- The value of a text that `strtod` reads to its end. -/
  strtod : Bytes → ν
  /-- Neither NaN nor infinite. -/
  isFinite : ν → Bool
  /-- `%1.15g` and `%1.17g` -/
  format15 : ν → Bytes
  format17 : ν → Bytes
  /-- `compare_double` -/
  compareDouble : ν → ν → Bool
  format15_numeral : ∀ x, isFinite x = true →
    ∃ n : Numeral, format15 x = n.text ∧ n.text.length ≤ 25
  format17_numeral : ∀ x, isFinite x = true →
    ∃ n : Numeral, format17 x = n.text ∧ n.text.length ≤ 25

/-- How a function of the parser ends. -/
inductive Parsed (α : Type)
  /-- What it made, and what is left of the buffer. -/
  | done (x : α) (rest : Bytes)
  | failed
  /-- A byte behind the end of a buffer was read or written. -/
  | outOfBounds
  | outOfFuel
  deriving DecidableEq, Repr

namespace Parsed

variable {α β : Type}

def andThen (p : Parsed α) (f : α → Bytes → Parsed β) : Parsed β :=
  match p with
  | .done x rest => f x rest
  | .failed => .failed
  | .outOfBounds => .outOfBounds
  | .outOfFuel => .outOfFuel

def item? : Parsed α → Option α
  | .done x _ => some x
  | _ => none

@[simp] theorem andThen_done (x : α) (rest : Bytes) (f : α → Bytes → Parsed β) :
    (done x rest).andThen f = f x rest := rfl

@[simp] theorem andThen_failed (f : α → Bytes → Parsed β) :
    (failed : Parsed α).andThen f = failed := rfl

end Parsed

/-- `buffer_skip_whitespace`: behind white space up to the end, it goes back one byte. -/
def skipWhitespace (buffer : Bytes) : Bytes :=
  match buffer.dropWhile (· ≤ 32) with
  | [] => buffer.getLast?.toList
  | b :: rest => b :: rest

/-! ### Strings -/

/-- One digit of `parse_hex4`. -/
def hexValue (b : UInt8) : Option Nat :=
  if 48 ≤ b ∧ b ≤ 57 then some (b.toNat - 48)
  else if 65 ≤ b ∧ b ≤ 70 then some (10 + b.toNat - 65)
  else if 97 ≤ b ∧ b ≤ 102 then some (10 + b.toNat - 97)
  else none

/-- The loop of `parse_hex4`, which returns 0 from anything else than a digit. -/
def parseHexFrom (h : Nat) : Bytes → Nat
  | [] => h
  | b :: rest =>
      match hexValue b with
      | some digit => parseHexFrom (h * 16 + digit) rest
      | none => 0

def parseHex4 (input : Bytes) : Nat := parseHexFrom 0 (input.take 4)

/-- The loop that encodes as UTF-8 from the last byte on, and its first byte. -/
def encodeUtf8 (firstByteMark : Nat) : Nat → Nat → Bytes
  | 0, codepoint => [UInt8.ofNat ((codepoint ||| firstByteMark) % 256)]
  | position + 1, codepoint =>
      encodeUtf8 firstByteMark position (codepoint >>> 6) ++
        [UInt8.ofNat ((codepoint ||| 0x80) &&& 0xBF)]

/-- The bytes written for a code point, if it is one. -/
def codepointBytes (codepoint : Nat) : Option Bytes :=
  if codepoint < 0x80 then some [UInt8.ofNat (codepoint &&& 0x7F)]
  else if codepoint < 0x800 then some (encodeUtf8 0xC0 1 codepoint)
  else if codepoint < 0x10000 then some (encodeUtf8 0xE0 2 codepoint)
  else if codepoint ≤ 0x10FFFF then some (encodeUtf8 0xF0 3 codepoint)
  else none

/-- `utf16_literal_to_utf8`: the bytes written, and the length of the sequence. -/
def utf16LiteralToUtf8 (input : Bytes) : Option (Bytes × Nat) :=
  if input.length < 6 then none
  else
    let firstCode := parseHex4 (input.drop 2)
    if 0xDC00 ≤ firstCode ∧ firstCode ≤ 0xDFFF then none
    else if 0xD800 ≤ firstCode ∧ firstCode ≤ 0xDBFF then
      let second := input.drop 6
      if second.length < 6 then none
      else if second.take 2 ≠ [92, 117] then none
      else
        let secondCode := parseHex4 (second.drop 2)
        if secondCode < 0xDC00 ∨ 0xDFFF < secondCode then none
        else
          (codepointBytes (0x10000 + ((firstCode &&& 0x3FF) <<< 10 ||| secondCode &&& 0x3FF))).map
            (·, 12)
    else (codepointBytes firstCode).map (·, 6)

/-- The first loop of `parse_string`, behind the opening quote: the bytes in front of the
closing quote, and how many of them were skipped. -/
def scanString : Bytes → Option (Bytes × Nat)
  | [] => none
  | b :: rest =>
      if b = 34 then some ([], 0)
      else if b = 92 then
        match rest with
        | [] => none
        | c :: rest => (scanString rest).map fun p => (b :: c :: p.1, p.2 + 1)
      else (scanString rest).map fun p => (b :: p.1, p.2)

/-- The letters that stand for a byte behind a backslash. -/
def escapeByte (letter : UInt8) : Option UInt8 :=
  if letter = 98 then some 8
  else if letter = 102 then some 12
  else if letter = 110 then some 10
  else if letter = 114 then some 13
  else if letter = 116 then some 9
  else if letter = 34 ∨ letter = 92 ∨ letter = 47 then some letter
  else none

/-- The escape sequence at the head of the input: the bytes written, and its length.  A
backslash at the end of the string has the closing quote behind it. -/
def escapeSequence (input : Bytes) : Option (Bytes × Nat) :=
  let letter := input.tail.headD 34
  if letter = 117 then utf16LiteralToUtf8 input
  else (escapeByte letter).map ([·], 2)

/-- The second loop of `parse_string`, with the bytes of the last sequence still to pass: what
it has written when it ends, and whether it ends at the closing quote. -/
def unescape : Nat → Bytes → Bytes × Bool
  | _, [] => ([], true)
  | passed + 1, _ :: rest => unescape passed rest
  | 0, b :: rest =>
      if b = 92 then
        match escapeSequence (b :: rest) with
        | none => ([], false)
        | some (bytes, length) =>
            let q := unescape (length - 1) rest
            (bytes ++ q.1, q.2)
      else
        let q := unescape 0 rest
        (b :: q.1, q.2)

/-- The size that `parse_string` allocates: less the skipped bytes, and one for the NUL. -/
def allocationLength (content : Bytes) (skipped : Nat) : Nat := content.length + 1 - skipped + 1

/-- `parse_string` -/
def parseString : Bytes → Parsed Bytes
  | [] => .outOfBounds
  | b :: rest =>
      if b = 34 then
        match scanString rest with
        | none => .failed
        | some (content, skipped) =>
            let q := unescape 0 content
            if allocationLength content skipped < q.1.length + (if q.2 then 1 else 0) then
              .outOfBounds
            else if q.2 then .done (cString q.1) (rest.drop (content.length + 1))
            else .failed
      else .failed

/-! ### Numbers -/

/-- The bytes that `parse_number` copies. -/
def isNumberByte (b : UInt8) : Bool :=
  (48 ≤ b && b ≤ 57) || b == 43 || b == 45 || b == 101 || b == 69 || b == 46

def isDigit (b : UInt8) : Bool := 48 ≤ b && b ≤ 57

def digitsLength (s : Bytes) : Nat := (s.takeWhile isDigit).length

def signLength : Bytes → Nat
  | b :: _ => if b = 43 ∨ b = 45 then 1 else 0
  | [] => 0

/-- A point, with the digits behind it. -/
def fractionLength : Bytes → Nat
  | b :: rest => if b = 46 then digitsLength rest + 1 else 0
  | [] => 0

/-- An exponent, which has at least one digit. -/
def exponentLength : Bytes → Nat
  | b :: rest =>
      let sign := signLength rest
      let digits := digitsLength (rest.drop sign)
      if (b = 101 ∨ b = 69) ∧ 0 < digits then 1 + sign + digits else 0
  | [] => 0

/-- Where `strtod` ends in a text of number bytes: behind the longest number in front, which
has a digit before its exponent. -/
def strtodEnd (s : Bytes) : Nat :=
  let sign := signLength s
  let whole := digitsLength (s.drop sign)
  let fraction := fractionLength (s.drop (sign + whole))
  if whole + (fraction - 1) = 0 then 0
  else sign + whole + fraction + exponentLength (s.drop (sign + whole + fraction))

variable {ν : Type}

/-- `parse_number`, whose buffer has room for 63 bytes. -/
def parseNumber (libc : Libc ν) (input : Bytes) : Parsed (Value ν) :=
  let s := (input.take 63).takeWhile isNumberByte
  if strtodEnd s = 0 then .failed
  else .done (.number (libc.strtod (s.take (strtodEnd s)))) (input.drop (strtodEnd s))

/-! ### Values -/

/-- `CJSON_NESTING_LIMIT` -/
def nestingLimit : Nat := 1000

/-- `parse_array` behind the bracket, and the loop over the items. -/
def parseArray (items : Bytes → Parsed (List (Value ν))) (depth : Nat) (input : Bytes) :
    Parsed (Value ν) :=
  if nestingLimit ≤ depth then .failed
  else
    match skipWhitespace input with
    | [] => .failed
    | b :: rest =>
        if b = 93 then .done (.array []) rest
        else (items (b :: rest)).andThen fun xs rest => .done (.array xs) rest

/-- `parse_object`, likewise. -/
def parseObject (members : Bytes → Parsed (List (Bytes × Value ν))) (depth : Nat)
    (input : Bytes) : Parsed (Value ν) :=
  if nestingLimit ≤ depth then .failed
  else
    match skipWhitespace input with
    | [] => .failed
    | b :: rest =>
        if b = 125 then .done (.object []) rest
        else (members (b :: rest)).andThen fun ms rest => .done (.object ms) rest

/-- The colon behind the name of a member. -/
def parseColon (input : Bytes) : Parsed Unit :=
  match skipWhitespace input with
  | [] => .failed
  | b :: rest => if b = 58 then .done () rest else .failed

/-- Behind an item: a comma and the items that follow it, or the closing bracket. -/
def parseRest {α : Type} (close : UInt8) (loop : Bytes → Parsed (List α)) (x : α)
    (input : Bytes) : Parsed (List α) :=
  match skipWhitespace input with
  | [] => .failed
  | b :: rest =>
      if b = 44 then (loop rest).andThen fun xs rest => .done (x :: xs) rest
      else if b = close then .done [x] rest
      else .failed

mutual
/-- `parse_value` -/
def parseValue (libc : Libc ν) : Nat → Nat → Bytes → Parsed (Value ν)
  | 0, _, _ => .outOfFuel
  | fuel + 1, depth, input =>
      if (ascii "null").isPrefixOf input then .done .null (input.drop 4)
      else if (ascii "false").isPrefixOf input then .done (.bool false) (input.drop 5)
      else if (ascii "true").isPrefixOf input then .done (.bool true) (input.drop 4)
      else
        match input with
        | [] => .failed
        | b :: rest =>
            if b = 34 then (parseString (b :: rest)).andThen fun text rest =>
              .done (.string text) rest
            else if b = 45 ∨ (48 ≤ b ∧ b ≤ 57) then parseNumber libc (b :: rest)
            else if b = 91 then parseArray (parseItems libc fuel (depth + 1)) depth rest
            else if b = 123 then parseObject (parseMembers libc fuel (depth + 1)) depth rest
            else .failed

/-- The loop of `parse_array`. -/
def parseItems (libc : Libc ν) : Nat → Nat → Bytes → Parsed (List (Value ν))
  | 0, _, _ => .outOfFuel
  | fuel + 1, depth, input =>
      (parseValue libc fuel depth (skipWhitespace input)).andThen fun item rest =>
        parseRest 93 (parseItems libc fuel depth) item rest

/-- The loop of `parse_object`. -/
def parseMembers (libc : Libc ν) : Nat → Nat → Bytes → Parsed (List (Bytes × Value ν))
  | 0, _, _ => .outOfFuel
  | fuel + 1, depth, input =>
      (parseString (skipWhitespace input)).andThen fun name rest =>
        (parseColon rest).andThen fun _ rest =>
          (parseValue libc fuel depth (skipWhitespace rest)).andThen fun item rest =>
            parseRest 125 (parseMembers libc fuel depth) (name, item) rest
end

/-- `skip_utf8_bom` -/
def skipUtf8Bom (buffer : Bytes) : Bytes :=
  if 4 < buffer.length ∧ buffer.take 3 = [0xEF, 0xBB, 0xBF] then buffer.drop 3 else buffer

/-- `cJSON_ParseWithLengthOpts`: the item, and where `return_parse_end` points. -/
def parseWithLengthOpts (libc : Libc ν) (buffer : Bytes) (requireNullTerminated : Bool) :
    Parsed (Value ν) :=
  if buffer = [] then .failed
  else
    (parseValue libc (2 * buffer.length + 1) 0 (skipWhitespace (skipUtf8Bom buffer))).andThen
      fun item rest =>
        if requireNullTerminated then
          if (skipWhitespace rest).head? = some 0 then .done item (skipWhitespace rest)
          else .failed
        else .done item rest

/-- `cJSON_ParseWithOpts`, which adds the terminating NUL of the string to the length. -/
def parseWithOpts (libc : Libc ν) (value : Bytes) (requireNullTerminated : Bool) :
    Parsed (Value ν) :=
  parseWithLengthOpts libc (cString value ++ [0]) requireNullTerminated

/-- `cJSON_Parse` -/
def parse (libc : Libc ν) (value : Bytes) : Option (Value ν) :=
  (parseWithOpts libc value false).item?

/-! ### The item of the handler -/

mutual
/-- An item, with the types apart that the handler asks for. -/
def handlerItem : Value ν → Handler.CJson
  | .string text => .string text
  | .array items => .array (handlerItems items)
  | .object members => .object (handlerMembers members)
  | .null | .bool _ | .number _ => .other

def handlerItems : List (Value ν) → List Handler.CJson
  | [] => []
  | item :: rest => handlerItem item :: handlerItems rest

def handlerMembers : List (Bytes × Value ν) → List (Bytes × Handler.CJson)
  | [] => []
  | m :: rest => (m.1, handlerItem m.2) :: handlerMembers rest
end

/-- The libraries of the handler with the parser in its place. -/
def withCJson {δ : Type} (libc : Libc ν) (lib : Library δ) : Library δ :=
  { lib with parse := fun text => (parse libc text).map handlerItem }

end WebrtcEchoes.Gstreamer.CJson
