/-
What the libwebrtc server uses of `libwebrtc/json.hpp`.

A `std::string` is a list of bytes, and only `dump` asks whether the bytes are UTF-8.
The parser is not here: which bytes it accepts, and as what value, is a parameter of
`Libwebrtc/PcFactory.lean`.  The numbers in `typeError` are the ids of the library.
-/
import Mathlib.Data.List.AList

namespace WebrtcEchoes.Libwebrtc

/-- The contents of a `std::string` or of a request body. -/
abbrev Bytes := List UInt8

/-- The bytes of a text. -/
def bytesOf (text : String) : Bytes := text.toUTF8.data.toList

/-- The text that some bytes encode, if they are UTF-8. -/
def utf8 (bytes : Bytes) : Option String := String.fromUTF8? ⟨⟨bytes⟩⟩

/-- The exceptions that can leave `PcFactory::CreatePeerConnection`. -/
inductive Exn
  /-- `std::length_error`, of the constructor of `std::string`. -/
  | lengthError
  /-- `nlohmann::json::parse_error` -/
  | parseError
  /-- `nlohmann::json::type_error` -/
  | typeError (id : Nat)
  deriving DecidableEq, Repr

/-- A parsed value.  The members of an object are those of a `std::map`. -/
inductive Json
  | null
  | boolean (b : Bool)
  | number
  | string (s : Bytes)
  | array (elements : List Json)
  | object (members : List (String × Json))

/-- `operator[]` with a key, on a value that is not `const`: `null` becomes an object, and a
missing member becomes `null`. -/
def Json.subscript (key : String) : Json → Except Exn Json
  | .null => .ok .null
  | .object members => .ok ((members.lookup key).getD .null)
  | _ => .error (.typeError 305)

/-- The conversion to `std::string`. -/
def Json.toStdString : Json → Except Exn Bytes
  | .string s => .ok s
  | _ => .error (.typeError 302)

/-- What `dump_escaped` writes for one code point, with `ensure_ascii` off. -/
def escape (c : Char) : List Char :=
  if c.toNat = 0x08 then ['\\', 'b']
  else if c.toNat = 0x09 then ['\\', 't']
  else if c.toNat = 0x0A then ['\\', 'n']
  else if c.toNat = 0x0C then ['\\', 'f']
  else if c.toNat = 0x0D then ['\\', 'r']
  else if c.toNat = 0x22 then ['\\', '"']
  else if c.toNat = 0x5C then ['\\', '\\']
  else if c.toNat ≤ 0x1F then
    ['\\', 'u', '0', '0', Nat.digitChar (c.toNat / 16), Nat.digitChar (c.toNat % 16)]
  else [c]

/-- `dump_escaped`, with the strict error handler. -/
def dumpEscaped (s : Bytes) : Except Exn String :=
  match utf8 s with
  | none => .error (.typeError 316)
  | some text => .ok (String.ofList (text.toList.flatMap escape))

end WebrtcEchoes.Libwebrtc
