/-
`cJSON.c`, from an item to its text, with the memory that the text is written to.

A cell of the buffer that nothing was written to has no value.  A write behind the end of the
buffer is seen, and so is a `strlen` that reads such a cell or runs over the end.  Whether an
allocation of some size succeeds is a parameter; memory grows by `realloc`, which keeps what
is there.
-/
import WebrtcEchoes.Gstreamer.CJson

namespace WebrtcEchoes.Gstreamer.CJson

open Handler Json

abbrev Cell := Option UInt8

/-- `printbuffer`, whose `length` is that of its cells. -/
structure PrintBuffer where
  cells : List Cell
  offset : Nat
  /-- The nesting, for the tabs. -/
  depth : Nat
  noalloc : Bool
  format : Bool
  deriving DecidableEq, Repr

/-- How a function of the printer ends. -/
inductive Printed (α : Type)
  | done (x : α)
  | failed
  /-- Memory outside of the buffer, or that was never written, was used. -/
  | fault
  deriving DecidableEq, Repr

def Printed.andThen {α β : Type} (r : Printed α) (f : α → Printed β) : Printed β :=
  match r with
  | .done x => f x
  | .failed => .failed
  | .fault => .fault

/-- `INT_MAX` -/
def intMax : Nat := 2147483647

section Allocation

-- whether memory of a size is to be had
variable (allocates : Nat → Bool)

/-- `realloc` to a larger size. -/
def grow (newsize : Nat) (p : PrintBuffer) : Printed PrintBuffer :=
  if allocates newsize then
    .done { p with cells := p.cells ++ List.replicate (newsize - p.cells.length) none }
  else .failed

def ensure (needed : Nat) (p : PrintBuffer) : Printed PrintBuffer :=
  if 0 < p.cells.length ∧ p.cells.length ≤ p.offset then .failed
  else if intMax < needed then .failed
  else
    let needed := needed + p.offset + 1
    if needed ≤ p.cells.length then .done p
    else if p.noalloc then .failed
    else if intMax / 2 < needed then
      if needed ≤ intMax then grow allocates intMax p else .failed
    else grow allocates (needed * 2) p

/-- Writes from a position behind the offset on. -/
def write (position : Nat) (bytes : Bytes) (p : PrintBuffer) : Printed PrintBuffer :=
  let i := p.offset + position
  if i + bytes.length ≤ p.cells.length then
    .done { p with cells := p.cells.take i ++ bytes.map some ++ p.cells.drop (i + bytes.length) }
  else .fault

/-- `strlen` -/
def cellsStrlen : List Cell → Option Nat
  | [] => none
  | none :: _ => none
  | some b :: rest => if b = 0 then some 0 else (cellsStrlen rest).map (· + 1)

def updateOffset (p : PrintBuffer) : Printed PrintBuffer :=
  match cellsStrlen (p.cells.drop p.offset) with
  | some length => .done { p with offset := p.offset + length }
  | none => .fault

/-- `ensure`, and a write at the offset. -/
def put (needed : Nat) (bytes : Bytes) (p : PrintBuffer) : Printed PrintBuffer :=
  (ensure allocates needed p).andThen (write 0 bytes)

/-- The same, and the offset moved on. -/
def emit (needed : Nat) (bytes : Bytes) (length : Nat) (p : PrintBuffer) : Printed PrintBuffer :=
  (put allocates needed bytes p).andThen fun p => .done { p with offset := p.offset + length }

/-! ### Strings and numbers -/

/-- What the escapes of `print_string_ptr` take more than the bytes. -/
def escapeCharacters : Bytes → Nat
  | [] => 0
  | b :: rest =>
      (if b = 34 ∨ b = 92 ∨ b = 8 ∨ b = 12 ∨ b = 10 ∨ b = 13 ∨ b = 9 then 1
        else if b < 32 then 5 else 0) + escapeCharacters rest

/-- `print_string_ptr`, which writes the closing quote where it has counted it to be. -/
def printStringPtr (text : Bytes) (p : PrintBuffer) : Printed PrintBuffer :=
  let input := cString text
  let outputLength := input.length + escapeCharacters input
  (ensure allocates (outputLength + 3) p).andThen fun p =>
    (write 0 [34] p).andThen fun p =>
      (write 1 (if escapeCharacters input = 0 then input else input.flatMap escape) p).andThen
        (write (outputLength + 1) [34, 0])

variable {ν : Type} (libc : Libc ν)

/-- What `print_number` writes: 17 digits where 15 do not give the double back. -/
def numberText (x : ν) : Bytes :=
  if libc.isFinite x then
    if libc.compareDouble (libc.strtod (libc.format15 x)) x then libc.format15 x
    else libc.format17 x
  else ascii "null"

def printNumber (x : ν) (p : PrintBuffer) : Printed PrintBuffer :=
  let text := numberText libc x
  if 25 < text.length then .failed else emit allocates (text.length + 1) (text ++ [0]) text.length p

/-! ### Values -/

def separator (format : Bool) : Bytes := if format then ascii ", " else ascii ","

def colon (format : Bool) : Bytes := if format then ascii ":\t" else ascii ":"

def newline (format : Bool) : Bytes := if format then ascii "\n" else []

def comma (last : Bool) : Bytes := if last then [] else ascii ","

/-- The tabs in front of a member. -/
def printTabs (p : PrintBuffer) : Printed PrintBuffer :=
  if p.format then emit allocates p.depth (List.replicate p.depth 9) p.depth p else .done p

mutual
/-- `print_value` -/
def printValue : Value ν → PrintBuffer → Printed PrintBuffer
  | .null, p => put allocates 5 (ascii "null" ++ [0]) p
  | .bool false, p => put allocates 6 (ascii "false" ++ [0]) p
  | .bool true, p => put allocates 5 (ascii "true" ++ [0]) p
  | .number x, p => printNumber allocates libc x p
  | .string text, p => printStringPtr allocates text p
  | .array items, p =>
      (emit allocates 1 (ascii "[") 1 p).andThen fun p =>
        (printItems items { p with depth := p.depth + 1 }).andThen fun p =>
          (put allocates 2 (ascii "]" ++ [0]) p).andThen fun p =>
            .done { p with depth := p.depth - 1 }
  | .object members, p =>
      let opening := ascii "\x7b" ++ newline p.format
      (emit allocates (opening.length + 1) opening opening.length p).andThen fun p =>
        (printMembers members { p with depth := p.depth + 1 }).andThen fun p =>
          (put allocates (if p.format then p.depth + 1 else 2)
            ((if p.format then List.replicate (p.depth - 1) 9 else []) ++ ascii "\x7d" ++ [0])
            p).andThen fun p => .done { p with depth := p.depth - 1 }

/-- The loop of `print_array`. -/
def printItems : List (Value ν) → PrintBuffer → Printed PrintBuffer
  | [], p => .done p
  | item :: rest, p =>
      (printValue item p).andThen fun p =>
        (updateOffset p).andThen fun p =>
          (if rest.isEmpty then .done p
            else emit allocates ((separator p.format).length + 1) (separator p.format ++ [0])
              (separator p.format).length p).andThen
            fun p => printItems rest p

/-- The loop of `print_object`. -/
def printMembers : List (Bytes × Value ν) → PrintBuffer → Printed PrintBuffer
  | [], p => .done p
  | m :: rest, p =>
      (printTabs allocates p).andThen fun p =>
        (printStringPtr allocates m.1 p).andThen fun p =>
          (updateOffset p).andThen fun p =>
            (emit allocates (colon p.format).length (colon p.format) (colon p.format).length
              p).andThen fun p =>
              (printValue m.2 p).andThen fun p =>
                (updateOffset p).andThen fun p =>
                  let ending := comma rest.isEmpty ++ newline p.format
                  (emit allocates (ending.length + 1) (ending ++ [0]) ending.length p).andThen
                    fun p => printMembers rest p
end

/-- `print`: the memory that is handed out. -/
def print (format : Bool) (item : Value ν) : Printed (List Cell) :=
  if allocates 256 then
    (printValue allocates libc item
      { cells := List.replicate 256 none, offset := 0, depth := 0, noalloc := false
        format := format }).andThen fun p =>
      (updateOffset p).andThen fun p =>
        if allocates (p.offset + 1) then .done (p.cells.take (p.offset + 1)) else .failed
  else .failed

/-- `cJSON_Print` -/
def cJSONPrint (item : Value ν) : Printed (List Cell) := print allocates libc true item

/-- `cJSON_PrintUnformatted` -/
def cJSONPrintUnformatted (item : Value ν) : Printed (List Cell) := print allocates libc false item

/-- `cJSON_PrintPreallocated`: what the caller's memory holds when it returns true. -/
def cJSONPrintPreallocated (item : Value ν) (buffer : List Cell) (format : Bool) :
    Printed (List Cell) :=
  (printValue allocates libc item
    { cells := buffer, offset := 0, depth := 0, noalloc := true, format := format }).andThen
      fun p => .done p.cells

end Allocation

end WebrtcEchoes.Gstreamer.CJson
