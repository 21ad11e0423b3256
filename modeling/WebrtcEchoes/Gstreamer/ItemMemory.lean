/-
`cJSON.c`, the items in memory: how they are linked, named, taken apart and freed.

Memory has one function for each field of a `cJSON`, defined where an item is allocated, and
the texts that were allocated for the items.  A step that uses `NULL`, an item or a text that
is not allocated (any more), or that frees text of the caller, has no result.  The allocator
is a parameter: it may refuse any request, and may hand out an address again once it is free.
-/
import Mathlib.Logic.Function.Basic
import WebrtcEchoes.Gstreamer.Handler

namespace WebrtcEchoes.Gstreamer.CJson

open Handler

/-- An address. -/
abbrev Loc := ℕ

/-- A `char *` that is not `NULL`: a block of the allocator, or text that the caller holds. -/
inductive TextPtr
  | block (l : Loc)
  | constant (text : Bytes)
  deriving DecidableEq, Repr

/-- The lower byte of `type`. -/
inductive Kind
  | invalid
  | bool (b : Bool)
  | null
  | number
  | string
  | array
  | object
  | raw
  deriving DecidableEq, Repr

/-- A `cJSON` but for its links to other items. -/
structure Item (ν : Type) where
  kind : Kind
  isReference : Bool
  stringIsConst : Bool
  valuestring : Option TextPtr
  valuedouble : ν
  string : Option TextPtr
  deriving DecidableEq, Repr

/-- An item with nothing but a type. -/
def Item.ofKind {ν : Type} [Zero ν] (kind : Kind) : Item ν where
  kind := kind
  isReference := false
  stringIsConst := false
  valuestring := none
  valuedouble := 0
  string := none

structure Memory (ν : Type) where
  /-- Whether an item is allocated at an address. -/
  live : Loc → Bool
  item : Loc → Item ν
  next : Loc → Option Loc
  prev : Loc → Option Loc
  child : Loc → Option Loc
  texts : Loc → Option Bytes
  /-- The requests to the allocator so far. -/
  asked : ℕ

/-- What the `n`-th request yields, by the addresses in use. -/
structure Allocator where
  offer : ℕ → (Loc → Bool) → Option Loc
  fresh : ∀ {n used l}, offer n used = some l → used l = false

/-- One of `k` requests is refused, of which the first has this number, when these addresses
are in use before it. -/
def Allocator.Refuses (A : Allocator) : ℕ → (Loc → Bool) → ℕ → Prop
  | _, _, 0 => False
  | n, used, k + 1 =>
    ∀ l, A.offer n used = some l → A.Refuses (n + 1) (Function.update used l true) k

variable {ν : Type}

namespace Memory

def empty [Zero ν] : Memory ν where
  live _ := false
  item _ := .ofKind .invalid
  next _ := none
  prev _ := none
  child _ := none
  texts _ := none
  asked := 0

variable (m : Memory ν)

/-- The item that is pointed at. -/
def deref (p : Option Loc) : Option Loc := p.filter m.live

def setNext (p v : Option Loc) : Option (Memory ν) :=
  (m.deref p).map fun l => { m with next := Function.update m.next l v }

def setPrev (p v : Option Loc) : Option (Memory ν) :=
  (m.deref p).map fun l => { m with prev := Function.update m.prev l v }

def setChild (p v : Option Loc) : Option (Memory ν) :=
  (m.deref p).map fun l => { m with child := Function.update m.child l v }

def setItem (p : Option Loc) (i : Item ν) : Option (Memory ν) :=
  (m.deref p).map fun l => { m with item := Function.update m.item l i }

/-- The text that is pointed at. -/
def textAt : TextPtr → Option Bytes
  | .block l => m.texts l
  | .constant text => some text

def used (l : Loc) : Bool := m.live l || (m.texts l).isSome

variable (A : Allocator)

/-- One of the next requests is refused. -/
def Refuses (k : ℕ) : Prop := A.Refuses m.asked m.used k

/-- The answer to a request, which counts as one. -/
def malloc : Memory ν × Option Loc := ({ m with asked := m.asked + 1 }, A.offer m.asked m.used)

def freeItem (l : Loc) : Option (Memory ν) :=
  if m.live l then some { m with live := Function.update m.live l false } else none

def freeText : TextPtr → Option (Memory ν)
  | .block l =>
    if (m.texts l).isSome then some { m with texts := Function.update m.texts l none } else none
  | .constant _ => none

/-- The item at a new address, with every field zero. -/
def zeroed [Zero ν] (l : Loc) : Memory ν :=
  { m with
    live := Function.update m.live l true
    item := Function.update m.item l (.ofKind .invalid)
    next := Function.update m.next l none
    prev := Function.update m.prev l none
    child := Function.update m.child l none }

end Memory

open Memory

section Api

variable [Zero ν] (A : Allocator)

def newItem (m : Memory ν) : Memory ν × Option Loc :=
  match m.malloc A with
  | (m, none) => (m, none)
  | (m, some l) => (m.zeroed l, some l)

/-- `cJSON_strdup`, which yields `NULL` for `NULL`. -/
def strdup (m : Memory ν) : Option TextPtr → Option (Memory ν × Option TextPtr)
  | none => some (m, none)
  | some string => do
    let text ← m.textAt string
    match m.malloc A with
    | (m, none) => return (m, none)
    | (m, some l) =>
      return ({ m with texts := Function.update m.texts l (some text) }, some (.block l))

/-- `deallocate`, if the text is to be freed at all. -/
def freeTextIf (owned : Bool) (m : Memory ν) : Option TextPtr → Option (Memory ν)
  | none => some m
  | some string => if owned then m.freeText string else some m

/-- The loop and the recursion of `cJSON_Delete`, for as many steps. -/
def deleteFrom : ℕ → Memory ν → Option Loc → Option (Memory ν)
  | _, m, none => some m
  | 0, _, some _ => none
  | fuel + 1, m, some item => do
    let l ← m.deref (some item)
    let next := m.next l
    let m ← if !(m.item l).isReference && (m.child l).isSome then deleteFrom fuel m (m.child l)
      else some m
    let m ← freeTextIf (!(m.item l).isReference) m (m.item l).valuestring
    let m ← freeTextIf (!(m.item l).stringIsConst) m (m.item l).string
    let m ← m.freeItem l
    deleteFrom fuel m next

/-- Every item took a request, so as many steps are enough. -/
def cJSONDelete (m : Memory ν) (item : Option Loc) : Option (Memory ν) := deleteFrom m.asked m item

/-- `cJSON_CreateNull` and its like, each with a type of its own. -/
def createItem (i : Item ν) (m : Memory ν) : Option (Memory ν × Option Loc) :=
  match newItem A m with
  | (m, none) => some (m, none)
  | (m, some l) => do
    let m ← m.setItem (some l) i
    return (m, some l)

def cJSONCreateNull : Memory ν → Option (Memory ν × Option Loc) := createItem A (.ofKind .null)

def cJSONCreateBool (boolean : Bool) : Memory ν → Option (Memory ν × Option Loc) :=
  createItem A (.ofKind (.bool boolean))

def cJSONCreateTrue : Memory ν → Option (Memory ν × Option Loc) :=
  createItem A (.ofKind (.bool true))

def cJSONCreateFalse : Memory ν → Option (Memory ν × Option Loc) :=
  createItem A (.ofKind (.bool false))

def cJSONCreateNumber (num : ν) : Memory ν → Option (Memory ν × Option Loc) :=
  createItem A { (Item.ofKind .number : Item ν) with valuedouble := num }

def cJSONCreateArray : Memory ν → Option (Memory ν × Option Loc) := createItem A (.ofKind .array)

def cJSONCreateObject : Memory ν → Option (Memory ν × Option Loc) :=
  createItem A (.ofKind .object)

/-- `cJSON_CreateString` and `cJSON_CreateRaw`. -/
def createText (kind : Kind) (string : Option TextPtr) (m : Memory ν) :
    Option (Memory ν × Option Loc) :=
  match newItem A m with
  | (m, none) => some (m, none)
  | (m, some l) => do
    let m ← m.setItem (some l) (.ofKind kind)
    let (m, valuestring) ← strdup A m string
    let m ← m.setItem (some l) { (Item.ofKind kind : Item ν) with valuestring := valuestring }
    if valuestring = none then
      let m ← cJSONDelete m (some l)
      return (m, none)
    else return (m, some l)

def cJSONCreateString : Option TextPtr → Memory ν → Option (Memory ν × Option Loc) :=
  createText A .string

def cJSONCreateRaw : Option TextPtr → Memory ν → Option (Memory ν × Option Loc) :=
  createText A .raw

/-- The loop of `get_array_item`. -/
def walk (m : Memory ν) : Option Loc → ℕ → Option (Option Loc)
  | none, _ => some none
  | some current, 0 => some (some current)
  | some current, index + 1 => do
    let l ← m.deref (some current)
    walk m (m.next l) index

def getArrayItem (m : Memory ν) (array : Option Loc) (index : ℕ) : Option (Option Loc) :=
  match array with
  | none => some none
  | some array => do
    let l ← m.deref (some array)
    walk m (m.child l) index

def cJSONGetArrayItem (m : Memory ν) (array : Option Loc) (index : ℤ) : Option (Option Loc) :=
  if index < 0 then some none else getArrayItem m array index.toNat

/-- The loop of `cJSON_GetArraySize`. -/
def countFrom (m : Memory ν) : ℕ → Option Loc → Option ℕ
  | _, none => some 0
  | 0, some _ => none
  | fuel + 1, some current => do
    let l ← m.deref (some current)
    let size ← countFrom m fuel (m.next l)
    return size + 1

/-- The cast of a `size_t` to an `int`. -/
def toInt (size : ℕ) : ℤ := Int.bmod size 4294967296

def cJSONGetArraySize (m : Memory ν) (array : Option Loc) : Option ℤ :=
  match array with
  | none => some 0
  | some array => do
    let l ← m.deref (some array)
    let size ← countFrom m m.asked (m.child l)
    return toInt size

/-- `tolower` -/
def toLower (b : UInt8) : UInt8 := if 65 ≤ b ∧ b ≤ 90 then b + 32 else b

/-- Whether the names are the same for `case_insensitive_strcmp`, or for `strcmp`. -/
def sameName (caseSensitive : Bool) (name string : Bytes) : Bool :=
  if caseSensitive then name == string else name.map toLower == string.map toLower

/-- The two loops of `get_object_item`: the case-sensitive one stops at an item without a name,
the other one goes on. -/
def findFrom (m : Memory ν) (name : Bytes) (caseSensitive : Bool) :
    ℕ → Option Loc → Option (Option Loc)
  | _, none => some none
  | 0, some _ => none
  | fuel + 1, some current => do
    let l ← m.deref (some current)
    match (m.item l).string with
    | none => if caseSensitive then return none else findFrom m name caseSensitive fuel (m.next l)
    | some string =>
      let string ← m.textAt string
      if sameName caseSensitive name string then return some l
      else findFrom m name caseSensitive fuel (m.next l)

def getObjectItem (m : Memory ν) (object : Option Loc) (name : Option TextPtr)
    (caseSensitive : Bool) : Option (Option Loc) :=
  match object, name with
  | some object, some name => do
    let l ← m.deref (some object)
    let name ← m.textAt name
    findFrom m name caseSensitive m.asked (m.child l)
  | _, _ => some none

def suffixObject (m : Memory ν) (prev item : Option Loc) : Option (Memory ν) := do
  let m ← m.setNext prev item
  m.setPrev item prev

def addItemToArray (m : Memory ν) (array item : Option Loc) : Option (Memory ν × Bool) :=
  if item = none ∨ array = none ∨ array = item then some (m, false)
  else do
    let a ← m.deref array
    match m.child a with
    | none =>
      let m ← m.setChild array item
      let m ← m.setPrev item item
      let m ← m.setNext item none
      return (m, true)
    | some child =>
      let c ← m.deref (some child)
      if m.prev c = none then return (m, true)
      else
        let m ← suffixObject m (m.prev c) item
        let m ← m.setPrev (m.child a) item
        return (m, true)

def addItemToObject (m : Memory ν) (object : Option Loc) (string : Option TextPtr)
    (item : Option Loc) (constantKey : Bool) : Option (Memory ν × Bool) :=
  if object = none ∨ string = none ∨ item = none ∨ object = item then some (m, false)
  else do
    let i ← m.deref item
    let (m, newKey) ← if constantKey then some (m, string) else strdup A m string
    if newKey = none then return (m, false)
    else
      let m ← freeTextIf (!(m.item i).stringIsConst) m (m.item i).string
      let m ← m.setItem item { m.item i with string := newKey, stringIsConst := constantKey }
      addItemToArray m object item

/-- `cJSON_AddNullToObject` and its like: what was created is added, or deleted again. -/
def addNewToObject (create : Memory ν → Option (Memory ν × Option Loc)) (m : Memory ν)
    (object : Option Loc) (name : Option TextPtr) : Option (Memory ν × Option Loc) := do
  let (m, item) ← create m
  let (m, added) ← addItemToObject A m object name item false
  if added then return (m, item)
  else
    let m ← cJSONDelete m item
    return (m, none)

def cJSONDetachItemViaPointer (m : Memory ν) (parent item : Option Loc) :
    Option (Memory ν × Option Loc) :=
  if parent = none ∨ item = none then some (m, none)
  else do
    let p ← m.deref parent
    let i ← m.deref item
    let m ← if item ≠ m.child p then m.setNext (m.prev i) (m.next i) else some m
    let m ← if m.next i ≠ none then m.setPrev (m.next i) (m.prev i) else some m
    let m ← if item = m.child p then m.setChild parent (m.next i)
      else if m.next i = none then m.setPrev (m.child p) (m.prev i)
      else some m
    let m ← m.setPrev item none
    let m ← m.setNext item none
    return (m, item)

def cJSONDetachItemFromArray (m : Memory ν) (array : Option Loc) (which : ℤ) :
    Option (Memory ν × Option Loc) :=
  if which < 0 then some (m, none)
  else do
    let item ← getArrayItem m array which.toNat
    cJSONDetachItemViaPointer m array item

/-- `cJSON_DetachItemFromObject` and `cJSON_DetachItemFromObjectCaseSensitive` -/
def detachItemFromObject (m : Memory ν) (object : Option Loc) (string : Option TextPtr)
    (caseSensitive : Bool) : Option (Memory ν × Option Loc) := do
  let toDetach ← getObjectItem m object string caseSensitive
  cJSONDetachItemViaPointer m object toDetach

def cJSONInsertItemInArray (m : Memory ν) (array : Option Loc) (which : ℤ) (newitem : Option Loc) :
    Option (Memory ν × Bool) :=
  if which < 0 then some (m, false)
  else do
    match ← getArrayItem m array which.toNat with
    | none => addItemToArray m array newitem
    | some after =>
      let afterInserted := some after
      let a ← m.deref array
      let m ← m.setNext newitem afterInserted
      let m ← m.setPrev newitem (m.prev after)
      let m ← m.setPrev afterInserted newitem
      if afterInserted = m.child a then
        let m ← m.setChild array newitem
        return (m, true)
      else
        let n ← m.deref newitem
        let m ← m.setNext (m.prev n) newitem
        return (m, true)

def cJSONReplaceItemViaPointer (m : Memory ν) (parent item replacement : Option Loc) :
    Option (Memory ν × Bool) :=
  if parent = none ∨ replacement = none ∨ item = none then some (m, false)
  else if replacement = item then some (m, true)
  else do
    let p ← m.deref parent
    let i ← m.deref item
    let r ← m.deref replacement
    let m ← m.setNext replacement (m.next i)
    let m ← m.setPrev replacement (m.prev i)
    let m ← if m.next r ≠ none then m.setPrev (m.next r) replacement else some m
    let m ← if m.child p = item then do
        let c ← m.deref (m.child p)
        let m ← if m.prev c = m.child p then m.setPrev replacement replacement else some m
        m.setChild parent replacement
      else do
        let m ← if m.prev r ≠ none then m.setNext (m.prev r) replacement else some m
        if m.next r = none then m.setPrev (m.child p) replacement else some m
    let m ← m.setNext item none
    let m ← m.setPrev item none
    let m ← cJSONDelete m item
    return (m, true)

def cJSONReplaceItemInArray (m : Memory ν) (array : Option Loc) (which : ℤ) (newitem : Option Loc) :
    Option (Memory ν × Bool) :=
  if which < 0 then some (m, false)
  else do
    let item ← getArrayItem m array which.toNat
    cJSONReplaceItemViaPointer m array item newitem

def replaceItemInObject (m : Memory ν) (object : Option Loc) (string : Option TextPtr)
    (replacement : Option Loc) (caseSensitive : Bool) : Option (Memory ν × Bool) :=
  if replacement = none ∨ string = none then some (m, false)
  else do
    let r ← m.deref replacement
    let m ← freeTextIf (!(m.item r).stringIsConst) m (m.item r).string
    let (m, newKey) ← strdup A m string
    let m ← m.setItem replacement { m.item r with string := newKey, stringIsConst := false }
    let item ← getObjectItem m object string caseSensitive
    cJSONReplaceItemViaPointer m object item replacement

end Api

end WebrtcEchoes.Gstreamer.CJson
