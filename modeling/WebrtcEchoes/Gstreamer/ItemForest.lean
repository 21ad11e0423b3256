/-
The items as their owner sees them: trees of named values.

What an item holds is its type, the text or number of its value and its name, as contents and
not as pointers.  `Represents` says that memory holds a forest of such items and nothing else:
every item and every text that is allocated belongs to it, once.
-/
import Mathlib.Data.Finset.Card
import WebrtcEchoes.Gstreamer.ItemMemory
import WebrtcEchoes.Lib.Forest
import WebrtcEchoes.Lib.Siblings

namespace WebrtcEchoes.Gstreamer.CJson

open Handler

variable {ν : Type}

/-- What an item holds.  The text of a reference is somebody else's. -/
structure Label (ν : Type) where
  kind : Kind
  isReference : Bool
  stringIsConst : Bool
  valuestring : Option Bytes
  valuedouble : ν
  string : Option Bytes
  deriving DecidableEq, Repr

/-- What an item with nothing but a type holds. -/
def Label.ofKind [Zero ν] (kind : Kind) : Label ν where
  kind := kind
  isReference := false
  stringIsConst := false
  valuestring := none
  valuedouble := 0
  string := none

/-- An item that holds its children, if it has any, as its own. -/
def Container (F : Forest Loc (Label ν)) (p : Loc) : Prop :=
  ∃ d, F.label p = some d ∧ d.isReference = false

def nameOf (F : Forest Loc (Label ν)) (x : Loc) : Option Bytes := (F.label x).bind (·.string)

/-- The items that a search by name comes to: one that tells upper case from lower case stops
at the first item without a name. -/
def searched (F : Forest Loc (Label ν)) (caseSensitive : Bool) (xs : List Loc) : List Loc :=
  if caseSensitive then xs.takeWhile fun x => (nameOf F x).isSome else xs

/-- The first of them that has the name. -/
def found (F : Forest Loc (Label ν)) (name : Bytes) (caseSensitive : Bool) (xs : List Loc) :
    Option Loc :=
  (searched F caseSensitive xs).find? fun x => (nameOf F x).any (sameName caseSensitive name)

namespace Memory

variable (m : Memory ν)

def label (l : Loc) : Label ν where
  kind := (m.item l).kind
  isReference := (m.item l).isReference
  stringIsConst := (m.item l).stringIsConst
  valuestring := if (m.item l).isReference then none else (m.item l).valuestring.bind m.textAt
  valuedouble := (m.item l).valuedouble
  string := (m.item l).string.bind m.textAt

end Memory

/-- The block that a text is in. -/
def TextPtr.blocks : Option TextPtr → List Loc
  | some (.block l) => [l]
  | _ => []

/-- The blocks that are freed with an item. -/
def Item.owned (i : Item ν) : List Loc :=
  (if !i.isReference then TextPtr.blocks i.valuestring else []) ++
    if !i.stringIsConst then TextPtr.blocks i.string else []

/-- What is freed with an item is from the allocator, and a constant name is not. -/
structure Item.Sound (i : Item ν) : Prop where
  valuestring : ∀ text, i.isReference = false → i.valuestring ≠ some (.constant text)
  string : ∀ text, i.stringIsConst = false → i.string ≠ some (.constant text)
  const : ∀ l, i.stringIsConst = true → i.string ≠ some (.block l)

/-- Every text that is allocated is freed with one item, and every text that is to be freed is
allocated. -/
structure TextsOwned (m : Memory ν) : Prop where
  sound : ∀ {l}, m.live l = true → (m.item l).Sound
  held : ∀ {l t}, m.live l = true → t ∈ (m.item l).owned → m.texts t ≠ none
  owner : ∀ {t}, m.texts t ≠ none → ∃ l, m.live l = true ∧ t ∈ (m.item l).owned
  unique : ∀ {l k t}, m.live l = true → m.live k = true → t ∈ (m.item l).owned →
    t ∈ (m.item k).owned → l = k
  nodup : ∀ {l}, m.live l = true → (m.item l).owned.Nodup

/-- Memory holds these items, linked in this order, and no other item or text. -/
structure Represents (m : Memory ν) (F : Forest Loc (Label ν)) : Prop where
  proper : F.Proper
  labels : ∀ l, F.label l = if m.live l then some (m.label l) else none
  child : ∀ {l}, m.live l = true → (m.item l).isReference = false → m.child l = (F.kids l).head?
  borrowed : ∀ {l}, m.live l = true → (m.item l).isReference = true → F.kids l = []
  siblings : ∀ p, Siblings m.next m.prev (F.kids p)
  roots : ∀ {l}, F.Root l → m.next l = none ∧ m.prev l = none
  texts : TextsOwned m
  /-- Each item took a request. -/
  bounded : ∃ s : Finset Loc, (∀ l, m.live l = true → l ∈ s) ∧ s.card ≤ m.asked

end WebrtcEchoes.Gstreamer.CJson
