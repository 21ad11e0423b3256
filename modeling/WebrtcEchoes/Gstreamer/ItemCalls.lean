/-
The calls that build and change items, and what each of them is for.

An owner of items has trees in hand and may put the root of one below an item of another,
take an item out again, exchange it or delete it.  `Legal` says which calls keep to that:
nothing is put where it already is, or below itself, and only what is in hand is deleted.
`Replies` and `after` say what a call then answers and what it makes of the trees.
-/
import WebrtcEchoes.Gstreamer.ItemForest

namespace WebrtcEchoes.Gstreamer.CJson

open Handler

variable {ν : Type}

inductive Creation (ν : Type)
  /-- `cJSON_CreateNull` and its like, and `cJSON_CreateNumber`. -/
  | item (kind : Kind) (valuedouble : ν)
  /-- `cJSON_CreateString` and `cJSON_CreateRaw`. -/
  | text (kind : Kind) (string : Bytes)

def Creation.run [Zero ν] (A : Allocator) : Creation ν → Memory ν → Option (Memory ν × Option Loc)
  | .item kind x => createItem A { (Item.ofKind kind : Item ν) with valuedouble := x }
  | .text kind string => createText A kind (some (.constant string))

/-- How many requests to the allocator it takes. -/
def Creation.requests : Creation ν → ℕ
  | .item _ _ => 1
  | .text _ _ => 2

/-- What is created. -/
def Creation.label [Zero ν] : Creation ν → Label ν
  | .item kind x => { (Label.ofKind kind : Label ν) with valuedouble := x }
  | .text kind string => { (Label.ofKind kind : Label ν) with valuestring := some string }

inductive Call (ν : Type)
  | create (what : Creation ν)
  | addItemToArray (array item : Option Loc)
  | addItemToObject (object : Option Loc) (string : Option Bytes) (item : Option Loc)
      (constantKey : Bool)
  /-- `cJSON_AddNullToObject` and its like. -/
  | addNewToObject (what : Creation ν) (object : Option Loc) (name : Option Bytes)
  | detachItemViaPointer (parent item : Option Loc)
  | detachItemFromArray (array : Option Loc) (which : ℤ)
  | detachItemFromObject (object : Option Loc) (string : Option Bytes) (caseSensitive : Bool)
  | insertItemInArray (array : Option Loc) (which : ℤ) (newitem : Option Loc)
  | replaceItemViaPointer (parent item replacement : Option Loc)
  | replaceItemInArray (array : Option Loc) (which : ℤ) (newitem : Option Loc)
  | delete (item : Option Loc)

inductive Reply
  | pointer (p : Option Loc)
  | bool (b : Bool)
  | void
  deriving DecidableEq, Repr

/-- What a call does to memory, and what it returns. -/
def perform [Zero ν] (A : Allocator) (m : Memory ν) : Call ν → Option (Memory ν × Reply)
  | .create what => (what.run A m).map fun r => (r.1, .pointer r.2)
  | .addItemToArray array item => (addItemToArray m array item).map fun r => (r.1, .bool r.2)
  | .addItemToObject object string item constantKey =>
    (addItemToObject A m object (string.map .constant) item constantKey).map fun r =>
      (r.1, .bool r.2)
  | .addNewToObject what object name =>
    (addNewToObject A (what.run A) m object (name.map .constant)).map fun r => (r.1, .pointer r.2)
  | .detachItemViaPointer parent item =>
    (cJSONDetachItemViaPointer m parent item).map fun r => (r.1, .pointer r.2)
  | .detachItemFromArray array which =>
    (cJSONDetachItemFromArray m array which).map fun r => (r.1, .pointer r.2)
  | .detachItemFromObject object string caseSensitive =>
    (detachItemFromObject m object (string.map .constant) caseSensitive).map fun r =>
      (r.1, .pointer r.2)
  | .insertItemInArray array which newitem =>
    (cJSONInsertItemInArray m array which newitem).map fun r => (r.1, .bool r.2)
  | .replaceItemViaPointer parent item replacement =>
    (cJSONReplaceItemViaPointer m parent item replacement).map fun r => (r.1, .bool r.2)
  | .replaceItemInArray array which newitem =>
    (cJSONReplaceItemInArray m array which newitem).map fun r => (r.1, .bool r.2)
  | .delete item => (cJSONDelete m item).map fun m => (m, .void)

section Owner

variable (F : Forest Loc (Label ν))

/-- A tree in hand that the item `p` is not in. -/
structure InHand (x p : Loc) : Prop where
  root : F.Root x
  apart : ¬ F.Below x p

def Legal : Call ν → Prop
  | .addItemToArray (some p) (some x) => p ≠ x → Container F p ∧ InHand F x p
  | .addItemToObject (some p) (some _) (some x) _ => p ≠ x → Container F p ∧ InHand F x p
  | .addNewToObject _ (some p) _ => Container F p
  | .detachItemViaPointer (some p) (some x) => x ∈ F.kids p
  | .detachItemFromArray (some p) which => 0 ≤ which → Container F p
  | .detachItemFromObject (some p) (some _) _ => Container F p
  | .insertItemInArray (some p) which newitem => 0 ≤ which → Container F p ∧
      (∀ x ∈ newitem, InHand F x p) ∧ (newitem = none → (F.kids p).length ≤ which.toNat)
  | .replaceItemViaPointer (some p) (some x) (some y) => y ≠ x → x ∈ F.kids p ∧ InHand F y p
  | .replaceItemInArray (some p) which newitem => 0 ≤ which → Container F p ∧
      ∀ y ∈ newitem, InHand F y p
  | .delete (some x) => F.Root x
  | _ => True

/-- What the owner may rely on, where `refused k` says that one of the next `k` requests to the
allocator is refused.  Only then is there no item, and no copy of a name. -/
def Replies (refused : ℕ → Prop) : Call ν → Reply → Prop
  | .create what, r =>
      ∃ p, r = .pointer p ∧ (p = none ↔ refused what.requests) ∧ ∀ l ∈ p, ¬ F.Node l
  | .addItemToArray array item, r => r = .bool (array.isSome && item.isSome && array != item)
  | .addItemToObject object string item constantKey, r =>
      let possible := object.isSome && string.isSome && item.isSome && object != item
      ∃ b, r = .bool b ∧ (b = true ↔ possible = true ∧ (constantKey = false → ¬ refused 1))
  | .addNewToObject what object name, r =>
      ∃ p, r = .pointer p ∧
        (p = none ↔ object = none ∨ name = none ∨ refused (what.requests + 1)) ∧
        ∀ l ∈ p, ¬ F.Node l
  | .detachItemViaPointer parent item, r => r = .pointer (parent.bind fun _ => item)
  | .detachItemFromArray array which, r =>
      r = .pointer (if which < 0 then none else array.bind fun p => (F.kids p)[which.toNat]?)
  | .detachItemFromObject object string caseSensitive, r =>
      r = .pointer (object.bind fun p => string.bind fun name =>
        found F name caseSensitive (F.kids p))
  | .insertItemInArray array which newitem, r =>
      r = .bool (decide (0 ≤ which) && array.isSome && newitem.isSome)
  | .replaceItemViaPointer parent item replacement, r =>
      r = .bool (parent.isSome && item.isSome && replacement.isSome)
  | .replaceItemInArray array which newitem, r =>
      r = .bool (decide (0 ≤ which) && newitem.isSome &&
        (array.bind fun p => (F.kids p)[which.toNat]?).isSome)
  | .delete _, r => r = .void

/-- An item gets a name, or loses the one it has. -/
def named (x : Loc) (name : Option Bytes) (constantKey : Bool) : Forest Loc (Label ν) :=
  match F.label x with
  | some d => F.setLabel x { d with string := name, stringIsConst := constantKey }
  | none => F

/-- An item takes the place of another one, which goes. -/
noncomputable def replaced (p x y : Loc) : Forest Loc (Label ν) :=
  if y = x then F else (F.setKids p ((F.kids p).replace x y)).prune x

noncomputable def after [Zero ν] : Call ν → Reply → Forest Loc (Label ν)
  | .create what, .pointer (some l) => F.add l what.label
  | .addItemToArray (some p) (some x), .bool true => F.setKids p (F.kids p ++ [x])
  | .addItemToObject (some p) (some string) (some x) constantKey, .bool true =>
      (named F x (some string) constantKey).setKids p (F.kids p ++ [x])
  | .addNewToObject what (some p) (some name), .pointer (some l) =>
      (F.add l { what.label with string := some name }).setKids p (F.kids p ++ [l])
  | .detachItemViaPointer (some p) _, .pointer (some x) => F.setKids p ((F.kids p).erase x)
  | .detachItemFromArray (some p) _, .pointer (some x) => F.setKids p ((F.kids p).erase x)
  | .detachItemFromObject (some p) _ _, .pointer (some x) => F.setKids p ((F.kids p).erase x)
  | .insertItemInArray (some p) which (some x), .bool true =>
      F.setKids p ((F.kids p).insertIdx (min which.toNat (F.kids p).length) x)
  | .replaceItemViaPointer (some p) (some x) (some y), .bool true => replaced F p x y
  | .replaceItemInArray (some p) which (some y), .bool true =>
      match (F.kids p)[which.toNat]? with
      | some x => replaced F p x y
      | none => F
  | .delete (some x), _ => F.prune x
  | _, _ => F

end Owner

/-- Legal calls in any order, from the start of the program on. -/
inductive Session [Zero ν] (A : Allocator) : Memory ν → Forest Loc (Label ν) → Prop
  | start : Session A Memory.empty Forest.empty
  | call {m m' : Memory ν} {F : Forest Loc (Label ν)} {c : Call ν} {r : Reply} :
      Session A m F → Legal F c → perform A m c = some (m', r) → Session A m' (after F c r)

end WebrtcEchoes.Gstreamer.CJson
