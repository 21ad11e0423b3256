/-
Legal calls in any order, from the start of the program on.

`Session.represents` is the induction over the calls: memory holds the forest that they have
made and no other item or text.  So nothing is used after it was freed, freed twice, or lost.
-/
import Mathlib.Algebra.Ring.Int.Defs
import WebrtcEchoes.Proofs.Gstreamer.CJson.Rename

namespace WebrtcEchoes.Gstreamer.CJson

open Handler Memory

variable {ν : Type} {A : Allocator} {m : Memory ν} {F : Forest Loc (Label ν)}

/-- What is in use is an item of the forest, or the value or name of one. -/
theorem Represents.used_iff (h : Represents m F) {l : Loc} :
    m.used l = true ↔ F.Node l ∨ ∃ x, F.Node x ∧ l ∈ (m.item x).owned := by
  have htext : (m.texts l).isSome = true ↔ ∃ x, F.Node x ∧ l ∈ (m.item x).owned := by
    rw [Option.isSome_iff_ne_none]
    constructor
    · intro hl
      obtain ⟨x, hx, hown⟩ := h.texts.owner hl
      exact ⟨x, h.node_iff.mpr hx, hown⟩
    · rintro ⟨x, hx, hown⟩
      exact h.texts.held (h.node_iff.mp hx) hown
  rw [Memory.used, Bool.or_eq_true, htext, h.node_iff]

section Session

variable [Zero ν]

theorem Represents.empty : Represents (Memory.empty : Memory ν) Forest.empty where
  proper := Forest.proper_empty
  labels _ := rfl
  child h := by simp [Memory.empty] at h
  borrowed h := by simp [Memory.empty] at h
  siblings _ := by simp [Forest.empty]
  roots h := absurd rfl h.1
  texts := ⟨by simp [Memory.empty], by simp [Memory.empty], by simp [Memory.empty],
    by simp [Memory.empty], by simp [Memory.empty]⟩
  bounded := ⟨∅, by simp [Memory.empty], by simp⟩

/-- Memory holds what the calls have made of the forest. -/
theorem Session.represents (h : Session A m F) : Represents m F := by
  induction h with
  | start => exact .empty
  | call _ hlegal hperform ih =>
      obtain ⟨m', r, hserves, -, h'⟩ := ih.serves (A := A) hlegal
      rw [hperform, Option.some.injEq, Prod.mk.injEq] at hserves
      obtain ⟨rfl, rfl⟩ := hserves
      exact h'

/-! ### An object with one member in it -/

/-- Hands out the addresses in turn. -/
def Allocator.inTurn : Allocator where
  offer n used := if used n then none else some n
  fresh := by
    intro n used l h
    split at h
    · simp at h
    · simp_all

/-- What `cJSON_CreateObject` and `cJSON_CreateNull` then make. -/
def twoItems : Forest Loc (Label ℤ) := (Forest.empty.add 0 (.ofKind .object)).add 1 (.ofKind .null)

/-- One item in the other, after `cJSON_AddItemToObject`, whose copy of the name is at 2. -/
def oneItem : Forest Loc (Label ℤ) := (named twoItems 1 (some [97]) false).setKids 0 [1]

/-- And another `cJSON_CreateNull`. -/
def spareItem : Forest Loc (Label ℤ) := oneItem.add 3 (.ofKind .null)

theorem root_oneItem : oneItem.Root 0 := by
  constructor
  · simp [oneItem, named, twoItems, Forest.Node, Forest.add, Forest.setLabel, Forest.setKids]
  · intro p
    by_cases hp : p = 0 <;>
      simp [oneItem, named, twoItems, Forest.add, Forest.setLabel, Forest.setKids, Forest.empty, hp]

theorem inHand_twoItems : InHand twoItems 1 0 := by
  refine ⟨⟨by simp [twoItems, Forest.Node, Forest.add], fun p => ?_⟩, ?_⟩
  · simp [twoItems, Forest.add, Forest.empty]
  · rw [Forest.below_iff]
    simp [twoItems, Forest.add]

theorem inHand_spareItem : InHand spareItem 3 0 := by
  refine ⟨⟨by simp [spareItem, Forest.Node, Forest.add], fun p => ?_⟩, ?_⟩
  · by_cases hp : p = 0 <;> by_cases hp' : p = 3 <;>
      simp [spareItem, oneItem, named, twoItems, Forest.add, Forest.setLabel, Forest.setKids,
        Forest.empty, hp, hp']
  · rw [Forest.below_iff]
    simp [spareItem, Forest.add]

/-- The item has no name of its own, and the next request is not refused. -/
theorem session_spareItem : ∃ m m' : Memory ℤ, Session .inTurn m oneItem ∧
    Session .inTurn m' spareItem ∧ (m'.item 3).string = none ∧ ¬ m'.Refuses .inTurn 1 := by
  have h₁ := Session.call (ν := ℤ) (A := .inTurn) (c := .create (.item .object 0))
    (r := .pointer (some 0)) .start trivial rfl
  have h₂ := h₁.call (c := .create (.item .null 0)) (r := .pointer (some 1)) trivial rfl
  have h₃ := h₂.call (c := .addItemToObject (some 0) (some [97]) (some 1) false)
    (r := .bool true) (fun _ => ⟨⟨_, rfl, rfl⟩, inHand_twoItems⟩) rfl
  have h₄ := h₃.call (c := .create (.item .null 0)) (r := .pointer (some 3)) trivial rfl
  exact ⟨_, _, h₃, h₄, rfl, fun hrefuses => hrefuses 4 rfl⟩

theorem session_oneItem : ∃ m : Memory ℤ, Session .inTurn m oneItem := by
  obtain ⟨m, -, h, -⟩ := session_spareItem
  exact ⟨m, h⟩

/-! ### What holds in every session -/

/-- **Legal calls never fault**, in any order and whatever the allocator refuses: each of them
gives the answer that it should, without an item or a name only where a request is refused, and
memory holds the items that they have made and no other. -/
theorem session_serves (h : Session A m F) {c : Call ν} (hlegal : Legal F c) :
    ∃ m' r, perform A m c = some (m', r) ∧ Replies F (m.Refuses A) c r ∧
      Represents m' (after F c r) :=
  h.represents.serves hlegal

theorem session_serves_delete : ∃ (m m' : Memory ℤ) (r : Reply), Session .inTurn m oneItem ∧
    perform .inTurn m (.delete (some 0)) = some (m', r) ∧
      Replies oneItem (m.Refuses .inTurn) (.delete (some 0)) r ∧
      Represents m' (after oneItem (.delete (some 0)) r) := by
  obtain ⟨m, h⟩ := session_oneItem
  obtain ⟨m', r, hserves⟩ := session_serves h (c := .delete (some 0)) root_oneItem
  exact ⟨m, m', r, h, hserves⟩

/-- **Deletion frees exactly the tree**: its items and their texts, once, and nothing else
changes. -/
theorem session_delete (h : Session A m F) {x : Loc} (hx : F.Root x) :
    ∃ m', cJSONDelete m (some x) = some m' ∧
      (∀ l, m'.live l = true ↔ m.live l = true ∧ ¬ F.Below x l) ∧
      (∀ t text, m'.texts t = some text ↔
        m.texts t = some text ∧ ∀ l, F.Below x l → t ∉ (m.item l).owned) ∧
      m'.item = m.item ∧ m'.next = m.next ∧ m'.prev = m.prev ∧ m'.child = m.child := by
  have hm := h.represents
  refine ⟨_, hm.delete_eq hx, fun l => without_live_iff, fun t text => ?_, rfl, rfl, rfl, rfl⟩
  have hlive : ∀ l, F.Below x l → m.live l = true := fun l hl =>
    hm.node_iff.mp (hm.proper.node_of_below hx.1 hl)
  by_cases hgone : ∃ l ∈ {y | F.Below x y}, m.live l = true ∧ t ∈ (m.item l).owned
  · simp only [Memory.without, if_pos hgone]
    obtain ⟨l, hl, -, hown⟩ := hgone
    simp only [reduceCtorEq, false_iff, not_and, not_forall]
    exact fun _ => ⟨l, hl, not_not.mpr hown⟩
  · simp only [Memory.without, if_neg hgone]
    refine (and_iff_left fun l hl hown => ?_).symm
    exact hgone ⟨l, hl, hlive l hl, hown⟩

theorem session_delete_oneItem : ∃ m m' : Memory ℤ, Session .inTurn m oneItem ∧
    cJSONDelete m (some 0) = some m' ∧ m.live 1 = true ∧ m'.live 1 = false := by
  obtain ⟨m, h⟩ := session_oneItem
  obtain ⟨m', hdelete, hlive, -⟩ := session_delete h root_oneItem
  have hbelow : oneItem.Below 0 1 := Forest.below_of_mem_kids (by decide)
  refine ⟨m, m', h, hdelete, ?_, ?_⟩
  · refine h.represents.node_iff.mp ?_
    simp [oneItem, named, twoItems, Forest.Node, Forest.setKids, Forest.setLabel, Forest.add]
  · rw [← Bool.not_eq_true, hlive]
    exact fun hkept => hkept.2 hbelow

/-- **Nothing is lost**: once every tree in hand was deleted, no block is in use. -/
theorem session_leaves_nothing (h : Session A m F) (hroots : ∀ x, ¬ F.Root x) (l : Loc) :
    m.used l = false := by
  have hm := h.represents
  obtain ⟨s, hs, -⟩ := hm.bounded
  have hnode : ∀ x, ¬ F.Node x := by
    intro x hx
    obtain ⟨y, hy, -⟩ := hm.proper.exists_root (fun z hz => hs z (hm.node_iff.mp hz)) hx
    exact hroots y hy
  by_contra hused
  rw [Bool.not_eq_false, hm.used_iff] at hused
  rcases hused with hl | ⟨x, hx, -⟩
  · exact hnode l hl
  · exact hnode x hx

theorem session_leaves_nothing_oneItem : ∃ m m' : Memory ℤ, Session .inTurn m oneItem ∧
    perform .inTurn m (.delete (some 0)) = some (m', .void) ∧ ∀ l, m'.used l = false := by
  obtain ⟨m, h⟩ := session_oneItem
  obtain ⟨m', r, hperform, rfl, -⟩ := h.represents.serves (A := .inTurn) (c := .delete (some 0))
    root_oneItem
  have hdeleted := Session.call h (c := .delete (some 0)) root_oneItem hperform
  refine ⟨m, m', h, hperform, session_leaves_nothing hdeleted fun x hx => ?_⟩
  obtain ⟨hnode, hbelow⟩ := Forest.node_prune_iff.mp hx.1
  have hx : x = 0 ∨ x = 1 := by
    by_contra hne
    simp only [not_or] at hne
    refine hnode ?_
    simp [oneItem, named, twoItems, Forest.setKids, Forest.setLabel, Forest.add, Forest.empty, hne]
  rcases hx with rfl | rfl
  · exact hbelow (.refl 0)
  · exact hbelow (Forest.below_of_mem_kids (by decide))

/-- A new item that is `NULL` is used as one exactly when there is a child to put it before. -/
theorem session_insert_null (h : Session A m F) {p : Loc} (hp : Container F p) (which : ℤ) :
    cJSONInsertItemInArray m (some p) which none = none ↔
      0 ≤ which ∧ which < (F.kids p).length := by
  obtain ⟨hp, href⟩ := h.represents.container_iff.mp hp
  by_cases hwhich : which < 0
  · simp [cJSONInsertItemInArray, hwhich]
  · have hitem := h.represents.getArrayItem_eq hp href which.toNat
    cases hx : (F.kids p)[which.toNat]? with
    | none =>
        have hle := List.getElem?_eq_none_iff.mp hx
        simp [cJSONInsertItemInArray, hwhich, hitem, hx, addItemToArray]
        omega
    | some x =>
        obtain ⟨hlt, -⟩ := List.getElem?_eq_some_iff.mp hx
        simp [cJSONInsertItemInArray, hwhich, hitem, hx, Memory.setNext, Memory.deref]
        omega

theorem session_insert_null_oneItem : ∃ m : Memory ℤ, Session .inTurn m oneItem ∧
    cJSONInsertItemInArray m (some 0) 0 none = none := by
  obtain ⟨m, h⟩ := session_oneItem
  exact ⟨m, h, (session_insert_null h ⟨_, rfl, rfl⟩ 0).mpr (by decide)⟩

/-- **Reading is reading the forest**. -/
theorem session_reads (h : Session A m F) {p : Loc} (hp : Container F p) :
    (∀ index : ℤ, cJSONGetArrayItem m (some p) index =
      some (if index < 0 then none else (F.kids p)[index.toNat]?)) ∧
    cJSONGetArraySize m (some p) = some (toInt (F.kids p).length) ∧
    ∀ (name : Bytes) (caseSensitive : Bool),
      getObjectItem m (some p) (some (.constant name)) caseSensitive =
        some (found F name caseSensitive (F.kids p)) := by
  have hm := h.represents
  refine ⟨fun index => ?_, hm.cJSONGetArraySize_eq hp, hm.getObjectItem_eq hp⟩
  obtain ⟨hp, href⟩ := hm.container_iff.mp hp
  rw [cJSONGetArrayItem, hm.getArrayItem_eq hp href]
  split <;> rfl

theorem session_reads_oneItem : ∃ m : Memory ℤ, Session .inTurn m oneItem ∧
    cJSONGetArrayItem m (some 0) 0 = some (some 1) ∧ cJSONGetArraySize m (some 0) = some 1 ∧
    getObjectItem m (some 0) (some (.constant [65])) false = some (some 1) ∧
    getObjectItem m (some 0) (some (.constant [65])) true = some none := by
  obtain ⟨m, h⟩ := session_oneItem
  obtain ⟨hitem, hsize, hfound⟩ := session_reads h (p := 0) ⟨_, rfl, rfl⟩
  exact ⟨m, h, (hitem 0).trans (by decide), hsize.trans (by decide),
    (hfound [65] false).trans (by decide), (hfound [65] true).trans (by decide)⟩

/-- **A replacement is renamed whether or not it finds a place**, and it takes the place without
a name where the allocator refuses the memory for one. -/
theorem session_replace_named (h : Session A m F) {p y : Loc} (hp : Container F p)
    (hy : InHand F y p) (string : Bytes) (caseSensitive : Bool) :
    ∃ m₁ m' name, freeTextIf (!(m.item y).stringIsConst) m (m.item y).string = some m₁ ∧
      Copied A m₁ string name ∧
      replaceItemInObject A m (some p) (some (.constant string)) (some y) caseSensitive =
        some (m', (found F string caseSensitive (F.kids p)).isSome) ∧
      Represents m' ((found F string caseSensitive (F.kids p)).elim (named F y name false)
        fun x => replaced (named F y name false) p x y) :=
  h.represents.replaceInObject hp hy string caseSensitive

theorem session_replace_named_spareItem : ∃ m m' : Memory ℤ, Session .inTurn m spareItem ∧
    replaceItemInObject .inTurn m (some 0) (some (.constant [97])) (some 3) true =
      some (m', true) ∧
    Represents m' (replaced (named spareItem 3 (some [97]) false) 0 1 3) := by
  obtain ⟨-, m, -, h, hstring, hrefuses⟩ := session_spareItem
  obtain ⟨m₁, m', name, hfree, hcopied, hreplace, h'⟩ :=
    session_replace_named h ⟨_, rfl, rfl⟩ inHand_spareItem [97] true
  rw [hstring, freeTextIf, Option.some.injEq] at hfree
  subst hfree
  obtain ⟨rfl, -⟩ | ⟨-, hrefused⟩ := hcopied
  · exact ⟨m, m', h, hreplace, h'⟩
  · exact absurd hrefused hrefuses

end Session

end WebrtcEchoes.Gstreamer.CJson
