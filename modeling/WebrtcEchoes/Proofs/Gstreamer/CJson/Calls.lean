/-
What each call does, by the pointers that it is given.

`Serves` is about one call: it has a result, the answer is the one that the owner relies on,
and memory then holds what the call makes of the forest.
-/
import WebrtcEchoes.Gstreamer.ItemCalls
import WebrtcEchoes.Proofs.Gstreamer.CJson.Lookup
import WebrtcEchoes.Proofs.Gstreamer.CJson.Name

namespace WebrtcEchoes.Gstreamer.CJson

open Handler Memory

variable {ν : Type} {A : Allocator} {m : Memory ν} {F : Forest Loc (Label ν)}

/-- An item stays what it is next to a new one, and the new one is a tree of its own. -/
theorem Represents.container_add (h : Represents m F) {p l : Loc} (hp : Container F p)
    (hnode : ¬ F.Node l) (d : Label ν) :
    Container (F.add l d) p ∧ ¬ (F.add l d).Below l p := by
  obtain ⟨d', hlabel, href⟩ := hp
  have hpl : p ≠ l := by
    rintro rfl
    exact hnode (by simp [Forest.Node, hlabel])
  refine ⟨⟨d', by simpa [Forest.add, hpl] using hlabel, href⟩, ?_⟩
  rw [Forest.below_iff, h.proper.kids_add hnode, h.proper.kids_eq_nil hnode]
  rintro (he | ⟨k, hk, -⟩)
  · exact hpl he.symm
  · simp at hk

/-- A root takes the place of a child, and the child is deleted. -/
theorem Represents.replace (h : Represents m F) {p x y : Loc} (hx : x ∈ F.kids p) (hy : F.Root y)
    (hyp : ¬ F.Below y p) :
    ∃ m', cJSONReplaceItemViaPointer m (some p) (some x) (some y) = some (m', true) ∧
      Represents m' (replaced F p x y) := by
  have hyx : y ≠ x := fun he => hy.2 p (he ▸ hx)
  have hgone : x ∉ (F.kids p).replace x y := by
    obtain ⟨l, r, hkids⟩ := List.append_of_mem hx
    have hnodup := h.proper.nodup p
    rw [hkids] at hnodup ⊢
    have hxl : x ∉ l := by grind
    rw [List.replace_append_right hxl, List.replace_cons_self]
    grind
  obtain ⟨m₁, hexchange, h₁⟩ := h.exchange hx hy hyp
  obtain ⟨m₂, hdelete, h₂⟩ := h₁.delete (h.proper.root_setKids hx hgone)
  refine ⟨m₂, by rw [hexchange, hdelete, Option.bind_some], ?_⟩
  rwa [replaced, if_neg hyx]

section Calls

variable [Zero ν]

/-- A call succeeds, and its answer and what it leaves are as they should be. -/
def Serves (A : Allocator) (m : Memory ν) (F : Forest Loc (Label ν)) (c : Call ν) : Prop :=
  ∃ m' r, perform A m c = some (m', r) ∧ Replies F (m.Refuses A) c r ∧ Represents m' (after F c r)

namespace Represents

/-- An item is created, or nothing is. -/
theorem run (h : Represents m F) (what : Creation ν) :
    (∃ m', what.run A m = some (m', none) ∧ m.Refuses A what.requests ∧ Represents m' F) ∨
      ∃ m' l, what.run A m = some (m', some l) ∧ Granted A m m' what.requests ∧ ¬ F.Node l ∧
        Represents m' (F.add l what.label) := by
  cases what with
  | item kind x => exact h.createItem kind x
  | text kind string => exact h.createText kind string

theorem serves_create (h : Represents m F) (what : Creation ν) : Serves A m F (.create what) := by
  rcases h.run (A := A) what with
    ⟨m', hrun, hrefuses, h'⟩ | ⟨m', l, hrun, hgranted, hnode, h'⟩
  · refine ⟨m', .pointer none, by simp [perform, hrun], ⟨none, rfl, ?_, by simp⟩, h'⟩
    exact iff_of_true rfl hrefuses
  · refine ⟨m', .pointer (some l), by simp [perform, hrun],
      ⟨some l, rfl, ?_, by simpa using hnode⟩, h'⟩
    exact iff_of_false (by simp) hgranted.not_refuses

theorem serves_addItemToArray (h : Represents m F) {array item : Option Loc}
    (hlegal : Legal F (.addItemToArray array item)) :
    Serves A m F (.addItemToArray array item) := by
  rcases array with _ | p
  · exact ⟨m, .bool false, by simp [perform, addItemToArray], by simp [Replies], h⟩
  rcases item with _ | x
  · exact ⟨m, .bool false, by simp [perform, addItemToArray], by simp [Replies], h⟩
  by_cases hpx : p = x
  · exact ⟨m, .bool false, by simp [perform, addItemToArray, hpx], by simp [Replies, hpx], h⟩
  · obtain ⟨hp, hx⟩ := hlegal hpx
    obtain ⟨hplive, href⟩ := h.container_iff.mp hp
    obtain ⟨m', hadd, h'⟩ := h.addToArray hplive href hx.root hx.apart
    exact ⟨m', .bool true, by simp [perform, hadd], by simp [Replies, hpx], h'⟩

theorem serves_addItemToObject (h : Represents m F) {object item : Option Loc}
    {string : Option Bytes} {constantKey : Bool}
    (hlegal : Legal F (.addItemToObject object string item constantKey)) :
    Serves A m F (.addItemToObject object string item constantKey) := by
  rcases object with _ | p
  · exact ⟨m, .bool false, by simp [perform, addItemToObject], by simp [Replies], h⟩
  rcases string with _ | text
  · exact ⟨m, .bool false, by simp [perform, addItemToObject], by simp [Replies], h⟩
  rcases item with _ | x
  · exact ⟨m, .bool false, by simp [perform, addItemToObject], by simp [Replies], h⟩
  by_cases hpx : p = x
  · exact ⟨m, .bool false, by simp [perform, addItemToObject, hpx], by simp [Replies, hpx], h⟩
  · obtain ⟨hp, hx⟩ := hlegal hpx
    have hlabel := h.label_eq (h.node_iff.mp hx.root.1)
    rcases h.addToObject (A := A) hp hx.root hx.apart text constantKey with
      ⟨m', hadd, hgranted, h'⟩ | ⟨rfl, hrefuses, m', hadd, h'⟩
    · refine ⟨m', .bool true, by simp [perform, hadd], by simpa [Replies, hpx] using hgranted, ?_⟩
      simpa [after, named, hlabel] using h'
    · exact ⟨m', .bool false, by simp [perform, hadd], by simp [Replies, hrefuses], h'⟩

/-- A new item that cannot be added goes again. -/
theorem serves_addNewToObject (h : Represents m F) {what : Creation ν} {object : Option Loc}
    {name : Option Bytes} (hlegal : Legal F (.addNewToObject what object name)) :
    Serves A m F (.addNewToObject what object name) := by
  rcases h.run (A := A) what with
    ⟨m₁, hrun, hrefuses, h₁⟩ | ⟨m₁, l, hrun, hgranted, hnode, h₁⟩
  · refine ⟨m₁, .pointer none, ?_, ⟨none, rfl, ?_, by simp⟩, by simpa [after] using h₁⟩
    · cases hasked : m₁.asked <;>
        simp [perform, addNewToObject, hrun, addItemToObject, cJSONDelete, deleteFrom]
    · exact iff_of_true rfl (.inr (.inr hrefuses.succ))
  · have hroot := h.proper.root_add hnode what.label
    obtain ⟨m₂, hdelete, h₂⟩ := h₁.delete hroot
    rw [h.proper.prune_add hnode] at h₂
    rcases object with _ | p
    · refine ⟨m₂, .pointer none, ?_, ⟨none, rfl, by simp, by simp⟩, h₂⟩
      simp [perform, addNewToObject, hrun, addItemToObject, hdelete]
    rcases name with _ | name
    · refine ⟨m₂, .pointer none, ?_, ⟨none, rfl, by simp, by simp⟩, h₂⟩
      simp [perform, addNewToObject, hrun, addItemToObject, hdelete]
    obtain ⟨hp, hapart⟩ := h.container_add hlegal hnode what.label
    rcases h₁.addToObject (A := A) hp hroot hapart name false with
      ⟨m₃, hadd, hnamed, h₃⟩ | ⟨-, hrefuses, m₃, hadd, h₃⟩
    · have hall : ¬ m.Refuses A (what.requests + 1) := by
        rw [Nat.add_comm, hgranted 1]
        exact hnamed rfl
      refine ⟨m₃, .pointer (some l), by simp [perform, addNewToObject, hrun, hadd],
        ⟨some l, rfl, by simpa using hall, by simpa using hnode⟩, ?_⟩
      have hlabel : m₁.label l = what.label := by
        have := h₁.label_eq (h₁.node_iff.mp hroot.1)
        simpa [Forest.add, eq_comm] using this
      have hconst : what.label.stringIsConst = false := by cases what <;> rfl
      rw [hlabel, Forest.setLabel_add, h.proper.kids_add hnode, ← hconst] at h₃
      exact h₃
    · obtain ⟨m₄, hdelete, h₄⟩ := h₃.delete hroot
      rw [h.proper.prune_add hnode] at h₄
      refine ⟨m₄, .pointer none, ?_, ⟨none, rfl, ?_, by simp⟩, h₄⟩
      · simp [perform, addNewToObject, hrun, hadd, hdelete]
      · rw [Nat.add_comm, hgranted 1]
        exact iff_of_true rfl (.inr (.inr hrefuses))

theorem serves_detachItemViaPointer (h : Represents m F) {parent item : Option Loc}
    (hlegal : Legal F (.detachItemViaPointer parent item)) :
    Serves A m F (.detachItemViaPointer parent item) := by
  rcases parent with _ | p
  · exact ⟨m, .pointer none, by simp [perform, cJSONDetachItemViaPointer], by simp [Replies], h⟩
  rcases item with _ | x
  · exact ⟨m, .pointer none, by simp [perform, cJSONDetachItemViaPointer], by simp [Replies], h⟩
  obtain ⟨m', hdetach, h'⟩ := h.detach hlegal
  exact ⟨m', .pointer (some x), by simp [perform, hdetach], by simp [Replies], h'⟩

theorem serves_detachItemFromArray (h : Represents m F) {array : Option Loc} {which : ℤ}
    (hlegal : Legal F (.detachItemFromArray array which)) :
    Serves A m F (.detachItemFromArray array which) := by
  by_cases hwhich : which < 0
  · refine ⟨m, .pointer none, ?_, by simp [Replies, hwhich], ?_⟩
    · simp [perform, cJSONDetachItemFromArray, hwhich]
    · cases array <;> exact h
  rcases array with _ | p
  · refine ⟨m, .pointer none, ?_, by simp [Replies], h⟩
    simp [perform, cJSONDetachItemFromArray, hwhich, getArrayItem, cJSONDetachItemViaPointer]
  obtain ⟨hp, href⟩ := h.container_iff.mp (hlegal (Int.not_lt.mp hwhich))
  have hitem := h.getArrayItem_eq hp href which.toNat
  cases hx : (F.kids p)[which.toNat]? with
  | none =>
      refine ⟨m, .pointer none, ?_, by simp [Replies, hx], h⟩
      simp [perform, cJSONDetachItemFromArray, hwhich, hitem, hx, cJSONDetachItemViaPointer]
  | some x =>
      obtain ⟨m', hdetach, h'⟩ := h.detach (List.mem_of_getElem? hx)
      refine ⟨m', .pointer (some x), ?_, by simp [Replies, hx, hwhich], h'⟩
      simp [perform, cJSONDetachItemFromArray, hwhich, hitem, hx, hdetach]

theorem serves_detachItemFromObject (h : Represents m F) {object : Option Loc}
    {string : Option Bytes} {caseSensitive : Bool}
    (hlegal : Legal F (.detachItemFromObject object string caseSensitive)) :
    Serves A m F (.detachItemFromObject object string caseSensitive) := by
  rcases object with _ | p
  · refine ⟨m, .pointer none, ?_, by simp [Replies], h⟩
    simp [perform, detachItemFromObject, getObjectItem, cJSONDetachItemViaPointer]
  rcases string with _ | name
  · refine ⟨m, .pointer none, ?_, by simp [Replies], h⟩
    simp [perform, detachItemFromObject, getObjectItem, cJSONDetachItemViaPointer]
  have hitem := h.getObjectItem_eq hlegal name caseSensitive
  cases hx : found F name caseSensitive (F.kids p) with
  | none =>
      refine ⟨m, .pointer none, ?_, by simp [Replies, hx], h⟩
      simp [perform, detachItemFromObject, hitem, hx, cJSONDetachItemViaPointer]
  | some x =>
      obtain ⟨m', hdetach, h'⟩ := h.detach (mem_of_found hx)
      refine ⟨m', .pointer (some x), ?_, by simp [Replies, hx], h'⟩
      simp [perform, detachItemFromObject, hitem, hx, hdetach]

theorem serves_insertItemInArray (h : Represents m F) {array newitem : Option Loc} {which : ℤ}
    (hlegal : Legal F (.insertItemInArray array which newitem)) :
    Serves A m F (.insertItemInArray array which newitem) := by
  by_cases hwhich : which < 0
  · refine ⟨m, .bool false, ?_, by simp [Replies, hwhich], ?_⟩
    · simp [perform, cJSONInsertItemInArray, hwhich]
    · cases array <;> cases newitem <;> exact h
  have hnonneg : 0 ≤ which := Int.not_lt.mp hwhich
  rcases array with _ | p
  · refine ⟨m, .bool false, ?_, by simp [Replies], h⟩
    simp [perform, cJSONInsertItemInArray, hwhich, getArrayItem, addItemToArray]
  rcases newitem with _ | x
  · obtain ⟨hp, -, hlength⟩ := hlegal hnonneg
    obtain ⟨hp, href⟩ := h.container_iff.mp hp
    have hitem := h.getArrayItem_eq hp href which.toNat
    rw [List.getElem?_eq_none (hlength rfl)] at hitem
    refine ⟨m, .bool false, ?_, by simp [Replies], h⟩
    simp [perform, cJSONInsertItemInArray, hwhich, hitem, addItemToArray]
  obtain ⟨hp, hx, -⟩ := hlegal hnonneg
  obtain ⟨hroot, hapart⟩ := hx x rfl
  obtain ⟨hp, href⟩ := h.container_iff.mp hp
  by_cases hlt : which.toNat < (F.kids p).length
  · obtain ⟨m', hinsert, h'⟩ := h.insertInArray hp href hroot hapart hlt
    rw [Int.toNat_of_nonneg hnonneg] at hinsert
    refine ⟨m', .bool true, by simp [perform, hinsert], by simp [Replies, hnonneg], ?_⟩
    simpa [after, Nat.min_eq_left hlt.le] using h'
  · have hle : (F.kids p).length ≤ which.toNat := Nat.not_lt.mp hlt
    have hitem := h.getArrayItem_eq hp href which.toNat
    rw [List.getElem?_eq_none hle] at hitem
    obtain ⟨m', hadd, h'⟩ := h.addToArray hp href hroot hapart
    refine ⟨m', .bool true, ?_, by simp [Replies, hnonneg], ?_⟩
    · simp [perform, cJSONInsertItemInArray, hwhich, hitem, hadd]
    · simpa [after, Nat.min_eq_right hle] using h'

theorem serves_replaceItemViaPointer (h : Represents m F) {parent item replacement : Option Loc}
    (hlegal : Legal F (.replaceItemViaPointer parent item replacement)) :
    Serves A m F (.replaceItemViaPointer parent item replacement) := by
  rcases parent with _ | p
  · exact ⟨m, .bool false, by simp [perform, cJSONReplaceItemViaPointer], by simp [Replies], h⟩
  rcases item with _ | x
  · exact ⟨m, .bool false, by simp [perform, cJSONReplaceItemViaPointer], by simp [Replies], h⟩
  rcases replacement with _ | y
  · exact ⟨m, .bool false, by simp [perform, cJSONReplaceItemViaPointer], by simp [Replies], h⟩
  by_cases hyx : y = x
  · refine ⟨m, .bool true, by simp [perform, cJSONReplaceItemViaPointer, hyx],
      by simp [Replies], ?_⟩
    simpa [after, replaced, hyx] using h
  · obtain ⟨hx, hy⟩ := hlegal hyx
    obtain ⟨m', hreplace, h'⟩ := h.replace hx hy.root hy.apart
    exact ⟨m', .bool true, by simp [perform, hreplace], by simp [Replies], h'⟩

theorem serves_replaceItemInArray (h : Represents m F) {array newitem : Option Loc} {which : ℤ}
    (hlegal : Legal F (.replaceItemInArray array which newitem)) :
    Serves A m F (.replaceItemInArray array which newitem) := by
  by_cases hwhich : which < 0
  · refine ⟨m, .bool false, ?_, by simp [Replies, hwhich], ?_⟩
    · simp [perform, cJSONReplaceItemInArray, hwhich]
    · cases array <;> cases newitem <;> exact h
  have hnonneg : 0 ≤ which := Int.not_lt.mp hwhich
  rcases array with _ | p
  · refine ⟨m, .bool false, ?_, by simp [Replies], h⟩
    simp [perform, cJSONReplaceItemInArray, hwhich, getArrayItem, cJSONReplaceItemViaPointer]
  obtain ⟨hp, hy⟩ := hlegal hnonneg
  obtain ⟨hp, href⟩ := h.container_iff.mp hp
  have hitem := h.getArrayItem_eq hp href which.toNat
  rcases newitem with _ | y
  · refine ⟨m, .bool false, ?_, by simp [Replies], h⟩
    simp [perform, cJSONReplaceItemInArray, hwhich, hitem, cJSONReplaceItemViaPointer]
  cases hx : (F.kids p)[which.toNat]? with
  | none =>
      refine ⟨m, .bool false, ?_, by simp [Replies, hx], h⟩
      simp [perform, cJSONReplaceItemInArray, hwhich, hitem, hx, cJSONReplaceItemViaPointer]
  | some x =>
      obtain ⟨hroot, hapart⟩ := hy y rfl
      obtain ⟨m', hreplace, h'⟩ := h.replace (List.mem_of_getElem? hx) hroot hapart
      refine ⟨m', .bool true, ?_, by simp [Replies, hx, hnonneg], ?_⟩
      · simp [perform, cJSONReplaceItemInArray, hwhich, hitem, hx, hreplace]
      · simpa [after, hx] using h'

theorem serves_delete (h : Represents m F) {item : Option Loc} (hlegal : Legal F (.delete item)) :
    Serves A m F (.delete item) := by
  rcases item with _ | x
  · refine ⟨m, .void, ?_, rfl, h⟩
    cases hasked : m.asked <;> simp [perform, cJSONDelete, deleteFrom]
  obtain ⟨m', hdelete, h'⟩ := h.delete hlegal
  exact ⟨m', .void, by simp [perform, hdelete], rfl, h'⟩

/-- One step of a session. -/
theorem serves (h : Represents m F) {c : Call ν} (hlegal : Legal F c) : Serves A m F c := by
  cases c with
  | create what => exact h.serves_create what
  | addItemToArray array item => exact h.serves_addItemToArray hlegal
  | addItemToObject object string item constantKey => exact h.serves_addItemToObject hlegal
  | addNewToObject what object name => exact h.serves_addNewToObject hlegal
  | detachItemViaPointer parent item => exact h.serves_detachItemViaPointer hlegal
  | detachItemFromArray array which => exact h.serves_detachItemFromArray hlegal
  | detachItemFromObject object string caseSensitive =>
      exact h.serves_detachItemFromObject hlegal
  | insertItemInArray array which newitem => exact h.serves_insertItemInArray hlegal
  | replaceItemViaPointer parent item replacement =>
      exact h.serves_replaceItemViaPointer hlegal
  | replaceItemInArray array which newitem => exact h.serves_replaceItemInArray hlegal
  | delete item => exact h.serves_delete hlegal

end Represents

end Calls

end WebrtcEchoes.Gstreamer.CJson
