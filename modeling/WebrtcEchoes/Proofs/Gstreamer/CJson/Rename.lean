/-
An item that takes the place of a member, under the member's name.

`replace_item_in_object` frees the name that the item has, copies the new one and does not look
whether there was memory for it.  So the order is another than where an item is added, and the
item may end up without a name.
-/
import WebrtcEchoes.Proofs.Gstreamer.CJson.Calls

namespace WebrtcEchoes.Gstreamer.CJson

open Handler Memory

variable {ν : Type} {A : Allocator} {m : Memory ν} {F : Forest Loc (Label ν)}

theorem found_congr {F' : Forest Loc (Label ν)} {name : Bytes} {caseSensitive : Bool}
    {xs : List Loc} (h : ∀ x ∈ xs, nameOf F' x = nameOf F x) :
    found F' name caseSensitive xs = found F name caseSensitive xs := by
  induction xs with
  | nil => cases caseSensitive <;> rfl
  | cons x xs ih =>
      have hx := h x (by simp)
      have ih := ih fun y hy => h y (by simp [hy])
      cases caseSensitive with
      | false =>
          simp only [found, searched, Bool.false_eq_true, if_false, List.find?_cons, hx] at ih ⊢
          rw [ih]
      | true =>
          simp only [found, searched, if_true, List.takeWhile_cons, hx] at ih ⊢
          split
          · simp only [List.find?_cons, hx, ih]
          · rfl

/-- The name of a replacement: a copy, unless there is no memory for it. -/
def Copied (A : Allocator) (m : Memory ν) (string : Bytes) (name : Option Bytes) : Prop :=
  name = some string ∧ ¬ m.Refuses A 1 ∨ name = none ∧ m.Refuses A 1

/-- The first half of `replace_item_in_object`: the old name is freed, and the new one copied. -/
def renameFirst (A : Allocator) (m : Memory ν) (y : Loc) (string : Bytes) : Option (Memory ν) :=
  (freeTextIf (!(m.item y).stringIsConst) m (m.item y).string).bind fun m₁ =>
    (strdup A m₁ (some (.constant string))).bind fun r =>
      r.1.setItem (some y) { r.1.item y with string := r.2, stringIsConst := false }

/-- The second half looks for the member. -/
theorem replaceItemInObject_eq {y : Loc} (hy : m.live y = true) (p : Loc) (string : Bytes)
    (caseSensitive : Bool) :
    replaceItemInObject A m (some p) (some (.constant string)) (some y) caseSensitive =
      (renameFirst A m y string).bind fun m =>
        (getObjectItem m (some p) (some (.constant string)) caseSensitive).bind fun item =>
          cJSONReplaceItemViaPointer m (some p) item (some y) := by
  simp [replaceItemInObject, renameFirst, deref_live hy, Option.bind_assoc]

namespace Represents

theorem named_eq (h : Represents m F) {y : Loc} (hy : m.live y = true) (name : Option Bytes)
    (constantKey : Bool) :
    named F y name constantKey =
      F.setLabel y { m.label y with string := name, stringIsConst := constantKey } := by
  rw [named, h.label_eq hy]

/-- The item between the two steps is as one without a name. -/
theorem renameFirst_eq (h : Represents m F) {y : Loc} (hy : m.live y = true) (string : Bytes) :
    ∃ m₁ m' name, freeTextIf (!(m.item y).stringIsConst) m (m.item y).string = some m₁ ∧
      Copied A m₁ string name ∧ renameFirst A m y string = some m' ∧
      Represents m' (named F y name false) := by
  obtain ⟨m₀, hrename, h₀⟩ := h.rename hy (Nat.le_refl _) (.missing m)
  obtain ⟨m₁, hfree, hset⟩ := Option.bind_eq_some_iff.mp hrename
  rw [setItem_some, Option.ite_none_right_eq_some] at hset
  obtain ⟨hlive, hm₀⟩ := hset
  rw [Option.some.injEq] at hm₀
  have hfree : freeTextIf (!(m.item y).stringIsConst) m (m.item y).string = some m₁ := hfree
  refine ⟨m₁, ?_⟩
  rw [renameFirst, hfree, Option.bind_some]
  rcases strdup_cases A (textAt_constant (m := m₁) string) with
    ⟨hdup, hrefuses⟩ | ⟨t, hdup, hoffer, htext⟩
  · refine ⟨{ m₀ with asked := m₀.asked + 1 }, none, rfl, .inr ⟨rfl, hrefuses⟩, ?_, ?_⟩
    · subst hm₀
      simp [hdup, setItem_some, hlive]
    · rw [h.named_eq hy]
      exact h₀.ask (Nat.le_add_right _ 1)
  · have hlive₀ : m₀.live y = true := by simpa [← hm₀] using hlive
    have htext₀ : m₀.texts t = none := by simpa [← hm₀] using htext
    have hkept : m₀.label y = { m.label y with string := none, stringIsConst := false } := by
      have := h₀.label_eq hlive₀
      simpa [Forest.setLabel, eq_comm] using this
    obtain ⟨m₂, hrename₂, h₂⟩ := h₀.rename hlive₀ (Nat.le_add_right _ 1) (.copied htext₀ string)
    refine ⟨m₂, some string, rfl, .inl ⟨rfl, by simp [refuses_one, hoffer]⟩, ?_, ?_⟩
    · rw [← hrename₂]
      subst hm₀
      simp [hdup, setItem_some, hlive, freeTextIf]
    · rw [h.named_eq hy]
      rw [hkept] at h₂
      simpa [Forest.setLabel] using h₂

/-- The replacement is named in any case, and a member of that name makes way for it. -/
theorem replaceInObject (h : Represents m F) {p y : Loc} (hp : Container F p) (hy : InHand F y p)
    (string : Bytes) (caseSensitive : Bool) :
    ∃ m₁ m' name, freeTextIf (!(m.item y).stringIsConst) m (m.item y).string = some m₁ ∧
      Copied A m₁ string name ∧
      replaceItemInObject A m (some p) (some (.constant string)) (some y) caseSensitive =
        some (m', (found F string caseSensitive (F.kids p)).isSome) ∧
      Represents m' ((found F string caseSensitive (F.kids p)).elim (named F y name false)
        fun x => replaced (named F y name false) p x y) := by
  have hylive := h.node_iff.mp hy.root.1
  have hne : p ≠ y := by
    rintro rfl
    exact hy.apart (.refl p)
  obtain ⟨m₀, m₁, name, hfree, hcopied, hrename, h₁⟩ := h.renameFirst_eq (A := A) hylive string
  refine ⟨m₀, ?_⟩
  rw [replaceItemInObject_eq hylive, hrename, Option.bind_some]
  -- a name changes neither the trees nor what the others are called
  have hnamed := h.named_eq hylive name false
  have hkids : (named F y name false).kids = F.kids := by
    rw [hnamed]
    rfl
  have hp₁ : Container (named F y name false) p := by
    rw [hnamed]
    simpa [Container, Forest.setLabel, hne] using hp
  have hy₁ : InHand (named F y name false) y p := by
    rw [hnamed]
    exact ⟨⟨(Forest.node_setLabel_iff hy.root.1).mpr hy.root.1, hy.root.2⟩, hy.apart⟩
  have hfound : found (named F y name false) string caseSensitive (F.kids p) =
      found F string caseSensitive (F.kids p) := by
    refine found_congr fun x hx => ?_
    have hxy : x ≠ y := fun he => hy.root.2 p (he ▸ hx)
    rw [hnamed]
    simp [nameOf, Forest.setLabel, hxy]
  rw [h₁.getObjectItem_eq hp₁, hkids, hfound, Option.bind_some]
  cases hx : found F string caseSensitive (F.kids p) with
  | none => exact ⟨m₁, name, hfree, hcopied, by simp [cJSONReplaceItemViaPointer], h₁⟩
  | some x =>
      have hmem : x ∈ (named F y name false).kids p := hkids ▸ mem_of_found hx
      obtain ⟨m₂, hreplace, h₂⟩ := h₁.replace hmem hy₁.root hy₁.apart
      exact ⟨m₂, name, hfree, hcopied, hreplace, h₂⟩

end Represents

end WebrtcEchoes.Gstreamer.CJson
