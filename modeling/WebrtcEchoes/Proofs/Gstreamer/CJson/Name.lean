/-
Items that are given a name.

An item is added to an object under a name: a copy of it, or text of the caller that is not to
be freed with the item.  `NewKey` has both, and that there is no name for want of memory.  A
name that the item had before is freed.
-/
import WebrtcEchoes.Proofs.Gstreamer.CJson.Create

namespace WebrtcEchoes.Gstreamer.CJson

open Handler Memory

variable {ν : Type} {m : Memory ν} {F : Forest Loc (Label ν)}

/-- The blocks that hold a name. -/
def nameBlocks (stringIsConst : Bool) (string : Option TextPtr) : List Loc :=
  if !stringIsConst then TextPtr.blocks string else []

/-- A name that no item has yet, or none, and the texts with it. -/
structure NewKey (m : Memory ν) (key : Option TextPtr) (name : Option Bytes) (constantKey : Bool)
    (texts : Loc → Option Bytes) : Prop where
  fresh : ∀ t ∈ nameBlocks constantKey key, texts t = name ∧ texts t ≠ none ∧ m.texts t = none
  kept : ∀ t, t ∉ nameBlocks constantKey key → texts t = m.texts t
  nodup : (nameBlocks constantKey key).Nodup
  held : constantKey = false → ∀ text, key ≠ some (.constant text)
  const : constantKey = true → ∀ t, key ≠ some (.block t)
  reads : key.bind (Memory.textAt { m with texts := texts }) = name

theorem NewKey.constant (m : Memory ν) (text : Bytes) :
    NewKey m (some (.constant text)) (some text) true m.texts where
  fresh := by simp [nameBlocks]
  kept _ _ := rfl
  nodup := by simp [nameBlocks]
  held := by simp
  const := by simp
  reads := rfl

theorem NewKey.copied {t : Loc} (ht : m.texts t = none) (text : Bytes) :
    NewKey m (some (.block t)) (some text) false (Function.update m.texts t (some text)) where
  fresh := by simp [nameBlocks, TextPtr.blocks, ht]
  kept s hs := by
    have hst : s ≠ t := by simpa [nameBlocks, TextPtr.blocks] using hs
    exact Function.update_of_ne hst _ _
  nodup := by simp [nameBlocks, TextPtr.blocks]
  held := by simp
  const := by simp
  reads := by simp

/-- Without memory for a name there is none. -/
theorem NewKey.missing (m : Memory ν) : NewKey m none none false m.texts where
  fresh := by simp [nameBlocks, TextPtr.blocks]
  kept _ _ := rfl
  nodup := by simp [nameBlocks, TextPtr.blocks]
  held := by simp
  const := by simp
  reads := rfl

theorem owned_eq (i : Item ν) :
    i.owned = (if !i.isReference then TextPtr.blocks i.valuestring else []) ++
      nameBlocks i.stringIsConst i.string := rfl

/-- The old name of an item is freed, and it gets a new one. -/
theorem Represents.rename (h : Represents m F) {x : Loc} (hx : m.live x = true)
    {key : Option TextPtr} {name : Option Bytes} {constantKey : Bool} {texts : Loc → Option Bytes}
    {n : ℕ} (hn : m.asked ≤ n) (hkey : NewKey m key name constantKey texts) :
    ∃ m', ((freeTextIf (!(m.item x).stringIsConst) { m with texts := texts, asked := n }
        (m.item x).string).bind fun m =>
        m.setItem (some x) { m.item x with string := key, stringIsConst := constantKey }) =
          some m' ∧
      Represents m' (F.setLabel x
        { m.label x with string := name, stringIsConst := constantKey }) := by
  have hsound := h.texts.sound hx
  obtain ⟨hvalues, -, hapart⟩ := List.nodup_append.mp (h.texts.nodup hx)
  -- the new name is in no block that the item had
  have hfresh : ∀ t ∈ nameBlocks constantKey key, t ∉ (m.item x).owned :=
    fun t ht hown => h.texts.held hx hown (hkey.fresh t ht).2.2
  have hold : ∀ t ∈ (m.item x).owned, texts t = m.texts t :=
    fun t ht => hkey.kept t fun hnew => hfresh t hnew ht
  have hfree : freeTextIf (!(m.item x).stringIsConst) { m with texts := texts, asked := n }
      (m.item x).string = some { m with
        texts := fun t =>
          if t ∈ nameBlocks (m.item x).stringIsConst (m.item x).string then none else texts t
        asked := n } := by
    refine freeTextIf_eq (fun text hconst => hsound.string text (by simpa using hconst)) ?_
    intro t ht
    have hown : t ∈ (m.item x).owned := List.mem_append_right _ ht
    show texts t ≠ none
    rw [hold t hown]
    exact h.texts.held hx hown
  have hvalue : ∀ t ∈ (if !(m.item x).isReference then TextPtr.blocks (m.item x).valuestring
      else []), t ∉ nameBlocks (m.item x).stringIsConst (m.item x).string :=
    fun t ht ht' => hapart t ht t ht' rfl
  refine ⟨_, ?_, h.relabel hx
    { m.item x with string := key, stringIsConst := constantKey }
    (fun t => if t ∈ nameBlocks (m.item x).stringIsConst (m.item x).string then none else texts t)
    hn rfl ⟨hsound.valuestring, ?_, ?_⟩ ?_ ?_ ?_ ?_ ?_⟩
  · rw [hfree]
    simp [setItem_some, hx]
  · exact fun text hconst => hkey.held hconst text
  · exact fun t hconst => hkey.const hconst t
  · rw [owned_eq]
    refine List.nodup_append.mpr ⟨hvalues, hkey.nodup, ?_⟩
    rintro s hs t ht rfl
    exact hfresh s ht (List.mem_append_left _ hs)
  · intro t ht hti
    rw [owned_eq, List.mem_append, not_or] at ht hti
    rw [if_neg ht.2]
    exact hkey.kept t hti.2
  · intro t ht
    rcases List.mem_append.mp ht with ht | ht
    · have hown : t ∈ (m.item x).owned := List.mem_append_left _ ht
      rw [if_neg (hvalue t ht), hold t hown]
      exact ⟨h.texts.held hx hown, .inl hown⟩
    · have hname : t ∉ nameBlocks (m.item x).stringIsConst (m.item x).string :=
        fun hname => hfresh t ht (List.mem_append_right _ hname)
      rw [if_neg hname]
      exact ⟨(hkey.fresh t ht).2.1, .inr (hkey.fresh t ht).2.2⟩
  · intro t ht hti
    rw [owned_eq, List.mem_append] at ht
    rcases ht with ht | ht
    · exact absurd (List.mem_append_left _ ht) hti
    · rw [if_pos ht]
  · have hname : ∀ m' : Memory ν, (m'.texts = fun t =>
        if t ∈ nameBlocks (m.item x).stringIsConst (m.item x).string then none else texts t) →
        key.bind m'.textAt = name := by
      intro m' htexts
      rcases key with _ | t | text
      · exact hkey.reads
      · have hconst : constantKey = false := by
          by_contra hconst
          exact hkey.const (by simpa using hconst) t rfl
        have ht : t ∈ nameBlocks constantKey (some (.block t)) := by
          simp [nameBlocks, TextPtr.blocks, hconst]
        have htname : t ∉ nameBlocks (m.item x).stringIsConst (m.item x).string :=
          fun hname => hfresh t ht (List.mem_append_right _ hname)
        rw [Option.bind_some, textAt_block, htexts]
        exact (if_neg htname).trans (hkey.fresh t ht).1
      · exact hkey.reads
    cases href : (m.item x).isReference with
    | true => simp [Memory.label, href, hname]
    | false =>
        rcases hstring : (m.item x).valuestring with _ | t | text
        · simp [Memory.label, href, hname, hstring]
        · have ht : t ∈ (if !(m.item x).isReference then TextPtr.blocks (m.item x).valuestring
              else []) := by simp [href, hstring, TextPtr.blocks]
          have htext := hold t (List.mem_append_left _ ht)
          simp [Memory.label, href, hname, hstring, hvalue t ht, htext]
        · simp [Memory.label, href, hname, hstring]

/-! ### An item is added under a name -/

namespace Represents

/-- What `addItemToObject` does once the name is there. -/
theorem addNamed (h : Represents m F) {p x : Loc} (hp : Container F p) (hx : F.Root x)
    (hxp : ¬ F.Below x p) {key : Option TextPtr} {name : Option Bytes} {constantKey : Bool}
    {texts : Loc → Option Bytes} {n : ℕ} (hn : m.asked ≤ n)
    (hkey : NewKey m key name constantKey texts) :
    ∃ m', ((freeTextIf (!(m.item x).stringIsConst) { m with texts := texts, asked := n }
        (m.item x).string).bind fun m₁ =>
        (m₁.setItem (some x) { m₁.item x with string := key, stringIsConst := constantKey }).bind
          fun m₂ => addItemToArray m₂ (some p) (some x)) = some (m', true) ∧
      Represents m' ((F.setLabel x
        { m.label x with string := name, stringIsConst := constantKey }).setKids p
          (F.kids p ++ [x])) := by
  have hxlive := h.node_iff.mp hx.1
  have hne : p ≠ x := by
    rintro rfl
    exact hxp (.refl p)
  obtain ⟨m', hrename, h'⟩ := h.rename hxlive hn hkey
  have hp' : Container (F.setLabel x
      { m.label x with string := name, stringIsConst := constantKey }) p := by
    simpa [Container, Forest.setLabel, hne] using hp
  obtain ⟨hplive, href⟩ := h'.container_iff.mp hp'
  have hroot : (F.setLabel x
      { m.label x with string := name, stringIsConst := constantKey }).Root x :=
    ⟨(Forest.node_setLabel_iff hx.1).mpr hx.1, hx.2⟩
  obtain ⟨m'', hadd, h''⟩ := h'.addToArray hplive href hroot hxp
  refine ⟨m'', ?_, h''⟩
  rw [← Option.bind_assoc, hrename]
  exact hadd

variable {A : Allocator}

/-- An item is added under a name, unless there is no memory for the name. -/
theorem addToObject (h : Represents m F) {p x : Loc} (hp : Container F p) (hx : F.Root x)
    (hxp : ¬ F.Below x p) (string : Bytes) (constantKey : Bool) :
    (∃ m', addItemToObject A m (some p) (some (.constant string)) (some x) constantKey =
        some (m', true) ∧ (constantKey = false → ¬ m.Refuses A 1) ∧
      Represents m' ((F.setLabel x
        { m.label x with string := some string, stringIsConst := constantKey }).setKids p
          (F.kids p ++ [x]))) ∨
      constantKey = false ∧ m.Refuses A 1 ∧
        ∃ m', addItemToObject A m (some p) (some (.constant string)) (some x) constantKey =
          some (m', false) ∧ Represents m' F := by
  have hxlive := h.node_iff.mp hx.1
  have hne : p ≠ x := by
    rintro rfl
    exact hxp (.refl p)
  cases constantKey with
  | true =>
      left
      obtain ⟨m', hadd, h'⟩ := h.addNamed hp hx hxp (Nat.le_refl _) (.constant m string)
      refine ⟨m', ?_, by simp, h'⟩
      rw [← hadd]
      simp [addItemToObject, deref_live hxlive, hne]
  | false =>
      rcases strdup_cases A (textAt_constant (m := m) string) with
        ⟨hdup, hrefuses⟩ | ⟨t, hdup, hoffer, htext⟩
      · refine .inr ⟨rfl, hrefuses, _, ?_, h.ask (Nat.le_add_right _ 1)⟩
        simp [addItemToObject, deref_live hxlive, hne, hdup]
      · left
        obtain ⟨m', hadd, h'⟩ := h.addNamed hp hx hxp (Nat.le_add_right _ 1) (.copied htext string)
        refine ⟨m', ?_, fun _ => by simp [refuses_one, hoffer], h'⟩
        rw [← hadd]
        simp [addItemToObject, deref_live hxlive, hne, hdup]

end Represents

end WebrtcEchoes.Gstreamer.CJson
