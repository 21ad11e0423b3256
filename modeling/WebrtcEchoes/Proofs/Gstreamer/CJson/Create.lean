/-
Items that are created.

`Represents.zeroed` is the rule for an item at a new address, and `Represents.relabel` the one
for an item that gets another type, value or name: the texts that it had are freed unless it
keeps them, and the texts that it gets were allocated for it.
-/
import WebrtcEchoes.Proofs.Gstreamer.CJson.Delete

namespace WebrtcEchoes.Gstreamer.CJson

open Handler Memory

variable {ν : Type} {m : Memory ν} {F : Forest Loc (Label ν)}

/-! ### A new item -/

theorem used_eq_false_iff {l : Loc} : m.used l = false ↔ m.live l = false ∧ m.texts l = none := by
  simp [used]

theorem owned_ofKind [Zero ν] (kind : Kind) : (Item.ofKind kind : Item ν).owned = [] := by
  simp [Item.ofKind, Item.owned, TextPtr.blocks]

theorem sound_ofKind [Zero ν] (kind : Kind) : (Item.ofKind kind : Item ν).Sound :=
  ⟨by simp [Item.ofKind], by simp [Item.ofKind], by simp [Item.ofKind]⟩

theorem TextsOwned.zeroed [Zero ν] (h : TextsOwned m) {l : Loc} (hl : m.live l = false) (n : ℕ) :
    TextsOwned { m.zeroed l with asked := n } := by
  have hitem : ∀ k, m.live k = true → (m.zeroed l).item k = m.item k := by
    intro k hk
    have hkl : k ≠ l := by
      rintro rfl
      simp [hl] at hk
    simp [Memory.zeroed, hkl]
  have hlive : ∀ {k}, (m.zeroed l).live k = true →
      k = l ∧ (m.zeroed l).item k = .ofKind .invalid ∨
        m.live k = true ∧ (m.zeroed l).item k = m.item k := by
    intro k hk
    by_cases hkl : k = l
    · exact .inl ⟨hkl, by simp [Memory.zeroed, hkl]⟩
    · have hk : m.live k = true := by simpa [Memory.zeroed, hkl] using hk
      exact .inr ⟨hk, hitem k hk⟩
  have howned : ∀ {k t}, (m.zeroed l).live k = true → t ∈ ((m.zeroed l).item k).owned →
      m.live k = true ∧ t ∈ (m.item k).owned := by
    intro k t hk ht
    rcases hlive hk with ⟨-, he⟩ | ⟨hk, he⟩
    · rw [he, owned_ofKind] at ht
      simp at ht
    · exact ⟨hk, he ▸ ht⟩
  constructor
  · intro k hk
    rcases hlive hk with ⟨-, he⟩ | ⟨hk, he⟩
    · exact he ▸ sound_ofKind _
    · exact he ▸ h.sound hk
  · intro k t hk ht
    obtain ⟨hk, ht⟩ := howned hk ht
    exact h.held hk ht
  · intro t ht
    obtain ⟨k, hk, htk⟩ := h.owner ht
    have hkl : k ≠ l := by
      rintro rfl
      simp [hl] at hk
    exact ⟨k, by simpa [Memory.zeroed, hkl] using hk, (hitem k hk).symm ▸ htk⟩
  · intro k j t hk hj htk htj
    obtain ⟨hk, htk⟩ := howned hk htk
    obtain ⟨hj, htj⟩ := howned hj htj
    exact h.unique hk hj htk htj
  · intro k hk
    rcases hlive hk with ⟨-, he⟩ | ⟨hk, he⟩
    · exact he ▸ by simp [owned_ofKind]
    · exact he ▸ h.nodup hk

namespace Represents

/-- An item at a new address is a root. -/
theorem zeroed [Zero ν] (h : Represents m F) {l : Loc} (hl : m.live l = false) :
    Represents { m.zeroed l with asked := m.asked + 1 } (F.add l (.ofKind .invalid)) := by
  have hnode : ¬ F.Node l := by
    rw [h.node_iff]
    simp [hl]
  have hne : ∀ {p x}, x ∈ F.kids p → x ≠ l := by
    rintro p x hx rfl
    exact hnode (h.proper.node_kid hx)
  have hnil := h.proper.kids_eq_nil hnode
  have hkids := h.proper.kids_add hnode (.ofKind .invalid)
  constructor
  · exact h.proper.add hnode _
  · intro k
    by_cases hk : k = l
    · subst hk
      simp [Forest.add, Memory.zeroed, Memory.label, Label.ofKind, Item.ofKind]
    · simp only [Forest.add, Memory.zeroed, Function.update_of_ne hk, h.labels]
      simp [Memory.label, hk]
      rfl
  · intro k hk href
    rw [hkids]
    by_cases hkl : k = l
    · subst hkl
      simp [Memory.zeroed, hnil]
    · simp only [Memory.zeroed, Function.update_of_ne hkl] at hk href ⊢
      exact h.child hk href
  · intro k hk href
    rw [hkids]
    by_cases hkl : k = l
    · rw [hkl, hnil]
    · simp only [Memory.zeroed, Function.update_of_ne hkl] at hk href
      exact h.borrowed hk href
  · intro p
    rw [hkids]
    refine (h.siblings p).congr (fun x hx => ?_) (fun x hx => ?_)
    · simp [Memory.zeroed, hne hx]
    · simp [Memory.zeroed, hne hx]
  · intro k hk
    by_cases hkl : k = l
    · simp [Memory.zeroed, hkl]
    · have hroot : F.Root k := by
        refine ⟨?_, fun p => hkids ▸ hk.2 p⟩
        rcases Forest.node_add_iff.mp hk.1 with he | hnode
        · exact absurd he hkl
        · exact hnode
      simpa [Memory.zeroed, hkl] using h.roots hroot
  · exact h.texts.zeroed hl _
  · obtain ⟨s, hs, hcard⟩ := h.bounded
    refine ⟨insert l s, fun k hk => ?_, (Finset.card_insert_le l s).trans (by simpa using hcard)⟩
    by_cases hkl : k = l
    · simp [hkl]
    · exact Finset.mem_insert_of_mem (hs k (by simpa [Memory.zeroed, hkl] using hk))

/-- An item that is given another type, value or name. -/
theorem relabel (h : Represents m F) {x : Loc} (hx : m.live x = true) (i : Item ν)
    (texts : Loc → Option Bytes) {n : ℕ} (hn : m.asked ≤ n)
    (href : i.isReference = (m.item x).isReference) (hsound : i.Sound) (hnodup : i.owned.Nodup)
    (hkept : ∀ t, t ∉ (m.item x).owned → t ∉ i.owned → texts t = m.texts t)
    (hnew : ∀ t ∈ i.owned, texts t ≠ none ∧ (t ∈ (m.item x).owned ∨ m.texts t = none))
    (hgone : ∀ t ∈ (m.item x).owned, t ∉ i.owned → texts t = none) {d : Label ν}
    (hd : Memory.label { m with item := Function.update m.item x i, texts := texts, asked := n } x =
      d) :
    Represents { m with item := Function.update m.item x i, texts := texts, asked := n }
      (F.setLabel x d) := by
  subst hd
  -- the texts of other items are neither freed nor handed to this one
  have hother : ∀ {k t}, m.live k = true → k ≠ x → t ∈ (m.item k).owned →
      t ∉ i.owned ∧ texts t = m.texts t := by
    intro k t hk hkx ht
    have htx : t ∉ (m.item x).owned := fun htx => hkx (h.texts.unique hk hx ht htx)
    have hti : t ∉ i.owned := by
      intro hti
      rcases (hnew t hti).2 with htx' | hnone
      · exact htx htx'
      · exact h.texts.held hk ht hnone
    exact ⟨hti, hkept t htx hti⟩
  constructor
  · exact h.proper.setLabel (h.node_iff.mpr hx) _
  · intro k
    by_cases hk : k = x
    · subst hk
      simp [Forest.setLabel, hx]
    · have hlabel : m.live k = true →
          Memory.label { m with item := Function.update m.item x i, texts := texts, asked := n } k =
            m.label k := fun hlive =>
        label_congr (h.texts.sound hlive) (Function.update_of_ne hk _ _)
          fun t ht => (hother hlive hk ht).2
      simp only [Forest.setLabel, Function.update_of_ne hk, h.labels]
      by_cases hlive : m.live k = true
      · rw [if_pos hlive, if_pos hlive, hlabel hlive]
      · rw [if_neg hlive, if_neg hlive]
  · intro k hk hkref
    refine h.child hk ?_
    by_cases hkx : k = x
    · subst hkx
      simpa [href] using hkref
    · simpa [hkx] using hkref
  · intro k hk hkref
    refine h.borrowed hk ?_
    by_cases hkx : k = x
    · subst hkx
      simpa [href] using hkref
    · simpa [hkx] using hkref
  · exact h.siblings
  · exact fun hk => h.roots ⟨(Forest.node_setLabel_iff (h.node_iff.mpr hx)).mp hk.1, hk.2⟩
  · constructor
    · intro k hk
      by_cases hkx : k = x
      · simpa [hkx] using hsound
      · simpa [hkx] using h.texts.sound hk
    · intro k t hk ht
      by_cases hkx : k = x
      · exact (hnew t (by simpa [hkx] using ht)).1
      · have ht : t ∈ (m.item k).owned := by simpa [hkx] using ht
        exact fun hnone => h.texts.held hk ht ((hother hk hkx ht).2 ▸ hnone)
    · intro t ht
      by_cases hti : t ∈ i.owned
      · exact ⟨x, hx, by simpa using hti⟩
      · have htx : t ∉ (m.item x).owned := fun htx => ht (hgone t htx hti)
        obtain ⟨k, hk, htk⟩ := h.texts.owner fun hnone => ht ((hkept t htx hti).trans hnone)
        have hkx : k ≠ x := by
          rintro rfl
          exact htx htk
        exact ⟨k, hk, by simpa [hkx] using htk⟩
    · intro k j t hk hj htk htj
      by_cases hkx : k = x <;> by_cases hjx : j = x
      · exact hkx.trans hjx.symm
      · have htj : t ∈ (m.item j).owned := by simpa [hjx] using htj
        exact absurd (by simpa [hkx] using htk) (hother hj hjx htj).1
      · have htk : t ∈ (m.item k).owned := by simpa [hkx] using htk
        exact absurd (by simpa [hjx] using htj) (hother hk hkx htk).1
      · exact h.texts.unique hk hj (by simpa [hkx] using htk) (by simpa [hjx] using htj)
    · intro k hk
      by_cases hkx : k = x
      · simpa [hkx] using hnodup
      · simpa [hkx] using h.texts.nodup hk
  · obtain ⟨s, hs, hcard⟩ := h.bounded
    exact ⟨s, hs, hcard.trans hn⟩

end Represents

/-! ### Requests to the allocator -/

theorem refuses_one {A : Allocator} : m.Refuses A 1 ↔ A.offer m.asked m.used = none :=
  Option.eq_none_iff_forall_ne_some.symm

theorem Allocator.Refuses.succ {A : Allocator} {n k : ℕ} {used : Loc → Bool}
    (h : A.Refuses n used k) : A.Refuses n used (k + 1) := by
  induction k generalizing n used with
  | zero => exact h.elim
  | succ k ih => exact fun l hl => ih (h l hl)

/-- So many requests were granted between two states of memory. -/
def Granted (A : Allocator) (m m' : Memory ν) (k : ℕ) : Prop :=
  ∀ j, m.Refuses A (j + k) ↔ m'.Refuses A j

theorem granted_one {A : Allocator} {m' : Memory ν} {l : Loc}
    (hoffer : A.offer m.asked m.used = some l) (hasked : m'.asked = m.asked + 1)
    (hused : m'.used = Function.update m.used l true) : Granted A m m' 1 := by
  intro j
  rw [Memory.Refuses, Memory.Refuses, hasked, hused]
  refine ⟨fun h => h l hoffer, fun h l' hl' => ?_⟩
  obtain rfl : l = l' := Option.some.inj (hoffer.symm.trans hl')
  exact h

theorem Granted.not_refuses {A : Allocator} {m' : Memory ν} {k : ℕ} (h : Granted A m m' k) :
    ¬ m.Refuses A k := by
  have h₀ := h 0
  rw [Nat.zero_add] at h₀
  exact fun hk => h₀.mp hk

theorem malloc_cases (A : Allocator) (m : Memory ν) :
    m.malloc A = ({ m with asked := m.asked + 1 }, none) ∧ m.Refuses A 1 ∨
      ∃ l, m.malloc A = ({ m with asked := m.asked + 1 }, some l) ∧
        A.offer m.asked m.used = some l ∧ m.live l = false ∧ m.texts l = none := by
  rw [Memory.malloc]
  cases hl : A.offer m.asked m.used with
  | none => exact .inl ⟨rfl, refuses_one.mpr hl⟩
  | some l => exact .inr ⟨l, rfl, rfl, used_eq_false_iff.mp (A.fresh hl)⟩

/-- A copy of a text, if there is memory for it. -/
theorem strdup_cases (A : Allocator) {string : TextPtr} {text : Bytes}
    (htext : m.textAt string = some text) :
    strdup A m (some string) = some ({ m with asked := m.asked + 1 }, none) ∧ m.Refuses A 1 ∨
      ∃ t, strdup A m (some string) =
        some ({ m with
          texts := Function.update m.texts t (some text)
          asked := m.asked + 1 }, some (.block t)) ∧
        A.offer m.asked m.used = some t ∧ m.texts t = none := by
  rcases malloc_cases A m with ⟨hmalloc, hrefuses⟩ | ⟨t, hmalloc, hoffer, -, hnone⟩
  · exact .inl ⟨by simp [strdup, htext, hmalloc], hrefuses⟩
  · exact .inr ⟨t, by simp [strdup, htext, hmalloc], hoffer, hnone⟩

theorem used_text (m : Memory ν) (t : Loc) (text : Bytes) (n : ℕ) :
    ({ m with texts := Function.update m.texts t (some text), asked := n } : Memory ν).used =
      Function.update m.used t true := by
  funext l
  by_cases hl : l = t <;> simp [Memory.used, hl]

theorem used_zeroed [Zero ν] (m : Memory ν) (l : Loc) (n : ℕ) :
    ({ m.zeroed l with asked := n } : Memory ν).used = Function.update m.used l true := by
  funext k
  by_cases hk : k = l <;> simp [Memory.used, Memory.zeroed, hk]

/-! ### The functions that create items -/

namespace Represents

/-- A request that was refused changes nothing. -/
theorem ask (h : Represents m F) {n : ℕ} (hn : m.asked ≤ n) :
    Represents { m with asked := n } F :=
  { h with
    texts := ⟨h.texts.sound, h.texts.held, h.texts.owner, h.texts.unique, h.texts.nodup⟩
    bounded := by
      obtain ⟨s, hs, hcard⟩ := h.bounded
      exact ⟨s, hs, hcard.trans hn⟩ }

/-- What a plain item is given keeps it without texts. -/
theorem setItem (h : Represents m F) {l : Loc} (hl : m.live l = true)
    (hitem : (m.item l).owned = []) (href : (m.item l).isReference = false) {i : Item ν}
    (hi : i.owned = []) (hiref : i.isReference = false) (hsound : i.Sound) {d : Label ν}
    (hd : Memory.label { m with item := Function.update m.item l i } l = d) :
    Represents { m with item := Function.update m.item l i } (F.setLabel l d) :=
  h.relabel hl i m.texts (Nat.le_refl _) (hiref.trans href.symm) hsound (by simp [hi])
    (by simp) (by simp [hi]) (by simp [hitem]) hd

variable [Zero ν] {A : Allocator}

theorem newItem (h : Represents m F) :
    (∃ m', newItem A m = (m', none) ∧ m.Refuses A 1 ∧ Represents m' F) ∨
      ∃ m' l, newItem A m = (m', some l) ∧ Granted A m m' 1 ∧ ¬ F.Node l ∧ m'.live l = true ∧
        m'.item l = .ofKind .invalid ∧ Represents m' (F.add l (.ofKind .invalid)) := by
  rcases malloc_cases A m with ⟨hmalloc, hrefuses⟩ | ⟨l, hmalloc, hoffer, hlive, -⟩
  · exact .inl ⟨_, by simp [CJson.newItem, hmalloc], hrefuses, h.ask (Nat.le_add_right _ 1)⟩
  · refine .inr ⟨{ m.zeroed l with asked := m.asked + 1 }, l, ?_, ?_, ?_, ?_, ?_, h.zeroed hlive⟩
    · simp [CJson.newItem, hmalloc, Memory.zeroed]
    · exact granted_one hoffer rfl (used_zeroed m l _)
    · simp [h.node_iff, hlive]
    · simp [Memory.zeroed]
    · simp [Memory.zeroed]

theorem createItem (h : Represents m F) (kind : Kind) (x : ν) :
    (∃ m', createItem A { (Item.ofKind kind : Item ν) with valuedouble := x } m =
        some (m', none) ∧ m.Refuses A 1 ∧ Represents m' F) ∨
      ∃ m' l, createItem A { (Item.ofKind kind : Item ν) with valuedouble := x } m =
        some (m', some l) ∧ Granted A m m' 1 ∧ ¬ F.Node l ∧
        Represents m' (F.add l { (Label.ofKind kind : Label ν) with valuedouble := x }) := by
  rcases h.newItem (A := A) with
    ⟨m', hnew, hrefuses, h'⟩ | ⟨m', l, hnew, hgranted, hnode, hlive, hitem, h'⟩
  · exact .inl ⟨m', by simp [CJson.createItem, hnew], hrefuses, h'⟩
  · have hset := h'.setItem hlive (by rw [hitem, owned_ofKind]) (by rw [hitem]; rfl)
      (i := { (Item.ofKind kind : Item ν) with valuedouble := x })
      (d := { (Label.ofKind kind : Label ν) with valuedouble := x })
      (by simp [Item.owned, Item.ofKind, TextPtr.blocks]) rfl
      ⟨by simp [Item.ofKind], by simp [Item.ofKind], by simp [Item.ofKind]⟩
      (by simp [Memory.label, Item.ofKind, Label.ofKind])
    rw [Forest.setLabel_add] at hset
    refine .inr ⟨_, l, ?_, ?_, hnode, hset⟩
    · simp [CJson.createItem, hnew, setItem_some, hlive]
    · exact hgranted

/-- An item gets the copy of a text as its value. -/
theorem setText (h : Represents m F) {l t : Loc} {kind : Kind} (hl : m.live l = true)
    (hitem : m.item l = .ofKind kind) (ht : m.texts t = none) (string : Bytes) :
    Represents { m with
        item := Function.update m.item l
          { (Item.ofKind kind : Item ν) with valuestring := some (.block t) }
        texts := Function.update m.texts t (some string)
        asked := m.asked + 1 }
      (F.setLabel l { (Label.ofKind kind : Label ν) with valuestring := some string }) := by
  have hblocks : ∀ s, s ∈ ({ (Item.ofKind kind : Item ν) with
      valuestring := some (.block t) } : Item ν).owned ↔ s = t := by
    simp [Item.owned, Item.ofKind, TextPtr.blocks]
  refine h.relabel hl _ _ (Nat.le_add_right _ 1) (by rw [hitem])
    ⟨by simp, by simp [Item.ofKind], by simp [Item.ofKind]⟩
    (by simp [Item.owned, Item.ofKind, TextPtr.blocks]) (fun s _ hs => ?_) (fun s hs => ?_)
    (by simp [hitem, owned_ofKind]) (by simp [Memory.label, Item.ofKind, Label.ofKind])
  · have hst : s ≠ t := fun he => hs ((hblocks s).mpr he)
    simp [hst]
  · obtain rfl := (hblocks s).mp hs
    exact ⟨by simp, .inr ht⟩

/-- `cJSON_CreateString` and its like: without memory for the text the item goes again. -/
theorem createText (h : Represents m F) (kind : Kind) (string : Bytes) :
    (∃ m', createText A kind (some (.constant string)) m = some (m', none) ∧ m.Refuses A 2 ∧
        Represents m' F) ∨
      ∃ m' l, createText A kind (some (.constant string)) m = some (m', some l) ∧
        Granted A m m' 2 ∧ ¬ F.Node l ∧
        Represents m'
          (F.add l { (Label.ofKind kind : Label ν) with valuestring := some string }) := by
  rcases h.newItem (A := A) with
    ⟨m', hnew, hrefuses, h'⟩ | ⟨m', l, hnew, hgranted, hnode, hlive, hitem, h'⟩
  · exact .inl ⟨m', by simp [CJson.createText, hnew], hrefuses.succ, h'⟩
  -- the item with its type, before there is a text
  obtain ⟨m₁, hm₁⟩ : ∃ m₁ : Memory ν,
      m₁ = { m' with item := Function.update m'.item l (.ofKind kind) } := ⟨_, rfl⟩
  have h₁ : Represents m₁ (F.add l (.ofKind kind)) := by
    have hset := h'.setItem hlive (by rw [hitem, owned_ofKind]) (by rw [hitem]; rfl)
      (i := .ofKind kind) (d := .ofKind kind) (owned_ofKind kind) rfl (sound_ofKind kind)
      (by simp [Memory.label, Item.ofKind, Label.ofKind])
    rwa [Forest.setLabel_add, ← hm₁] at hset
  have hgranted₁ : Granted A m m₁ 1 := by rw [hm₁]; exact hgranted
  have hlive₁ : m₁.live l = true := by rw [hm₁]; exact hlive
  have hitem₁ : m₁.item l = .ofKind kind := by simp [hm₁]
  have hfirst : CJson.createText A kind (some (.constant string)) m =
      (strdup A m₁ (some (.constant string))).bind fun r =>
        (r.1.setItem (some l) { (Item.ofKind kind : Item ν) with valuestring := r.2 }).bind fun m =>
          if r.2 = none then (cJSONDelete m (some l)).bind fun m => some (m, none)
          else some (m, some l) := by
    simp [CJson.createText, hnew, setItem_some, hlive, hm₁]
  rw [hfirst]
  rcases strdup_cases A (textAt_constant (m := m₁) string) with
    ⟨hdup, hrefuses⟩ | ⟨t, hdup, hoffer, htext⟩
  · obtain ⟨m₂, hdelete, h₂⟩ :=
      (h₁.ask (Nat.le_add_right _ 1)).delete (h.proper.root_add hnode (.ofKind kind))
    rw [h.proper.prune_add hnode] at h₂
    have hupdate : Function.update m₁.item l ⟨kind, false, false, none, 0, none⟩ = m₁.item := by
      rw [Function.update_eq_self_iff, hitem₁]
      rfl
    refine .inl ⟨m₂, ?_, (hgranted₁ 1).mpr hrefuses, h₂⟩
    simp [hdup, setItem_some, hlive₁, Item.ofKind, hupdate, hdelete]
  · have htext₁ := h₁.setText hlive₁ hitem₁ htext string
    rw [Forest.setLabel_add] at htext₁
    refine .inr ⟨_, l, ?_, fun j => ?_, hnode, htext₁⟩
    · simp [hdup, setItem_some, hlive₁]
    · exact (hgranted₁ (j + 1)).trans (granted_one hoffer rfl (used_text m₁ t string _) j)

end Represents

end WebrtcEchoes.Gstreamer.CJson
