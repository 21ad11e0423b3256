/-
`cJSON_Delete` frees what is below an item, each block once, and nothing else.

Freeing leaves every field as it is and only marks addresses as free.  So memory is, all the
time, what it was at the start without a set of items, and the induction over the children,
and from the leaves to the roots, is about that set.
-/
import WebrtcEchoes.Proofs.Gstreamer.CJson.Memory

namespace WebrtcEchoes.Gstreamer.CJson

open Handler Memory

variable {ν : Type} {m : Memory ν} {F : Forest Loc (Label ν)}

open Classical in
/-- Memory after these items, with the texts that are theirs, were freed. -/
noncomputable def Memory.without (m : Memory ν) (S : Set Loc) : Memory ν :=
  { m with
    live := fun l => if l ∈ S then false else m.live l
    texts := fun t =>
      if ∃ l ∈ S, m.live l = true ∧ t ∈ (m.item l).owned then none else m.texts t }

@[simp] theorem without_item (S : Set Loc) : (m.without S).item = m.item := rfl

@[simp] theorem without_next (S : Set Loc) : (m.without S).next = m.next := rfl

@[simp] theorem without_prev (S : Set Loc) : (m.without S).prev = m.prev := rfl

@[simp] theorem without_child (S : Set Loc) : (m.without S).child = m.child := rfl

/-! ### One item -/

theorem freeTextIf_eq {owned : Bool} {string : Option TextPtr}
    (hconst : ∀ text, owned = true → string ≠ some (.constant text))
    (hblock : ∀ t ∈ (if owned then TextPtr.blocks string else []), m.texts t ≠ none) :
    freeTextIf owned m string =
      some { m with texts := fun t =>
        if t ∈ (if owned then TextPtr.blocks string else []) then none else m.texts t } := by
  cases owned with
  | false => cases string <;> simp [freeTextIf]
  | true =>
      match string, hconst with
      | none, _ => simp [freeTextIf, TextPtr.blocks]
      | some (.constant text), hconst => exact absurd rfl (hconst text rfl)
      | some (.block l), _ =>
          have hl : m.texts l ≠ none := hblock l (by simp [TextPtr.blocks])
          have hupdate : Function.update m.texts l none =
              fun t => if t = l then none else m.texts t := by
            ext t
            simp [Function.update_apply]
          simp [freeTextIf, freeText, TextPtr.blocks, Option.isSome_iff_ne_none, hl, hupdate]

/-- The last three steps of the loop free the item and its texts. -/
theorem freeItem_texts {l : Loc} (hl : m.live l = true) (hsound : (m.item l).Sound)
    (hheld : ∀ t ∈ (m.item l).owned, m.texts t ≠ none) (hnodup : (m.item l).owned.Nodup)
    (rest : Memory ν → Option (Memory ν)) :
    (do
      let m₁ ← freeTextIf (!(m.item l).isReference) m (m.item l).valuestring
      let m₂ ← freeTextIf (!(m₁.item l).stringIsConst) m₁ (m₁.item l).string
      let m₃ ← m₂.freeItem l
      rest m₃) =
      rest { m with
        live := Function.update m.live l false
        texts := fun t => if t ∈ (m.item l).owned then none else m.texts t } := by
  rw [Item.owned] at hheld hnodup
  obtain ⟨-, -, hdisjoint⟩ := List.nodup_append.mp hnodup
  rw [freeTextIf_eq (fun text href => hsound.valuestring text (by simpa using href))
    (fun t ht => hheld t (List.mem_append_left _ ht))]
  simp only [Option.bind_eq_bind, Option.bind_some]
  rw [freeTextIf_eq (fun text href => hsound.string text (by simpa using href))]
  · simp only [Option.bind_some, freeItem, hl, if_true, Item.owned, List.mem_append]
    congr 2
    ext t
    grind
  · intro t ht
    have hother : t ∉ (if !(m.item l).isReference then TextPtr.blocks (m.item l).valuestring
        else []) := fun ht' => hdisjoint t ht' t ht rfl
    dsimp only
    rw [if_neg hother]
    exact hheld t (List.mem_append_right _ ht)

/-! ### A list of items -/

/-- What stands below one of these items. -/
def belowOf (F : Forest Loc (Label ν)) (xs : List Loc) : Set Loc := {y | ∃ x ∈ xs, F.Below x y}

/-- Deleting these items, wherever others are gone already, frees what is below them. -/
def Deletes (m : Memory ν) (F : Forest Loc (Label ν)) (xs : List Loc) : Prop :=
  ∀ (S : Set Loc) (s : Finset Loc) (fuel : ℕ), (∀ y ∈ S, y ∉ belowOf F xs) →
    (∀ y ∈ belowOf F xs, y ∈ s) → s.card ≤ fuel →
    deleteFrom fuel (m.without S) xs.head? = some (m.without (S ∪ belowOf F xs))

theorem belowOf_kids_subset {x y : Loc} (h : y ∈ belowOf F (F.kids x)) : F.Below x y := by
  obtain ⟨k, hk, hky⟩ := h
  exact (Forest.below_of_mem_kids hk).trans hky

theorem belowOf_cons (F : Forest Loc (Label ν)) (x : Loc) (rest : List Loc) :
    belowOf F (x :: rest) = insert x (belowOf F (F.kids x)) ∪ belowOf F rest := by
  ext y
  simp only [belowOf, List.mem_cons, Set.mem_ofPred_eq, Set.mem_union, Set.mem_insert_iff,
    exists_eq_or_imp, Forest.below_iff (x := x), eq_comm (a := x)]

/-- The children go first, if they are the item's own. -/
theorem deleteFrom_kids (h : Represents m F) {x : Loc} (hx : m.live x = true)
    (hkids : Deletes m F (F.kids x)) {S : Set Loc} {s : Finset Loc} {fuel : ℕ}
    (hS : ∀ y ∈ S, y ∉ belowOf F (F.kids x)) (hs : ∀ y ∈ belowOf F (F.kids x), y ∈ s)
    (hfuel : s.card ≤ fuel) :
    (if !(m.item x).isReference && (m.child x).isSome then
      deleteFrom fuel (m.without S) (m.child x) else some (m.without S)) =
      some (m.without (S ∪ belowOf F (F.kids x))) := by
  have hempty : F.kids x = [] → m.without S = m.without (S ∪ belowOf F (F.kids x)) := by
    intro hnil
    have : belowOf F (F.kids x) = ∅ := by simp [hnil, belowOf]
    rw [this, Set.union_empty]
  by_cases href : (m.item x).isReference = true
  · simp [href, ← hempty (h.borrowed hx href)]
  · rw [Bool.not_eq_true] at href
    have hchild := h.child hx href
    cases hkids' : m.child x with
    | none =>
        rw [hkids', eq_comm, List.head?_eq_none_iff] at hchild
        simp [← hempty hchild]
    | some k =>
        have hdelete := hkids S s fuel hS hs hfuel
        rw [← hchild, hkids'] at hdelete
        simp [href, hdelete]

theorem without_insert {x : Loc} (hx : m.live x = true) (S : Set Loc) :
    { m.without S with
      live := Function.update (m.without S).live x false
      texts := fun t =>
        if t ∈ ((m.without S).item x).owned then none else (m.without S).texts t } =
      m.without (insert x S) := by
  have hlive : Function.update (m.without S).live x false = (m.without (insert x S)).live := by
    ext l
    by_cases hl : l = x
    · simp [Memory.without, hl]
    · have hmem : l ∈ insert x S ↔ l ∈ S := by simp [hl]
      by_cases hlS : l ∈ S <;> simp [Memory.without, Function.update_of_ne hl, hmem, hlS]
  have htexts : (fun t => if t ∈ ((m.without S).item x).owned then none
      else (m.without S).texts t) = (m.without (insert x S)).texts := by
    ext t
    by_cases ht : t ∈ (m.item x).owned <;> simp [Memory.without, ht, hx]
  rw [hlive, htexts]
  rfl

/-- One round of the loop, with the recursion for the children. -/
theorem deletes_cons (h : Represents m F) {x : Loc} {rest : List Loc} (hx : m.live x = true)
    (hnext : m.next x = rest.head?) (hkids : Deletes m F (F.kids x))
    (hdisjoint : ∀ y ∈ rest, ∀ z, F.Below x z → ¬ F.Below y z)
    (hrest : Deletes m F rest) : Deletes m F (x :: rest) := by
  intro S s fuel hS hs hfuel
  rw [belowOf_cons] at hS hs ⊢
  obtain ⟨fuel, rfl⟩ : ∃ n, fuel = n + 1 := by
    have hpos : 0 < s.card := Finset.card_pos.mpr ⟨x, hs x (by simp)⟩
    exact ⟨fuel - 1, by omega⟩
  have hxS : x ∉ S := fun hxS => hS x hxS (by simp)
  have hcard : (s.erase x).card ≤ fuel := by
    rw [Finset.card_erase_of_mem (hs x (by simp))]
    omega
  have hxkids : x ∉ belowOf F (F.kids x) := by
    rintro ⟨k, hk, hkx⟩
    exact h.proper.not_below_kid hk hkx
  have hxrest : x ∉ belowOf F rest := by
    rintro ⟨y, hy, hyx⟩
    exact hdisjoint y hy x (.refl x) hyx
  have herase : ∀ y ∈ insert x (belowOf F (F.kids x)) ∪ belowOf F rest, y ≠ x → y ∈ s.erase x :=
    fun y hy hne => Finset.mem_erase.mpr ⟨hne, hs y hy⟩
  have hbelow := deleteFrom_kids h hx hkids (S := S) (s := s.erase x)
    (fun y hy hyx => hS y hy (.inl (.inr hyx)))
    (fun y hy => herase y (.inl (.inr hy)) (fun he => hxkids (he ▸ hy))) hcard
  have hgone : x ∉ S ∪ belowOf F (F.kids x) := by
    rintro (hx' | hx')
    · exact hxS hx'
    · exact hxkids hx'
  have htexts : ∀ t ∈ (m.item x).owned,
      (m.without (S ∪ belowOf F (F.kids x))).texts t ≠ none := by
    intro t ht
    have hnone : ¬ ∃ l ∈ S ∪ belowOf F (F.kids x), m.live l = true ∧ t ∈ (m.item l).owned := by
      rintro ⟨l, hl, hlive, htl⟩
      exact hgone (h.texts.unique hlive hx htl ht ▸ hl)
    have := h.texts.held hx ht
    simpa only [Memory.without, if_neg hnone] using this
  have hlive : ∀ S : Set Loc, x ∉ S → (m.without S).live x = true := by
    intro S hxS
    simp [Memory.without, hxS, hx]
  have hfinish := freeItem_texts (m := m.without (S ∪ belowOf F (F.kids x))) (hlive _ hgone)
    (h.texts.sound hx) htexts (h.texts.nodup hx) (fun m' => deleteFrom fuel m' rest.head?)
  have hdisjointRest : ∀ y ∈ insert x (S ∪ belowOf F (F.kids x)),
      y ∉ belowOf F rest := by
    intro y hy hyrest
    obtain ⟨k, hk, hky⟩ := hyrest
    rcases hy with rfl | hy | hy
    · exact hdisjoint k hk y (.refl y) hky
    · exact hS y hy (.inr ⟨k, hk, hky⟩)
    · exact hdisjoint k hk y (belowOf_kids_subset hy) hky
  have hcontinue := hrest (insert x (S ∪ belowOf F (F.kids x))) (s.erase x) fuel hdisjointRest
    (fun y hy => herase y (.inr hy) (fun he => hxrest (he ▸ hy))) hcard
  have hset : insert x (S ∪ belowOf F (F.kids x)) ∪ belowOf F rest =
      S ∪ (insert x (belowOf F (F.kids x)) ∪ belowOf F rest) := by
    rw [Set.insert_union, Set.union_assoc, Set.insert_union, ← Set.union_insert]
  rw [without_insert hx, hcontinue, hset] at hfinish
  rw [List.head?_cons, deleteFrom, deref_live (hlive S hxS)]
  simp only [Option.bind_eq_bind, Option.bind_some, without_item, without_child, without_next,
    hnext] at hfinish ⊢
  -- whether or not there was a call for the children, they are gone
  split at hbelow
  next hcall =>
    rw [if_pos hcall, hbelow, Option.bind_some]
    exact hfinish
  next hcall =>
    rw [if_neg hcall, Option.some.inj hbelow]
    exact hfinish

/-- A list of siblings, when the children of each of them are deleted as they should. -/
theorem deletes_list (h : Represents m F) {xs : List Loc} (hlive : ∀ x ∈ xs, m.live x = true)
    (hnext : Follows m.next xs none) (hkids : ∀ x ∈ xs, Deletes m F (F.kids x))
    (hdisjoint : xs.Pairwise fun x y => ∀ z, F.Below x z → ¬ F.Below y z) : Deletes m F xs := by
  induction xs with
  | nil =>
      intro S s fuel _ _ _
      simp [deleteFrom, belowOf]
  | cons x rest ih =>
      obtain ⟨hx, hrest⟩ := hnext
      obtain ⟨hxrest, hpairs⟩ := List.pairwise_cons.mp hdisjoint
      refine deletes_cons h (hlive x (by simp)) (by simpa using hx) (hkids x (by simp)) hxrest ?_
      exact ih (fun y hy => hlive y (by simp [hy])) hrest (fun y hy => hkids y (by simp [hy]))
        hpairs

/-- By induction from the leaves to the roots. -/
theorem deletes_kids (h : Represents m F) (p : Loc) : Deletes m F (F.kids p) := by
  refine h.proper.recursion (P := fun p => Deletes m F (F.kids p)) (fun p ih => ?_) p
  refine deletes_list h (fun x hx => h.live_of_mem_kids hx) (h.siblings p).forth ih ?_
  refine (h.proper.nodup p).pairwise_of_forall_ne fun x hx y hy hne z hxz hyz => ?_
  exact hne (h.proper.below_unique hx hy hxz hyz)

/-! ### A root -/

theorem without_live_iff {S : Set Loc} {l : Loc} :
    (m.without S).live l = true ↔ m.live l = true ∧ l ∉ S := by
  by_cases hl : l ∈ S <;> simp [Memory.without, hl]

theorem without_texts_of_owned (h : TextsOwned m) {S : Set Loc} {l t : Loc}
    (hl : m.live l = true) (hS : l ∉ S) (ht : t ∈ (m.item l).owned) :
    (m.without S).texts t = m.texts t := by
  have hnone : ¬ ∃ k ∈ S, m.live k = true ∧ t ∈ (m.item k).owned := by
    rintro ⟨k, hk, hlive, htk⟩
    exact hS (h.unique hlive hl htk ht ▸ hk)
  simp only [Memory.without, if_neg hnone]

theorem TextsOwned.without (h : TextsOwned m) (S : Set Loc) : TextsOwned (m.without S) where
  sound hl := h.sound (without_live_iff.mp hl).1
  held := by
    intro l t hl ht
    obtain ⟨hl, hS⟩ := without_live_iff.mp hl
    rw [without_texts_of_owned h hl hS ht]
    exact h.held hl ht
  owner := by
    intro t ht
    have hm : m.texts t ≠ none := by
      intro hnone
      simp [Memory.without, hnone] at ht
    obtain ⟨l, hl, htl⟩ := h.owner hm
    refine ⟨l, without_live_iff.mpr ⟨hl, fun hS => ht ?_⟩, htl⟩
    have hgone : ∃ k ∈ S, m.live k = true ∧ t ∈ (m.item k).owned := ⟨l, hS, hl, htl⟩
    simp only [Memory.without, if_pos hgone]
  unique hl hk := h.unique (without_live_iff.mp hl).1 (without_live_iff.mp hk).1
  nodup hl := h.nodup (without_live_iff.mp hl).1

/-- What an item holds does not depend on the texts of others. -/
theorem label_congr {m' : Memory ν} {l : Loc} (hsound : (m.item l).Sound)
    (hitem : m'.item l = m.item l) (htexts : ∀ t ∈ (m.item l).owned, m'.texts t = m.texts t) :
    m'.label l = m.label l := by
  have hblock : ∀ {string : Option TextPtr},
      (∀ t, string = some (.block t) → t ∈ (m.item l).owned) →
      string.bind m'.textAt = string.bind m.textAt := by
    intro string hmem
    match string, hmem with
    | none, _ => rfl
    | some (.constant text), _ => rfl
    | some (.block t), hmem => exact htexts t (hmem t rfl)
  have hvalue : (m.item l).isReference = false →
      (m.item l).valuestring.bind m'.textAt = (m.item l).valuestring.bind m.textAt := by
    intro href
    refine hblock fun t ht => List.mem_append_left _ ?_
    simp [href, ht, TextPtr.blocks]
  have hname : (m.item l).string.bind m'.textAt = (m.item l).string.bind m.textAt := by
    refine hblock fun t ht => List.mem_append_right _ ?_
    have hconst : (m.item l).stringIsConst = false := by
      by_contra hconst
      exact hsound.const t (by simpa using hconst) ht
    simp [hconst, ht, TextPtr.blocks]
  simp only [Memory.label, hitem, hname]
  cases href : (m.item l).isReference
  · simp [hvalue href]
  · simp

theorem without_represents (h : Represents m F) {x : Loc} (hx : F.Root x) :
    Represents (m.without {y | F.Below x y}) (F.prune x) where
  proper := h.proper.prune hx
  labels := by
    intro l
    by_cases hl : F.Below x l
    · simp [Forest.prune, Memory.without, hl]
    · have hkept : (F.prune x).label l = F.label l := by simp [Forest.prune, hl]
      have hmem : l ∉ {y | F.Below x y} := hl
      rw [hkept, h.labels]
      by_cases hlive : m.live l = true
      · rw [if_pos hlive, if_pos (without_live_iff.mpr ⟨hlive, hmem⟩)]
        have hlabel : (m.without {y | F.Below x y}).label l = m.label l :=
          label_congr (h.texts.sound hlive) rfl fun t ht =>
            without_texts_of_owned h.texts hlive hmem ht
        rw [hlabel]
      · rw [if_neg hlive, if_neg fun hl => hlive (without_live_iff.mp hl).1]
  child := by
    intro l hl href
    obtain ⟨hl, hlx⟩ := without_live_iff.mp hl
    have hlx : ¬ F.Below x l := hlx
    simpa [Forest.prune, hlx] using h.child hl href
  borrowed := by
    intro l hl href
    obtain ⟨hl, hlx⟩ := without_live_iff.mp hl
    have hlx : ¬ F.Below x l := hlx
    simpa [Forest.prune, hlx] using h.borrowed hl href
  siblings := by
    intro p
    by_cases hp : F.Below x p
    · simp [Forest.prune, hp]
    · simpa [Forest.prune, hp] using h.siblings p
  roots := by
    intro l hl
    obtain ⟨hnode, hbelow⟩ := Forest.node_prune_iff.mp hl.1
    refine h.roots ⟨hnode, fun p hp => ?_⟩
    have hxp : ¬ F.Below x p := fun hxp => hbelow (hxp.trans (Forest.below_of_mem_kids hp))
    exact hl.2 p (Forest.mem_kids_prune_iff.mpr ⟨hp, hxp⟩)
  texts := h.texts.without _
  bounded := by
    obtain ⟨s, hs, hcard⟩ := h.bounded
    exact ⟨s, fun l hl => hs l (without_live_iff.mp hl).1, hcard⟩

theorem Represents.delete_eq (h : Represents m F) {x : Loc} (hx : F.Root x) :
    cJSONDelete m (some x) = some (m.without {y | F.Below x y}) := by
  obtain ⟨s, hs, hcard⟩ := h.bounded
  have hlive := h.node_iff.mp hx.1
  have hdeletes : Deletes m F [x] := by
    refine deletes_list h ?_ ?_ ?_ (List.pairwise_singleton _ x)
    · simpa using hlive
    · simpa using (h.roots hx).1
    · simpa using deletes_kids h x
  have hbelow : belowOf F [x] = {y | F.Below x y} := by simp [belowOf]
  have hempty : m.without ∅ = m := by simp [Memory.without]
  have hdelete := hdeletes ∅ s m.asked (by simp) (fun y hy => ?_) hcard
  · rwa [Set.empty_union, hbelow, hempty] at hdelete
  · rw [hbelow] at hy
    exact hs y (h.node_iff.mp (h.proper.node_of_below hx.1 hy))

/-- **A root is deleted**: it and what is below it are gone, and what is left is as before. -/
theorem Represents.delete (h : Represents m F) {x : Loc} (hx : F.Root x) :
    ∃ m', cJSONDelete m (some x) = some m' ∧ Represents m' (F.prune x) :=
  ⟨_, h.delete_eq hx, without_represents h hx⟩

end WebrtcEchoes.Gstreamer.CJson
