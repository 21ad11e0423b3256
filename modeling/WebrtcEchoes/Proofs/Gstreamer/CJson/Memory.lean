/-
What the functions that link items do to the forest that memory holds.

`Represents.relink` is the one rule behind them: the children of an item are linked anew and
nothing else changes.  Each function then is a computation, place by place, and the rule of
`Siblings` for what it has written.
-/
import WebrtcEchoes.Gstreamer.ItemForest

namespace WebrtcEchoes.Gstreamer.CJson

open Handler Memory

variable {ν : Type} {m : Memory ν} {F : Forest Loc (Label ν)}

/-! ### Writes to an item that is allocated -/

namespace Memory

theorem deref_live {l : Loc} (h : m.live l = true) : m.deref (some l) = some l := by
  simp [deref, h]

@[simp] theorem textAt_block (t : Loc) : m.textAt (.block t) = m.texts t := rfl

@[simp] theorem textAt_constant (text : Bytes) :
    m.textAt (.constant text) = some text := rfl

theorem setNext_live {l : Loc} (h : m.live l = true) (v : Option Loc) :
    m.setNext (some l) v = some { m with next := Function.update m.next l v } := by
  simp [setNext, deref, h]

theorem setPrev_live {l : Loc} (h : m.live l = true) (v : Option Loc) :
    m.setPrev (some l) v = some { m with prev := Function.update m.prev l v } := by
  simp [setPrev, deref, h]

theorem setChild_live {l : Loc} (h : m.live l = true) (v : Option Loc) :
    m.setChild (some l) v = some { m with child := Function.update m.child l v } := by
  simp [setChild, deref, h]

theorem setItem_some (l : Loc) (i : Item ν) : m.setItem (some l) i =
    if m.live l then some { m with item := Function.update m.item l i } else none := by
  cases hl : m.live l <;> simp [Memory.setItem, Memory.deref, hl]

end Memory

namespace Represents

theorem node_iff (h : Represents m F) {l : Loc} : F.Node l ↔ m.live l = true := by
  rw [Forest.Node, h.labels]
  split <;> simp_all

theorem container_iff (h : Represents m F) {p : Loc} :
    Container F p ↔ m.live p = true ∧ (m.item p).isReference = false := by
  rw [Container, h.labels]
  cases hp : m.live p with
  | false => simp
  | true => simp [Memory.label]

theorem label_eq (h : Represents m F) {x : Loc} (hx : m.live x = true) :
    F.label x = some (m.label x) := by
  rw [h.labels, if_pos hx]

theorem live_of_mem_kids (h : Represents m F) {p x : Loc} (hx : x ∈ F.kids p) : m.live x = true :=
  h.node_iff.mp (h.proper.node_kid hx)

theorem live_of_kids (h : Represents m F) {p x : Loc} (hx : x ∈ F.kids p) : m.live p = true :=
  h.node_iff.mp (h.proper.node_parent hx)

theorem not_reference (h : Represents m F) {p x : Loc} (hx : x ∈ F.kids p) :
    (m.item p).isReference = false := by
  by_contra href
  rw [Bool.not_eq_false] at href
  simp [h.borrowed (h.live_of_kids hx) href] at hx

/-- The children of an item are linked anew, and no other link changes. -/
theorem relink (h : Represents m F) {p : Loc} {xs : List Loc} (hp : m.live p = true)
    (href : (m.item p).isReference = false) (hnodup : xs.Nodup)
    (hxs : ∀ x ∈ xs, x ∈ F.kids p ∨ F.Root x ∧ ¬ F.Below x p)
    (next prev child : Loc → Option Loc) (hs : Siblings next prev xs)
    (hchild : child = Function.update m.child p xs.head?)
    (hout : ∀ x ∈ F.kids p, x ∉ xs → next x = none ∧ prev x = none)
    (hframe : ∀ x, x ∉ F.kids p → x ∉ xs → next x = m.next x ∧ prev x = m.prev x) :
    Represents { m with next := next, prev := prev, child := child } (F.setKids p xs) where
  proper := h.proper.setKids (h.node_iff.mpr hp) hnodup hxs
  labels := h.labels
  child := by
    intro l hl hlref
    by_cases hlp : l = p
    · subst hlp
      simp [hchild, Forest.setKids]
    · simpa [hchild, Forest.setKids, hlp] using h.child hl hlref
  borrowed := by
    intro l hl hlref
    have hlp : l ≠ p := by
      rintro rfl
      simp [href] at hlref
    simpa [Forest.setKids, hlp] using h.borrowed hl hlref
  siblings := by
    intro q
    by_cases hqp : q = p
    · subst hqp
      simpa [Forest.setKids] using hs
    · have hother : ∀ x ∈ F.kids q, next x = m.next x ∧ prev x = m.prev x := by
        intro x hx
        have hxp : x ∉ F.kids p := fun hxp => hqp (h.proper.unique hx hxp)
        refine hframe x hxp fun hxxs => ?_
        rcases hxs x hxxs with hxp' | ⟨hroot, -⟩
        · exact hxp hxp'
        · exact hroot.2 q hx
      have hkids : (F.setKids p xs).kids q = F.kids q := by simp [Forest.setKids, hqp]
      rw [hkids]
      exact (h.siblings q).congr (fun x hx => (hother x hx).1) (fun x hx => (hother x hx).2)
  roots := by
    intro x hx
    have hxxs : x ∉ xs := fun hxxs => hx.2 p (by simpa [Forest.setKids] using hxxs)
    by_cases hxp : x ∈ F.kids p
    · exact hout x hxp hxxs
    · have hroot : F.Root x := by
        refine ⟨hx.1, fun q hq => ?_⟩
        by_cases hqp : q = p
        · exact hxp (hqp ▸ hq)
        · exact hx.2 q (by simpa [Forest.setKids, hqp] using hq)
      obtain ⟨hnext, hprev⟩ := hframe x hxp hxxs
      exact ⟨hnext.trans (h.roots hroot).1, hprev.trans (h.roots hroot).2⟩
  texts := ⟨h.texts.sound, h.texts.held, h.texts.owner, h.texts.unique, h.texts.nodup⟩
  bounded := h.bounded

theorem walk_eq {xs : List Loc} (hs : Siblings m.next m.prev xs)
    (hlive : ∀ x ∈ xs, m.live x = true) (i n : ℕ) : walk m xs[i]? n = some xs[i + n]? := by
  induction n generalizing i with
  | zero => cases xs[i]? <;> simp [walk]
  | succ n ih =>
      cases hi : xs[i]? with
      | none =>
          have hle : xs.length ≤ i + (n + 1) := by
            have := List.getElem?_eq_none_iff.mp hi
            omega
          simp [walk, List.getElem?_eq_none hle]
      | some x =>
          have hx := deref_live (hlive x (List.mem_of_getElem? hi))
          simp only [walk, hx, Option.bind_eq_bind, Option.bind_some]
          rw [hs.next_getElem? hi, ih, Nat.add_assoc, Nat.add_comm 1 n]

theorem getArrayItem_eq (h : Represents m F) {p : Loc} (hp : m.live p = true)
    (href : (m.item p).isReference = false) (n : ℕ) :
    getArrayItem m (some p) n = some (F.kids p)[n]? := by
  have hwalk := walk_eq (h.siblings p) (fun x hx => h.live_of_mem_kids hx) 0 n
  rw [← List.head?_eq_getElem?, Nat.zero_add] at hwalk
  simp only [getArrayItem, deref_live hp, Option.bind_eq_bind, Option.bind_some]
  rw [h.child hp href, hwalk]

/-- A child is taken out of the list it is in. -/
theorem detach (h : Represents m F) {p x : Loc} (hx : x ∈ F.kids p) :
    ∃ m', cJSONDetachItemViaPointer m (some p) (some x) = some (m', some x) ∧
      Represents m' (F.setKids p ((F.kids p).erase x)) := by
  have hp := h.live_of_kids hx
  have href := h.not_reference hx
  have hchild := h.child hp href
  have hlive : ∀ y ∈ F.kids p, m.live y = true := fun y hy => h.live_of_mem_kids hy
  have hsub : ∀ y ∈ (F.kids p).erase x, y ∈ F.kids p ∨ F.Root y ∧ ¬ F.Below y p :=
    fun y hy => .inl (List.mem_of_mem_erase hy)
  have hs := h.siblings p
  have hnodup := h.proper.nodup p
  have hrelink := h.relink hp href (hnodup.erase x) hsub
  obtain ⟨l, r, hkids⟩ := List.append_of_mem hx
  rw [hkids] at hs hnodup hchild hlive
  have hxlive := hlive x (by simp)
  have hxl : x ∉ l := by grind
  have hxr : x ∉ r := by grind
  have herase : (F.kids p).erase x = l ++ r := by
    rw [hkids, List.erase_append_right _ hxl, List.erase_cons_head]
  have hnext : m.next x = r.head? := hs.next_of_append
  rw [herase, hkids] at hrelink
  rw [herase]
  rcases List.eq_nil_or_concat' l with rfl | ⟨l, q, rfl⟩
  · cases r with
    | nil =>
        refine ⟨_, ?_, hrelink (Function.update m.next x none) (Function.update m.prev x none)
          _ (by simp) rfl ?_ ?_⟩
        · simp [cJSONDetachItemViaPointer, deref_live, setNext_live, setPrev_live, setChild_live,
            hp, hchild, hnext, hxlive]
        · grind
        · grind
    | cons n r =>
        have hnlive := hlive n (by simp)
        have hne : n ≠ x := by grind
        refine ⟨_, ?_, hrelink (Function.update m.next x none)
          (Function.update (Function.update m.prev n (m.prev x)) x none) _ ?_ rfl ?_ ?_⟩
        · simp [cJSONDetachItemViaPointer, deref_live, setNext_live, setPrev_live, setChild_live,
            hp, hchild, hnext, hxlive, hnlive]
        · exact (hs.detachFirst hnodup).congr (by grind) (by grind)
        · grind
        · grind
  · have hqlive := hlive q (by simp)
    rw [List.append_assoc, List.singleton_append] at hs hnodup
    have hprev : m.prev x = some q := hs.prev_of_append
    obtain ⟨first, hfirst⟩ : ∃ first, (l ++ [q]).head? = some first := by cases l <;> simp
    have hmem : first ∈ l ++ [q] := List.mem_of_head? hfirst
    have hfirstlive := hlive first (List.mem_append_left _ hmem)
    rw [List.head?_append, hfirst, Option.some_or] at hchild
    have hxfirst : x ≠ first := fun he => hxl (he ▸ hmem)
    have hxq : x ≠ q := by grind
    cases r with
    | nil =>
        refine ⟨_, ?_, hrelink (Function.update (Function.update m.next q none) x none)
          (Function.update (Function.update m.prev first (some q)) x none) m.child ?_ ?_ ?_ ?_⟩
        · simp [cJSONDetachItemViaPointer, deref_live, setNext_live, setPrev_live, setChild_live,
            hp, hchild, hnext, hprev, hxlive, hqlive, hfirstlive, hxfirst, hxq]
        · have hlast := hs.detachLast hnodup hfirst
          rw [hnext, hprev] at hlast
          rw [List.append_nil]
          exact hlast.congr (by grind) (by grind)
        · rw [List.append_nil, hfirst, ← hchild, Function.update_eq_self]
        · grind
        · grind
    | cons n r =>
        have hnlive := hlive n (by simp)
        have hnx : n ≠ x := by grind
        refine ⟨_, ?_, hrelink (Function.update (Function.update m.next q (some n)) x none)
          (Function.update (Function.update m.prev n (some q)) x none) m.child ?_ ?_ ?_ ?_⟩
        · simp [cJSONDetachItemViaPointer, deref_live, setNext_live, setPrev_live, setChild_live,
            hp, hchild, hnext, hprev, hxlive, hqlive, hnlive, hxfirst, hxq]
        · have hmiddle := hs.detachMiddle hnodup
          rw [hnext, hprev] at hmiddle
          rw [List.append_assoc, List.singleton_append]
          exact hmiddle.congr (by grind) (by grind)
        · rw [List.head?_append, hfirst, Option.some_or, ← hchild, Function.update_eq_self]
        · grind
        · grind

/-- A root is appended to the children of an item. -/
theorem addToArray (h : Represents m F) {p x : Loc} (hp : m.live p = true)
    (href : (m.item p).isReference = false) (hx : F.Root x) (hxp : ¬ F.Below x p) :
    ∃ m', addItemToArray m (some p) (some x) = some (m', true) ∧
      Represents m' (F.setKids p (F.kids p ++ [x])) := by
  have hxlive := h.node_iff.mp hx.1
  have hne : p ≠ x := by
    rintro rfl
    exact hxp (.refl p)
  have hchild := h.child hp href
  have hxkids : x ∉ F.kids p := hx.2 p
  have hnodup : (F.kids p ++ [x]).Nodup := by
    have := h.proper.nodup p
    grind
  have hmem : ∀ y ∈ F.kids p ++ [x], y ∈ F.kids p ∨ F.Root y ∧ ¬ F.Below y p := by
    intro y hy
    rcases List.mem_append.mp hy with hy | hy
    · exact .inl hy
    · obtain rfl := List.mem_singleton.mp hy
      exact .inr ⟨hx, hxp⟩
  have hrelink := h.relink hp href hnodup hmem
  rcases List.eq_nil_or_concat' (F.kids p) with hkids | ⟨l, last, hkids⟩
  · rw [hkids] at hchild hrelink ⊢
    refine ⟨_, ?_, hrelink (Function.update m.next x none) (Function.update m.prev x (some x)) _
      (Siblings.singleton x) rfl ?_ ?_⟩
    · simp [addItemToArray, deref_live, setNext_live, setPrev_live, setChild_live, hp, hxlive,
        hchild, hne]
    · simp
    · grind
  · obtain ⟨first, hfirst⟩ : ∃ first, (F.kids p).head? = some first := by
      rw [hkids]
      cases l <;> simp
    have hlast : (F.kids p).getLast? = some last := by simp [hkids]
    have hfirstmem := List.mem_of_head? hfirst
    have hfirstlive := h.live_of_mem_kids hfirstmem
    have hlastmem : last ∈ F.kids p := List.mem_of_getLast? hlast
    have hlastlive := h.live_of_mem_kids hlastmem
    have hprev : m.prev first = some last := by
      obtain ⟨ys, hys⟩ := List.head?_eq_some_iff.mp hfirst
      have hs := h.siblings p
      rw [hys] at hs hlast
      rw [hs.prev_head, hlast]
    rw [hfirst] at hchild
    refine ⟨_, ?_, hrelink (Function.update m.next last (some x))
      (Function.update (Function.update m.prev x (some last)) first (some x)) m.child
      ((h.siblings p).append hnodup hfirst hlast (h.roots hx).1) ?_ ?_ ?_⟩
    · simp [addItemToArray, suffixObject, deref_live, setNext_live, setPrev_live, hp, hxlive,
        hchild, hne, hfirstlive, hlastlive, hprev]
    · rw [List.head?_append, hfirst, Option.some_or, ← hchild, Function.update_eq_self]
    · intro y hy hyx
      exact absurd (List.mem_append_left _ hy) hyx
    · intro y hy hyx
      have hyx : y ≠ x := fun he => hyx (by simp [he])
      have hylast : y ≠ last := fun he => hy (he ▸ hlastmem)
      have hyfirst : y ≠ first := fun he => hy (he ▸ hfirstmem)
      simp [hyx, hylast, hyfirst]

/-- A root is put before the child at a place. -/
theorem insertInArray (h : Represents m F) {p x : Loc} {which : ℕ} (hp : m.live p = true)
    (href : (m.item p).isReference = false) (hx : F.Root x) (hxp : ¬ F.Below x p)
    (hwhich : which < (F.kids p).length) :
    ∃ m', cJSONInsertItemInArray m (some p) which (some x) = some (m', true) ∧
      Represents m' (F.setKids p ((F.kids p).insertIdx which x)) := by
  have hxlive := h.node_iff.mp hx.1
  have hxkids : x ∉ F.kids p := hx.2 p
  have hs := h.siblings p
  have hnodup : ((F.kids p).insertIdx which x).Nodup :=
    (List.perm_insertIdx x _ hwhich.le).nodup_iff.mpr
      (List.nodup_cons.mpr ⟨hxkids, h.proper.nodup p⟩)
  have hmem : ∀ y ∈ (F.kids p).insertIdx which x, y ∈ F.kids p ∨ F.Root y ∧ ¬ F.Below y p := by
    intro y hy
    rcases List.mem_cons.mp ((List.perm_insertIdx x _ hwhich.le).mem_iff.mp hy) with rfl | hy
    · exact .inr ⟨hx, hxp⟩
    · exact .inl hy
  have hrelink := h.relink hp href hnodup hmem
  have hchild := h.child hp href
  obtain ⟨l, y, r, hkids, hlength⟩ : ∃ l y r, F.kids p = l ++ y :: r ∧ l.length = which :=
    ⟨(F.kids p).take which, (F.kids p)[which], (F.kids p).drop (which + 1), by simp, by simp; omega⟩
  have hinsert : (F.kids p).insertIdx which x = l ++ x :: y :: r := by
    rw [hkids, ← hlength]
    exact List.modifyTailIdx_add _ 0 l (y :: r)
  have hylive := h.live_of_mem_kids (p := p) (x := y) (by simp [hkids])
  have hxy : x ≠ y := fun he => hxkids (by simp [hkids, he])
  rw [hinsert] at hnodup hrelink
  rw [hinsert]
  have hitem : getArrayItem m (some p) which = some (some y) := by
    rw [h.getArrayItem_eq hp href, hkids, ← hlength]
    simp
  rw [hkids] at hs hchild hrelink hxkids
  rcases List.eq_nil_or_concat' l with rfl | ⟨l, q, rfl⟩
  · refine ⟨_, ?_, hrelink (Function.update m.next x (some y))
      (Function.update (Function.update m.prev x (m.prev y)) y (some x)) _
      (hs.insertFirst hnodup) rfl ?_ ?_⟩
    · simp [cJSONInsertItemInArray, deref_live, setNext_live, setPrev_live, setChild_live, hp,
        hxlive, hylive, hitem, hchild]
    · grind
    · grind
  · rw [List.append_assoc, List.singleton_append] at hs hnodup hchild
    rw [List.append_assoc, List.singleton_append] at hrelink ⊢
    have hqlive := h.live_of_mem_kids (p := p) (x := q) (by simp [hkids])
    have hprev : m.prev y = some q := hs.prev_of_append
    have hfirst : m.child p ≠ some y := by
      rw [hchild]
      cases l <;> grind
    refine ⟨_, ?_, hrelink (Function.update (Function.update m.next x (some y)) q (some x))
      (Function.update (Function.update m.prev x (some q)) y (some x)) m.child ?_ ?_ ?_ ?_⟩
    · simp [cJSONInsertItemInArray, deref_live, setNext_live, setPrev_live, hp, hxlive, hylive,
        hqlive, hitem, hprev, hfirst.symm, hxy]
    · rw [← hprev]
      exact hs.insert hnodup
    · rw [eq_comm, Function.update_eq_self_iff, hchild]
      cases l <;> rfl
    · grind
    · grind

/-! ### A child that another item takes the place of -/

section Exchange

variable {p x y q n first : Loc} {l r : List Loc}

theorem exchange_facts (h : Represents m F) (hkids : F.kids p = l ++ x :: r) (hy : F.Root y) :
    m.live p = true ∧ m.live x = true ∧ m.live y = true ∧ y ≠ x ∧ m.next x = r.head? ∧
      m.child p = (l ++ x :: r).head? := by
  have hx : x ∈ F.kids p := by simp [hkids]
  have hp := h.live_of_kids hx
  have hs := h.siblings p
  rw [hkids] at hs
  refine ⟨hp, h.live_of_mem_kids hx, h.node_iff.mp hy.1, fun he => hy.2 p (he ▸ hx),
    hs.next_of_append, ?_⟩
  rw [h.child hp (h.not_reference hx), hkids]

/-- The rule `relink` for an exchange. -/
theorem exchange_relink (h : Represents m F) (hkids : F.kids p = l ++ x :: r) (hy : F.Root y)
    (hyp : ¬ F.Below y p) (next prev child : Loc → Option Loc)
    (hs : Siblings next prev (l ++ y :: r))
    (hchild : child = Function.update m.child p (l ++ y :: r).head?)
    (hx : next x = none ∧ prev x = none)
    (hframe : ∀ z, z ≠ x → z ≠ y → z ∉ l → z ∉ r → next z = m.next z ∧ prev z = m.prev z) :
    Represents { m with next := next, prev := prev, child := child }
      (F.setKids p (l ++ y :: r)) := by
  have hxkids : x ∈ F.kids p := by simp [hkids]
  have hnodup := h.proper.nodup p
  have hykids := hy.2 p
  rw [hkids] at hnodup hykids
  have hnodup' : (l ++ y :: r).Nodup := by grind
  refine h.relink (h.live_of_kids hxkids) (h.not_reference hxkids) hnodup' ?_ next prev child hs
    hchild ?_ ?_
  · intro z hz
    by_cases hzy : z = y
    · exact .inr ⟨hzy ▸ hy, hzy ▸ hyp⟩
    · rw [hkids]
      left
      simp only [List.mem_append, List.mem_cons] at hz ⊢
      tauto
  · intro z hz hz'
    rw [hkids] at hz
    simp only [List.mem_append, List.mem_cons, not_or] at hz hz'
    have hzx : z = x := by tauto
    rw [hzx]
    exact hx
  · intro z hz hz'
    rw [hkids] at hz
    simp only [List.mem_append, List.mem_cons, not_or] at hz hz'
    exact hframe z hz.2.1 hz'.2.1 hz.1 hz.2.2

theorem exchange_only (h : Represents m F) (hkids : F.kids p = [x]) (hy : F.Root y)
    (hyp : ¬ F.Below y p) :
    ∃ m', cJSONReplaceItemViaPointer m (some p) (some x) (some y) =
        (cJSONDelete m' (some x)).bind (fun m => some (m, true)) ∧
      Represents m' (F.setKids p [y]) := by
  obtain ⟨hp, hx, hylive, hyx, hnext, hchild⟩ := h.exchange_facts (l := []) hkids hy
  have hs := h.siblings p
  rw [hkids] at hs
  have hprev : m.prev x = some x := by simpa using hs.prev_head
  have hsingle : Siblings (Function.update m.next y none) (Function.update m.prev y (some y))
    [y] := Siblings.singleton y
  refine ⟨_, ?_, h.exchange_relink (l := []) hkids hy hyp
    (Function.update (Function.update m.next y none) x none)
    (Function.update (Function.update m.prev y (some y)) x none) _ ?_ rfl (by simp) ?_⟩
  · simp [cJSONReplaceItemViaPointer, deref_live, setNext_live, setPrev_live, setChild_live,
      hp, hchild, hnext, hprev, hx, hylive, hyx, hyx.symm]
  · exact hsingle.congr (by simp [hyx]) (by simp [hyx])
  · intro z hzx hzy _ _
    simp [hzx, hzy]

theorem exchange_first (h : Represents m F) (hkids : F.kids p = x :: n :: r) (hy : F.Root y)
    (hyp : ¬ F.Below y p) :
    ∃ m', cJSONReplaceItemViaPointer m (some p) (some x) (some y) =
        (cJSONDelete m' (some x)).bind (fun m => some (m, true)) ∧
      Represents m' (F.setKids p (y :: n :: r)) := by
  obtain ⟨hp, hx, hylive, hyx, hnext, hchild⟩ := h.exchange_facts (l := []) hkids hy
  have hs := h.siblings p
  have hnodup := h.proper.nodup p
  have hykids := hy.2 p
  have hn : m.live n = true := h.live_of_mem_kids (p := p) (by simp [hkids])
  rw [hkids] at hs hnodup hykids
  have hxrest : x ∉ n :: r := (List.nodup_cons.mp hnodup).1
  have hyrest : y ∉ n :: r := fun hmem => hykids (List.mem_cons_of_mem _ hmem)
  have hxn : x ≠ n := fun he => hxrest (by simp [he])
  have hprev : m.prev x ≠ some x := by
    intro he
    have hlast : (n :: r).getLast? = some x := by
      rw [← he, hs.prev_head, List.getLast?_cons_cons]
    exact hxrest (List.mem_of_getLast? hlast)
  have hsiblings := hs.replaceFirst hnodup hyrest
  rw [hnext] at hsiblings
  refine ⟨_, ?_, h.exchange_relink (l := []) hkids hy hyp
    (Function.update (Function.update m.next y (some n)) x none)
    (Function.update (Function.update (Function.update m.prev y (m.prev x)) n (some y)) x none)
    _ ?_ rfl (by simp) ?_⟩
  · simp [cJSONReplaceItemViaPointer, deref_live, setNext_live, setPrev_live, setChild_live,
      hp, hchild, hnext, hprev, hx, hylive, hn, hyx, hyx.symm, hxn]
  · have hne : ∀ z ∈ y :: n :: r, z ≠ x := by
      rintro z hz rfl
      rcases List.mem_cons.mp hz with he | hz
      · exact hyx he.symm
      · exact hxrest hz
    exact hsiblings.congr (fun z hz => Function.update_of_ne (hne z hz) _ _)
      (fun z hz => Function.update_of_ne (hne z hz) _ _)
  · intro z hzx hzy _ hzr
    have hzn : z ≠ n := fun he => hzr (by simp [he])
    simp [hzx, hzy, hzn]

/-- What there is to know of a child that is not the first. -/
theorem exchange_behind (h : Represents m F) (hkids : F.kids p = l ++ q :: x :: r)
    (hy : F.Root y) :
    m.live q = true ∧ m.prev x = some q ∧ q ≠ x ∧ q ≠ y ∧
      ∃ first, (l ++ [q]).head? = some first ∧ first ∈ l ++ [q] ∧ m.live first = true ∧
        first ≠ x ∧ m.child p = some first := by
  obtain ⟨-, -, -, -, -, hchild⟩ := h.exchange_facts (l := l ++ [q]) (by simpa using hkids) hy
  have hs := h.siblings p
  have hnodup := h.proper.nodup p
  have hykids := hy.2 p
  have hlive : ∀ z ∈ l ++ [q], m.live z = true := by
    intro z hz
    refine h.live_of_mem_kids (p := p) ?_
    simp only [List.mem_append, List.mem_singleton] at hz
    rw [hkids]
    rcases hz with hz | rfl <;> simp [*]
  rw [hkids] at hs hnodup hykids
  obtain ⟨first, hfirst⟩ : ∃ first, (l ++ [q]).head? = some first := by cases l <;> simp
  have hmem : first ∈ l ++ [q] := List.mem_of_head? hfirst
  have hxl : x ∉ l ++ [q] := by grind
  refine ⟨hlive q (by simp), hs.prev_of_append, fun he => hxl (by simp [he]),
    fun he => hykids (by simp [he]), first, hfirst, hmem, hlive first hmem,
    fun he => hxl (he ▸ hmem), ?_⟩
  rw [hchild, List.head?_append, hfirst, Option.some_or]

theorem exchange_last (h : Represents m F) (hkids : F.kids p = l ++ [q, x]) (hy : F.Root y)
    (hyp : ¬ F.Below y p) :
    ∃ m', cJSONReplaceItemViaPointer m (some p) (some x) (some y) =
        (cJSONDelete m' (some x)).bind (fun m => some (m, true)) ∧
      Represents m' (F.setKids p (l ++ [q, y])) := by
  have hkids' : F.kids p = (l ++ [q]) ++ [x] := by simpa using hkids
  obtain ⟨hp, hx, hylive, hyx, hnext, -⟩ := h.exchange_facts hkids' hy
  obtain ⟨hq, hprev, hqx, hqy, first, hfirst, hmem, hfirstlive, hfirstx, hchild⟩ :=
    h.exchange_behind hkids hy
  have hs := h.siblings p
  have hnodup := h.proper.nodup p
  have hykids := hy.2 p
  rw [hkids] at hs hnodup hykids
  have hsiblings := hs.replaceLast hnodup hykids hfirst
  rw [hnext, hprev] at hsiblings
  have hne : ∀ z ∈ l ++ [q, y], z ≠ x := by grind
  have hrelink := h.exchange_relink hkids' hy hyp
    (Function.update (Function.update (Function.update m.next y none) q (some y)) x none)
    (Function.update (Function.update (Function.update m.prev y (some q)) first (some y)) x none)
    m.child ?_ ?_ (by simp) ?_
  · refine ⟨_, ?_, by simpa using hrelink⟩
    simp [cJSONReplaceItemViaPointer, deref_live, setNext_live, setPrev_live, hp, hchild,
      hnext, hprev, hx, hylive, hq, hfirstlive, hyx, hfirstx, hqy.symm]
  · rw [List.append_assoc, List.singleton_append]
    exact hsiblings.congr (fun z hz => Function.update_of_ne (hne z hz) _ _)
      (fun z hz => Function.update_of_ne (hne z hz) _ _)
  · rw [List.head?_append, hfirst, Option.some_or, ← hchild, Function.update_eq_self]
  · intro z hzx hzy hzl _
    have hzfirst : z ≠ first := fun he => hzl (he ▸ hmem)
    have hzq : z ≠ q := fun he => hzl (by simp [he])
    simp [hzx, hzy, hzfirst, hzq]

theorem exchange_middle (h : Represents m F) (hkids : F.kids p = l ++ q :: x :: n :: r)
    (hy : F.Root y) (hyp : ¬ F.Below y p) :
    ∃ m', cJSONReplaceItemViaPointer m (some p) (some x) (some y) =
        (cJSONDelete m' (some x)).bind (fun m => some (m, true)) ∧
      Represents m' (F.setKids p (l ++ q :: y :: n :: r)) := by
  have hkids' : F.kids p = (l ++ [q]) ++ x :: n :: r := by simpa using hkids
  obtain ⟨hp, hx, hylive, hyx, hnext, -⟩ := h.exchange_facts hkids' hy
  obtain ⟨hq, hprev, hqx, hqy, first, hfirst, -, -, hfirstx, hchild⟩ :=
    h.exchange_behind hkids hy
  have hn : m.live n = true := h.live_of_mem_kids (p := p) (by simp [hkids])
  have hs := h.siblings p
  have hnodup := h.proper.nodup p
  have hykids := hy.2 p
  rw [hkids] at hs hnodup hykids
  have hyn : y ≠ n := fun he => hykids (by simp [he])
  have hsiblings := hs.replaceMiddle hnodup hykids
  rw [hnext, hprev] at hsiblings
  have hne : ∀ z ∈ l ++ q :: y :: n :: r, z ≠ x := by grind
  have hrelink := h.exchange_relink hkids' hy hyp
    (Function.update (Function.update (Function.update m.next y (some n)) q (some y)) x none)
    (Function.update (Function.update (Function.update m.prev y (some q)) n (some y)) x none)
    m.child ?_ ?_ (by simp) ?_
  · refine ⟨_, ?_, by simpa using hrelink⟩
    simp [cJSONReplaceItemViaPointer, deref_live, setNext_live, setPrev_live, hp, hchild,
      hnext, hprev, hx, hylive, hq, hn, hyx, hfirstx, hqy.symm, hyn]
  · rw [List.append_assoc, List.singleton_append]
    exact hsiblings.congr (fun z hz => Function.update_of_ne (hne z hz) _ _)
      (fun z hz => Function.update_of_ne (hne z hz) _ _)
  · rw [List.head?_append, hfirst, Option.some_or, ← hchild, Function.update_eq_self]
  · intro z hzx hzy hzl hzr
    have hzn : z ≠ n := fun he => hzr (by simp [he])
    have hzq : z ≠ q := fun he => hzl (by simp [he])
    simp [hzx, hzy, hzn, hzq]

/-- A root takes the place of a child, which is then deleted. -/
theorem exchange (h : Represents m F) (hx : x ∈ F.kids p) (hy : F.Root y)
    (hyp : ¬ F.Below y p) :
    ∃ m', cJSONReplaceItemViaPointer m (some p) (some x) (some y) =
        (cJSONDelete m' (some x)).bind (fun m => some (m, true)) ∧
      Represents m' (F.setKids p ((F.kids p).replace x y)) := by
  obtain ⟨l, r, hkids⟩ := List.append_of_mem hx
  have hnodup := h.proper.nodup p
  rw [hkids] at hnodup
  have hxl : x ∉ l := by grind
  rw [hkids, List.replace_append_right hxl, List.replace_cons_self]
  rcases List.eq_nil_or_concat' l with rfl | ⟨l, q, rfl⟩
  · cases r with
    | nil => exact h.exchange_only hkids hy hyp
    | cons n r => exact h.exchange_first hkids hy hyp
  · rw [List.append_assoc, List.singleton_append] at hkids ⊢
    cases r with
    | nil => exact h.exchange_last hkids hy hyp
    | cons n r => exact h.exchange_middle hkids hy hyp

end Exchange

end Represents

end WebrtcEchoes.Gstreamer.CJson
