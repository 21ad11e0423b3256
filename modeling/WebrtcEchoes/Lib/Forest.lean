/-
Forests of labelled nodes, each with its children in order.

A forest is proper when no node is the child of two nodes, or of one node twice, and when
no node is beneath itself.  `Proper.setKids` is the one rule for a node whose children
change: each new child was a child of it already, or is a root that the node is not below.
A list of children that grows, shrinks or has one child exchanged is a case of it.

`Proper.recursion` is induction from the leaves to the roots, and `Proper.below_unique` says
that two siblings have nothing below them in common.
-/
import Mathlib.Algebra.Order.BigOperators.Group.List
import Mathlib.Algebra.Order.Group.Nat
import Mathlib.Data.Finset.Max
import Mathlib.Logic.Relation
import Mathlib.Logic.Function.Basic
import Mathlib.Data.List.Nodup

namespace WebrtcEchoes

structure Forest (ι δ : Type) where
  /-- What a node holds, and `none` for what is no node. -/
  label : ι → Option δ
  kids : ι → List ι

namespace Forest

variable {ι δ : Type}

def empty : Forest ι δ := ⟨fun _ => none, fun _ => []⟩

def Node (F : Forest ι δ) (x : ι) : Prop := F.label x ≠ none

def Root (F : Forest ι δ) (x : ι) : Prop := F.Node x ∧ ∀ p, x ∉ F.kids p

/-- `y` is `x` itself or stands beneath it. -/
def Below (F : Forest ι δ) (x y : ι) : Prop :=
  Relation.ReflTransGen (fun p y => y ∈ F.kids p) x y

structure Proper (F : Forest ι δ) : Prop where
  node_kid : ∀ {p x}, x ∈ F.kids p → F.Node x
  node_parent : ∀ {p x}, x ∈ F.kids p → F.Node p
  nodup : ∀ p, (F.kids p).Nodup
  unique : ∀ {p q x}, x ∈ F.kids p → x ∈ F.kids q → p = q
  acyclic : ∃ rank : ι → ℕ, ∀ p, ∀ x ∈ F.kids p, rank x < rank p

variable {F : Forest ι δ} {p q x y : ι} {xs : List ι}

theorem proper_empty : (empty : Forest ι δ).Proper where
  node_kid h := absurd h (by simp [empty])
  node_parent h := absurd h (by simp [empty])
  nodup _ := by simp [empty]
  unique h := absurd h (by simp [empty])
  acyclic := ⟨fun _ => 0, by simp [empty]⟩

/-! ### What stands below a node -/

theorem Below.refl (x : ι) : F.Below x x := Relation.ReflTransGen.refl

theorem Below.trans (hxy : F.Below x y) {z : ι} (hyz : F.Below y z) : F.Below x z :=
  Relation.ReflTransGen.trans hxy hyz

theorem below_of_mem_kids (h : x ∈ F.kids p) : F.Below p x := .single h

/-- Below a node stand the node and what is below its children. -/
theorem below_iff : F.Below x y ↔ x = y ∨ ∃ k ∈ F.kids x, F.Below k y := by
  refine ⟨fun h => ?_, ?_⟩
  · rcases Relation.ReflTransGen.cases_head h with rfl | ⟨k, hk, hky⟩
    · exact .inl rfl
    · exact .inr ⟨k, hk, hky⟩
  · rintro (rfl | ⟨k, hk, hky⟩)
    · exact .refl x
    · exact (below_of_mem_kids hk).trans hky

/-- A node below another is that one or has its parent below it. -/
theorem Below.eq_or_parent (h : F.Below x y) : x = y ∨ ∃ p, y ∈ F.kids p ∧ F.Below x p := by
  rcases Relation.ReflTransGen.cases_tail h with rfl | ⟨p, hp, hy⟩
  · exact .inl rfl
  · exact .inr ⟨p, hy, hp⟩

namespace Proper

theorem rank_below {rank : ι → ℕ} (hrank : ∀ p, ∀ x ∈ F.kids p, rank x < rank p)
    (h : F.Below x y) : rank y ≤ rank x := by
  induction h with
  | refl => exact Nat.le_refl _
  | tail _ hy ih => exact Nat.le_trans (Nat.le_of_lt (hrank _ _ hy)) ih

/-- What holds of a node when it holds of all its children holds of every node. -/
theorem recursion (h : F.Proper) {P : ι → Prop} (hstep : ∀ p, (∀ x ∈ F.kids p, P x) → P p) (p : ι) :
    P p := by
  obtain ⟨rank, hrank⟩ := h.acyclic
  induction hn : rank p using Nat.strongRecOn generalizing p with
  | ind n ih =>
      subst hn
      exact hstep p fun x hx => ih (rank x) (hrank p x hx) x rfl

/-- No node is below one of its children. -/
theorem not_below_kid (h : F.Proper) (hx : x ∈ F.kids p) : ¬ F.Below x p := by
  obtain ⟨rank, hrank⟩ := h.acyclic
  intro hbelow
  exact absurd (hrank p x hx) (Nat.not_lt.mpr (rank_below hrank hbelow))

theorem node_of_below (h : F.Proper) (hx : F.Node x) (hxy : F.Below x y) : F.Node y := by
  rcases hxy.eq_or_parent with rfl | ⟨p, hy, -⟩
  · exact hx
  · exact h.node_kid hy

/-- Of two nodes that stand above a third, one stands above the other. -/
theorem below_or_below (h : F.Proper) {z : ι} (hx : F.Below x z) (hy : F.Below y z) :
    F.Below x y ∨ F.Below y x := by
  induction hx with
  | refl => exact .inr hy
  | @tail p z hxp hz ih =>
      rcases hy.eq_or_parent with rfl | ⟨q, hzq, hyq⟩
      · exact .inl (hxp.trans (below_of_mem_kids hz))
      · obtain rfl := h.unique hz hzq
        exact ih hyq

/-- Where there are finitely many nodes, each of them is below a root. -/
theorem exists_root (h : F.Proper) {s : Finset ι} (hs : ∀ y, F.Node y → y ∈ s) (hx : F.Node x) :
    ∃ y, F.Root y ∧ F.Below y x := by
  classical
  obtain ⟨rank, hrank⟩ := h.acyclic
  obtain ⟨y, hy, hmax⟩ := Finset.exists_max_image (s.filter fun y => F.Node y ∧ F.Below y x) rank
    ⟨x, by simp [hs x hx, hx, Below.refl]⟩
  simp only [Finset.mem_filter] at hy hmax
  refine ⟨y, ⟨hy.2.1, fun p hp => ?_⟩, hy.2.2⟩
  -- the parent would stand higher
  have hparent := h.node_parent hp
  have hle := hmax p ⟨hs p hparent, hparent, (below_of_mem_kids hp).trans hy.2.2⟩
  exact absurd (hrank p y hp) (Nat.not_lt.mpr hle)

theorem kids_eq_nil (h : F.Proper) (hx : ¬ F.Node x) : F.kids x = [] := by
  rw [List.eq_nil_iff_forall_not_mem]
  exact fun y hy => hx (h.node_parent hy)

/-- Two children of one node have nothing below them in common. -/
theorem below_unique (h : F.Proper) {z : ι} (hx : x ∈ F.kids p) (hy : y ∈ F.kids p)
    (hxz : F.Below x z) (hyz : F.Below y z) : x = y := by
  have key : ∀ {x y}, x ∈ F.kids p → y ∈ F.kids p → F.Below x y → x = y := by
    intro x y hx hy hxy
    rcases hxy.eq_or_parent with rfl | ⟨q, hyq, hxq⟩
    · rfl
    · obtain rfl := h.unique hy hyq
      exact absurd hxq (h.not_below_kid hx)
  rcases h.below_or_below hxz hyz with hxy | hyx
  · exact key hx hy hxy
  · exact (key hy hx hyx).symm

end Proper

/-! ### Forests that change -/

open Classical in
/-- A node goes, with all that is below it. -/
noncomputable def prune (F : Forest ι δ) (x : ι) : Forest ι δ where
  label y := if F.Below x y then none else F.label y
  kids y := if F.Below x y then [] else F.kids y

theorem node_prune_iff : (F.prune x).Node y ↔ F.Node y ∧ ¬ F.Below x y := by
  by_cases h : F.Below x y <;> simp [Node, prune, h]

theorem mem_kids_prune_iff : y ∈ (F.prune x).kids p ↔ y ∈ F.kids p ∧ ¬ F.Below x p := by
  by_cases h : F.Below x p <;> simp [prune, h]

/-- A root goes: what is left is as before. -/
theorem Proper.prune (h : F.Proper) (hx : F.Root x) : (F.prune x).Proper where
  node_kid := by
    intro p y hy
    obtain ⟨hy, hp⟩ := mem_kids_prune_iff.mp hy
    refine node_prune_iff.mpr ⟨h.node_kid hy, fun hxy => ?_⟩
    rcases hxy.eq_or_parent with rfl | ⟨q, hyq, hxq⟩
    · exact hx.2 p hy
    · obtain rfl := h.unique hy hyq
      exact hp hxq
  node_parent := by
    intro p y hy
    obtain ⟨hy, hp⟩ := mem_kids_prune_iff.mp hy
    exact node_prune_iff.mpr ⟨h.node_parent hy, hp⟩
  nodup := by
    intro p
    by_cases hp : F.Below x p
    · simp [Forest.prune, hp]
    · simpa [Forest.prune, hp] using h.nodup p
  unique hp hq := h.unique (mem_kids_prune_iff.mp hp).1 (mem_kids_prune_iff.mp hq).1
  acyclic := by
    obtain ⟨rank, hrank⟩ := h.acyclic
    exact ⟨rank, fun p y hy => hrank p y (mem_kids_prune_iff.mp hy).1⟩

section Changes

variable [DecidableEq ι]

/-- One more node, with nothing below it. -/
def add (F : Forest ι δ) (x : ι) (d : δ) : Forest ι δ where
  label := Function.update F.label x (some d)
  kids := Function.update F.kids x []

def setLabel (F : Forest ι δ) (x : ι) (d : δ) : Forest ι δ :=
  { F with label := Function.update F.label x (some d) }

def setKids (F : Forest ι δ) (p : ι) (xs : List ι) : Forest ι δ :=
  { F with kids := Function.update F.kids p xs }

theorem node_add_iff {d : δ} : (F.add x d).Node y ↔ y = x ∨ F.Node y := by
  by_cases h : y = x
  · simp [Node, add, h]
  · simp [Node, add, h]

theorem node_setLabel_iff {d : δ} (hx : F.Node x) : (F.setLabel x d).Node y ↔ F.Node y := by
  by_cases h : y = x
  · subst h
    simpa [Node, setLabel] using hx
  · simp [Node, setLabel, h]

theorem mem_kids_setKids :
    y ∈ (F.setKids p xs).kids q ↔ if q = p then y ∈ xs else y ∈ F.kids q := by
  by_cases h : q = p
  · subst h
    simp [setKids]
  · simp [setKids, h]

theorem setLabel_add (d d' : δ) : (F.add x d).setLabel x d' = F.add x d' := by
  simp [setLabel, add]

namespace Proper

theorem kids_add (h : F.Proper) (hx : ¬ F.Node x) (d : δ) : (F.add x d).kids = F.kids :=
  Function.update_eq_self_iff.mpr (h.kids_eq_nil hx).symm

theorem add (h : F.Proper) (hx : ¬ F.Node x) (d : δ) : (F.add x d).Proper := by
  have hkids := h.kids_add hx d
  constructor
  · intro p y hy
    exact node_add_iff.mpr (.inr (h.node_kid (hkids ▸ hy)))
  · intro p y hy
    exact node_add_iff.mpr (.inr (h.node_parent (hkids ▸ hy)))
  · rw [hkids]
    exact h.nodup
  · rw [hkids]
    exact h.unique
  · rw [hkids]
    exact h.acyclic

theorem root_add (h : F.Proper) (hx : ¬ F.Node x) (d : δ) : (F.add x d).Root x := by
  refine ⟨node_add_iff.mpr (.inl rfl), fun p hp => ?_⟩
  rw [h.kids_add hx d] at hp
  exact hx (h.node_kid hp)

/-- What was added goes again. -/
theorem prune_add (h : F.Proper) (hx : ¬ F.Node x) (d : δ) : (F.add x d).prune x = F := by
  have hbelow : ∀ y, (F.add x d).Below x y ↔ y = x := by
    intro y
    rw [below_iff, h.kids_add hx d, h.kids_eq_nil hx]
    simp [eq_comm]
  have hlabel : F.label x = none := not_not.mp hx
  have hkids := h.kids_eq_nil hx
  obtain ⟨label, kids⟩ := F
  simp only [Forest.prune, hbelow, mk.injEq]
  constructor
  · ext1 y
    by_cases hy : y = x
    · simp_all
    · simp [hy, Forest.add]
  · ext1 y
    by_cases hy : y = x
    · simp_all
    · simp [hy, Forest.add]

/-- A child that is not among the new children is a root. -/
theorem root_setKids (h : F.Proper) (hx : x ∈ F.kids p) (hxs : x ∉ xs) :
    (F.setKids p xs).Root x := by
  refine ⟨h.node_kid hx, fun q hq => ?_⟩
  rw [mem_kids_setKids] at hq
  split at hq
  · exact hxs hq
  next hne => exact hne (h.unique hq hx)

theorem setLabel (h : F.Proper) (hx : F.Node x) (d : δ) : (F.setLabel x d).Proper where
  node_kid hy := (node_setLabel_iff hx).mpr (h.node_kid hy)
  node_parent hy := (node_setLabel_iff hx).mpr (h.node_parent hy)
  nodup := h.nodup
  unique := h.unique
  acyclic := h.acyclic

/-- The children of a node change: each of them was one before, or is a root that the node
is not below. -/
theorem setKids (h : F.Proper) (hp : F.Node p) (hnodup : xs.Nodup)
    (hxs : ∀ x ∈ xs, x ∈ F.kids p ∨ F.Root x ∧ ¬ F.Below x p) : (F.setKids p xs).Proper where
  node_kid := by
    intro q y hy
    rw [mem_kids_setKids] at hy
    split at hy
    · rcases hxs y hy with hy | ⟨hy, -⟩
      · exact h.node_kid hy
      · exact hy.1
    · exact h.node_kid hy
  node_parent := by
    intro q y hy
    rw [mem_kids_setKids] at hy
    split at hy
    next hq => exact hq ▸ hp
    · exact h.node_parent hy
  nodup := by
    intro q
    by_cases hq : q = p
    · subst hq
      simpa [Forest.setKids] using hnodup
    · simpa [Forest.setKids, hq] using h.nodup q
  unique := by
    have hother : ∀ {q y}, y ∈ xs → y ∈ F.kids q → q = p := by
      intro q y hy hq
      rcases hxs y hy with hy | ⟨hy, -⟩
      · exact h.unique hq hy
      · exact absurd hq (hy.2 q)
    intro q q' y hq hq'
    rw [mem_kids_setKids] at hq hq'
    split at hq <;> split at hq'
    · simp_all
    · exact absurd (hother hq hq') ‹_›
    · exact absurd (hother hq' hq) ‹_›
    · exact h.unique hq hq'
  acyclic := by
    classical
    obtain ⟨rank, hrank⟩ := h.acyclic
    obtain ⟨bound, hbound⟩ : ∃ bound, ∀ x ∈ xs, rank x < bound :=
      ⟨(xs.map rank).sum + 1, fun x hx => Nat.lt_succ_of_le
        (List.le_sum_of_mem (List.mem_map_of_mem hx))⟩
    -- the node and what it is below move up together
    refine ⟨fun y => if F.Below y p then rank y + bound else rank y, fun q y hy => ?_⟩
    rw [mem_kids_setKids] at hy
    dsimp only
    split at hy
    next hq =>
      subst hq
      have hyq : ¬ F.Below y q := by
        rcases hxs y hy with hy | ⟨-, hy⟩
        · exact h.not_below_kid hy
        · exact hy
      rw [if_neg hyq, if_pos (Below.refl q)]
      have := hbound y hy
      omega
    · have hlt := hrank q y hy
      by_cases hyp : F.Below y p
      · rw [if_pos hyp, if_pos ((below_of_mem_kids hy).trans hyp)]
        omega
      · rw [if_neg hyp]
        split <;> omega

end Proper

end Changes

end Forest

end WebrtcEchoes
