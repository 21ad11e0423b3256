/-
Nodes that are linked both ways, where the first one leads to the last.

Each node knows the one after it and the one before it.  Nothing stands before the first
node, so it keeps the last one there, and a node is appended without a walk over the list.

`Follows` is one direction of such links, and the whole list is two of them: `next` along
the nodes, and `prev` along the nodes in reverse.  For each way to change a list there is a
rule that says which links are to be written: `append`, the two rules of `insert`, and the
four of `detach` and of `replace`, one for each place that the node can stand at.
`Siblings.congr` is the frame rule: links of other nodes do not matter.
-/
import Mathlib.Data.List.Basic
import Mathlib.Data.List.Nodup
import Mathlib.Logic.Function.Basic

namespace WebrtcEchoes

variable {ι : Type}

/-! ### Links in one direction -/

/-- Each of the nodes has the link to the next one, and the last one the link `z`. -/
def Follows (f : ι → Option ι) : List ι → Option ι → Prop
  | [], _ => True
  | x :: xs, z => f x = xs.head?.or z ∧ Follows f xs z

namespace Follows

variable {f g : ι → Option ι} {xs ys : List ι} {x : ι} {z : Option ι}

@[simp] theorem nil : Follows f [] z := trivial

@[simp] theorem cons_iff : Follows f (x :: xs) z ↔ f x = xs.head?.or z ∧ Follows f xs z := Iff.rfl

theorem append_iff : Follows f (xs ++ ys) z ↔ Follows f xs (ys.head?.or z) ∧ Follows f ys z := by
  induction xs with
  | nil => simp
  | cons x xs ih =>
      rw [List.cons_append, cons_iff, cons_iff, ih, List.head?_append, Option.or_assoc, and_assoc]

theorem append_cons_iff : Follows f (xs ++ x :: ys) z ↔
    Follows f xs (some x) ∧ f x = ys.head?.or z ∧ Follows f ys z := by
  rw [append_iff, cons_iff, List.head?_cons, Option.some_or]

theorem congr (h : Follows f xs z) (hfg : ∀ x ∈ xs, g x = f x) : Follows g xs z := by
  induction xs with
  | nil => trivial
  | cons x xs ih =>
      obtain ⟨hx, hxs⟩ := h
      refine ⟨(hfg x (by simp)).trans hx, ih hxs ?_⟩
      intro y hy
      exact hfg y (by simp [hy])

/-- The link of the node at a place is the node at the next place. -/
theorem getElem? (h : Follows f xs z) {i : ℕ} (hi : xs[i]? = some x) : f x = xs[i + 1]?.or z := by
  induction xs generalizing i with
  | nil => simp at hi
  | cons y xs ih =>
      cases i with
      | zero =>
          obtain rfl : y = x := by simpa using hi
          rw [h.1, List.getElem?_cons_succ, List.head?_eq_getElem?]
      | succ i =>
          rw [List.getElem?_cons_succ] at hi ⊢
          exact ih h.2 hi

variable [DecidableEq ι]

theorem update (h : Follows f xs z) {y : ι} {v : Option ι} (hy : y ∉ xs) :
    Follows (Function.update f y v) xs z := by
  refine h.congr fun x hx => ?_
  exact Function.update_of_ne (ne_of_mem_of_not_mem hx hy) _ _

/-- One link is written anew, and the nodes before and behind it are others. -/
theorem redirect {l r : List ι} {p : ι} {v : Option ι} (hl : Follows f l (some p))
    (hr : Follows f r z) (hpl : p ∉ l) (hpr : p ∉ r) (hv : v = r.head?.or z) :
    Follows (Function.update f p v) (l ++ p :: r) z := by
  rw [append_cons_iff, Function.update_self]
  exact ⟨hl.update hpl, hv, hr.update hpr⟩

end Follows

/-! ### Links in both directions -/

/-- The nodes of a whole list, the first of which has the last one for the one before. -/
structure Siblings (next prev : ι → Option ι) (xs : List ι) : Prop where
  forth : Follows next xs none
  back : Follows prev xs.reverse xs.getLast?

namespace Siblings

variable {next prev next' prev' : ι → Option ι} {l r xs : List ι}
  {x y p n first last : ι}

@[simp] theorem nil : Siblings next prev [] := ⟨trivial, trivial⟩

/-- The frame rule. -/
theorem congr (h : Siblings next prev xs) (hnext : ∀ x ∈ xs, next' x = next x)
    (hprev : ∀ x ∈ xs, prev' x = prev x) : Siblings next' prev' xs :=
  ⟨h.forth.congr hnext, h.back.congr fun x hx => hprev x (List.mem_reverse.mp hx)⟩

/-- The links back, seen from one of the nodes. -/
theorem back_iff : Follows prev (l ++ x :: r).reverse (l ++ x :: r).getLast? ↔
    Follows prev r.reverse (some x) ∧ prev x = l.getLast?.or (x :: r).getLast? ∧
      Follows prev l.reverse (x :: r).getLast? := by
  have hlast : (l ++ x :: r).getLast? = (x :: r).getLast? := by
    rw [List.getLast?_append, List.getLast?_cons, Option.some_or]
  rw [hlast, List.reverse_append, List.reverse_cons, List.append_assoc, List.singleton_append,
    Follows.append_cons_iff, List.head?_reverse]

/-- The first node leads to the last. -/
theorem prev_head (h : Siblings next prev (x :: xs)) : prev x = (x :: xs).getLast? :=
  (back_iff (l := []).mp h.back).2.1

/-- Every other node leads to the one before. -/
theorem prev_of_append (h : Siblings next prev (l ++ p :: x :: r)) : prev x = some p := by
  have hback : Follows prev ((l ++ [p]) ++ x :: r).reverse ((l ++ [p]) ++ x :: r).getLast? := by
    simpa using h.back
  simpa using (back_iff.mp hback).2.1

theorem next_of_append (h : Siblings next prev (l ++ x :: r)) : next x = r.head? := by
  simpa using (Follows.append_cons_iff.mp h.forth).2.1

/-- Behind the node at a place stands the one at the next place. -/
theorem next_getElem? (h : Siblings next prev xs) {i : ℕ} (hi : xs[i]? = some x) :
    next x = xs[i + 1]? := by
  simpa using h.forth.getElem? hi

/-- The links back of a list of several nodes, but for the two that name its last node. -/
theorem back_last (h : Siblings next prev (l ++ [p, x])) (hnodup : (l ++ [p, x]).Nodup)
    (hfirst : (l ++ [p]).head? = some first) :
    ∃ ys, l ++ [p] = first :: ys ∧ first ∉ ys ∧ Follows prev ys.reverse (some first) := by
  obtain ⟨ys, hys⟩ := List.head?_eq_some_iff.mp hfirst
  have hsplit : l ++ [p, x] = (l ++ [p]) ++ [x] := by simp
  rw [hsplit] at h hnodup
  obtain ⟨-, -, hl⟩ := back_iff.mp h.back
  rw [hys, List.reverse_cons, Follows.append_cons_iff] at hl
  have hfirstNodup : (first :: ys).Nodup := hys ▸ (List.nodup_append.mp hnodup).1
  exact ⟨ys, hys, (List.nodup_cons.mp hfirstNodup).1, hl.1⟩

section Writes

variable [DecidableEq ι]

open Function (update)

theorem singleton (x : ι) : Siblings (update next x none) (update prev x (some x)) [x] := by
  constructor <;> simp

/-- A node is appended behind the last one, which the first one leads to. -/
theorem append (h : Siblings next prev xs) (hnodup : (xs ++ [x]).Nodup)
    (hfirst : xs.head? = some first) (hlast : xs.getLast? = some last) (hnext : next x = none) :
    Siblings (update next last (some x)) (update (update prev x (some last)) first (some x))
      (xs ++ [x]) := by
  constructor
  · obtain ⟨ys, rfl⟩ := List.getLast?_eq_some_iff.mp hlast
    have hforth := Follows.append_cons_iff.mp h.forth
    rw [List.append_assoc, List.singleton_append] at hnodup ⊢
    exact Follows.redirect hforth.1 (by simpa using hnext) (by grind) (by grind) rfl
  · obtain ⟨ys, rfl⟩ := List.head?_eq_some_iff.mp hfirst
    have hback := h.back
    rw [List.reverse_cons, Follows.append_cons_iff] at hback
    have hbehind : some last = (ys.reverse ++ [first]).head?.or (some x) := by
      rw [← List.reverse_cons, List.head?_reverse, hlast, Option.some_or]
    rw [List.getLast?_concat, List.reverse_concat, List.reverse_cons, Follows.cons_iff,
      Function.update_of_ne (by grind), Function.update_self]
    exact ⟨hbehind, Follows.redirect (hback.1.update (by grind)) trivial (by grind) (by grind) rfl⟩

/-- A node before another one, as far as the links back go. -/
theorem back_insert (h : Siblings next prev (l ++ y :: r)) (hnodup : (l ++ x :: y :: r).Nodup) :
    Follows (update (update prev x (prev y)) y (some x)) (l ++ x :: y :: r).reverse
      (l ++ x :: y :: r).getLast? := by
  obtain ⟨hr, hy, hl⟩ := back_iff.mp h.back
  rw [back_iff, List.reverse_cons, List.getLast?_cons_cons]
  refine ⟨Follows.redirect (hr.update (by grind)) trivial (by grind) (by grind) rfl, ?_, ?_⟩
  · rw [Function.update_of_ne (by grind), Function.update_self, hy]
  · exact (hl.update (by grind)).update (by grind)

/-- A node is put before the first one. -/
theorem insertFirst (h : Siblings next prev (y :: r)) (hnodup : (x :: y :: r).Nodup) :
    Siblings (update next x (some y)) (update (update prev x (prev y)) y (some x))
      (x :: y :: r) := by
  refine ⟨?_, back_insert (l := []) h hnodup⟩
  rw [Follows.cons_iff, Function.update_self]
  exact ⟨rfl, h.forth.update (by grind)⟩

/-- A node is put before another one that is not the first. -/
theorem insert (h : Siblings next prev (l ++ p :: y :: r))
    (hnodup : (l ++ p :: x :: y :: r).Nodup) :
    Siblings (update (update next x (some y)) p (some x))
      (update (update prev x (prev y)) y (some x)) (l ++ p :: x :: y :: r) := by
  have hback := back_insert (l := l ++ [p]) (x := x) (by simpa using h) (by simpa using hnodup)
  refine ⟨?_, by simpa using hback⟩
  obtain ⟨hl, -, hr⟩ := Follows.append_cons_iff.mp h.forth
  refine Follows.redirect (hl.update (by grind)) ?_ (by grind) (by grind) rfl
  rw [Follows.cons_iff, Function.update_self]
  exact ⟨rfl, hr.update (by grind)⟩

/-- The node behind a node that is taken out leads to the one before. -/
theorem back_detach (h : Siblings next prev (l ++ x :: n :: r))
    (hnodup : (l ++ x :: n :: r).Nodup) :
    Follows (update prev n (prev x)) (l ++ n :: r).reverse (l ++ n :: r).getLast? := by
  obtain ⟨hr, hx, hl⟩ := back_iff.mp h.back
  rw [List.reverse_cons, Follows.append_cons_iff] at hr
  rw [List.getLast?_cons_cons] at hx hl
  rw [back_iff, Function.update_self]
  exact ⟨hr.1.update (by grind), hx, hl.update (by grind)⟩

theorem detachFirst (h : Siblings next prev (x :: n :: r)) (hnodup : (x :: n :: r).Nodup) :
    Siblings next (update prev n (prev x)) (n :: r) :=
  ⟨h.forth.2, back_detach (l := []) h hnodup⟩

theorem forth_detach (h : Siblings next prev (l ++ p :: x :: r))
    (hnodup : (l ++ p :: x :: r).Nodup) :
    Follows (update next p (next x)) (l ++ p :: r) none := by
  obtain ⟨hl, -, hx, hr⟩ := Follows.append_cons_iff.mp h.forth
  exact Follows.redirect hl hr (by grind) (by grind) hx

theorem detachMiddle (h : Siblings next prev (l ++ p :: x :: n :: r))
    (hnodup : (l ++ p :: x :: n :: r).Nodup) :
    Siblings (update next p (next x)) (update prev n (prev x)) (l ++ p :: n :: r) := by
  have hback := back_detach (l := l ++ [p]) (by simpa using h) (by simpa using hnodup)
  exact ⟨forth_detach h hnodup, by simpa using hback⟩

theorem forth_replace (h : Siblings next prev (l ++ p :: x :: r))
    (hnodup : (l ++ p :: x :: r).Nodup) (hy : y ∉ l ++ p :: x :: r) :
    Follows (update (update next y (next x)) p (some y)) (l ++ p :: y :: r) none := by
  obtain ⟨hl, -, hx, hr⟩ := Follows.append_cons_iff.mp h.forth
  refine Follows.redirect (hl.update (by grind)) ?_ (by grind) (by grind) rfl
  rw [Follows.cons_iff, Function.update_self]
  exact ⟨hx, hr.update (by grind)⟩

theorem back_replace (h : Siblings next prev (l ++ x :: n :: r)) (hnodup : (l ++ x :: n :: r).Nodup)
    (hyl : y ∉ l) (hyr : y ∉ n :: r) :
    Follows (update (update prev y (prev x)) n (some y)) (l ++ y :: n :: r).reverse
      (l ++ y :: n :: r).getLast? := by
  obtain ⟨hr, hx, hl⟩ := back_iff.mp h.back
  rw [List.reverse_cons, Follows.append_cons_iff] at hr
  rw [List.getLast?_cons_cons] at hx hl
  rw [back_iff, List.getLast?_cons_cons, List.reverse_cons, Function.update_of_ne (by grind),
    Function.update_self]
  refine ⟨Follows.redirect (hr.1.update (by grind)) trivial (by grind) (by grind) rfl, hx, ?_⟩
  exact (hl.update (by grind)).update (by grind)

/-- Without the last node, the first one leads to the one before that. -/
theorem detachLast (h : Siblings next prev (l ++ [p, x])) (hnodup : (l ++ [p, x]).Nodup)
    (hfirst : (l ++ [p]).head? = some first) :
    Siblings (update next p (next x)) (update prev first (prev x)) (l ++ [p]) := by
  refine ⟨forth_detach h hnodup, ?_⟩
  obtain ⟨ys, hys, hfirst, hl⟩ := back_last h hnodup hfirst
  have hx : prev x = some p := prev_of_append h
  rw [List.getLast?_concat, hx, hys, List.reverse_cons]
  exact Follows.redirect hl trivial (by simpa using hfirst) (by simp) rfl

/-- A node in the place of the first of several. -/
theorem replaceFirst (h : Siblings next prev (x :: n :: r)) (hnodup : (x :: n :: r).Nodup)
    (hy : y ∉ n :: r) :
    Siblings (update next y (next x)) (update (update prev y (prev x)) n (some y))
      (y :: n :: r) := by
  refine ⟨?_, back_replace (l := []) h hnodup (by simp) hy⟩
  rw [Follows.cons_iff, Function.update_self]
  exact ⟨h.forth.1, h.forth.2.update hy⟩

theorem replaceMiddle (h : Siblings next prev (l ++ p :: x :: n :: r))
    (hnodup : (l ++ p :: x :: n :: r).Nodup) (hy : y ∉ l ++ p :: x :: n :: r) :
    Siblings (update (update next y (next x)) p (some y))
      (update (update prev y (prev x)) n (some y)) (l ++ p :: y :: n :: r) := by
  have hback := back_replace (l := l ++ [p]) (y := y) (by simpa using h) (by simpa using hnodup)
    (by grind) (by grind)
  exact ⟨forth_replace h hnodup hy, by simpa using hback⟩

/-- A node in the place of the last one, which the first one now leads to. -/
theorem replaceLast (h : Siblings next prev (l ++ [p, x])) (hnodup : (l ++ [p, x]).Nodup)
    (hy : y ∉ l ++ [p, x]) (hfirst : (l ++ [p]).head? = some first) :
    Siblings (update (update next y (next x)) p (some y))
      (update (update prev y (prev x)) first (some y)) (l ++ [p, y]) := by
  refine ⟨forth_replace h hnodup hy, ?_⟩
  obtain ⟨ys, hys, hfirst, hl⟩ := back_last h hnodup hfirst
  have hx : prev x = some p := prev_of_append h
  have hreverse : (l ++ [p, y]).reverse = y :: (ys.reverse ++ [first]) := by
    rw [← List.reverse_cons, ← hys]
    simp
  have hlast : (ys.reverse ++ [first]).head? = some p := by
    rw [← List.reverse_cons, ← hys, List.head?_reverse, List.getLast?_concat]
  have hother : y ∉ first :: ys := by
    rw [← hys]
    grind
  obtain ⟨hne, hother⟩ := List.ne_and_not_mem_of_not_mem_cons hother
  rw [hreverse, show (l ++ [p, y]).getLast? = some y by simp, Follows.cons_iff,
    Function.update_of_ne hne, Function.update_self, hlast]
  refine ⟨hx, Follows.redirect (hl.update ?_) trivial ?_ (by simp) rfl⟩
  · simpa using hother
  · simpa using hfirst

end Writes

end Siblings

end WebrtcEchoes
