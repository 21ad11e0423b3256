/-
The lines of a text.

A program that reads a file line by line sees its records: what stands between two
terminators, without an empty record behind a terminator at the very end.  A program
that prints line by line puts a terminator behind everything it prints, and what it
prints may itself consist of several lines.
-/
import Mathlib.Data.List.Basic

namespace WebrtcEchoes.Lines

variable {α : Type} {nl : α}

/-- The text that comes of printing. -/
def terminate (nl : α) (prints : List (List α)) : List α := prints.flatMap fun p => p ++ [nl]

theorem terminate_append (ps qs : List (List α)) :
    terminate nl (ps ++ qs) = terminate nl ps ++ terminate nl qs := List.flatMap_append

variable [DecidableEq α]

/-- The records of a text. -/
def records (nl : α) (text : List α) : List (List α) :=
  if (text.splitOn nl).getLast? = some [] then (text.splitOn nl).dropLast else text.splitOn nl

theorem splitOn_terminate {ls : List (List α)} (h : ∀ l ∈ ls, nl ∉ l) :
    (terminate nl ls).splitOn nl = ls ++ [[]] := by
  induction ls with
  | nil => exact List.splitOn_nil nl
  | cons l rest ih =>
      have hl : nl ∉ l := h l (by simp)
      have htext : terminate nl (l :: rest) = l ++ nl :: terminate nl rest := by
        simp [terminate]
      rw [htext, List.splitOn_append_cons_self_of_not_mem hl, ih fun l' hl' => h l' (by simp [hl'])]
      rfl

/-- The last line of a text may go without its terminator. -/
theorem splitOn_terminate_append {ls : List (List α)} {l : List α}
    (h : ∀ l' ∈ ls, nl ∉ l') (hl : nl ∉ l) :
    (terminate nl ls ++ l).splitOn nl = ls ++ [l] := by
  induction ls with
  | nil => simpa [terminate] using List.splitOn_eq_singleton hl
  | cons l' rest ih =>
      have hl' : nl ∉ l' := h l' (by simp)
      have htext : terminate nl (l' :: rest) ++ l = l' ++ nl :: (terminate nl rest ++ l) := by
        simp [terminate]
      rw [htext, List.splitOn_append_cons_self_of_not_mem hl', ih fun x hx => h x (by simp [hx])]
      rfl

/-- Printing lines and reading them again gives the lines. -/
theorem records_terminate {ls : List (List α)} (h : ∀ l ∈ ls, nl ∉ l) :
    records nl (terminate nl ls) = ls := by
  unfold records
  rw [splitOn_terminate h, List.getLast?_concat, if_pos rfl, List.dropLast_concat]

theorem not_mem_of_mem_splitOn {text l : List α} (h : l ∈ text.splitOn nl) : nl ∉ l := by
  induction text generalizing l with
  | nil =>
      obtain rfl : l = [] := by simpa using h
      simp
  | cons a rest ih =>
      rw [List.splitOn_cons_eq_if_modifyHead] at h
      by_cases ha : (a == nl) = true
      · rw [if_pos ha] at h
        rcases List.mem_cons.mp h with rfl | h
        · simp
        · exact ih h
      · rw [if_neg ha] at h
        cases hsplit : rest.splitOn nl with
        | nil => exact absurd hsplit (List.splitOn_ne_nil nl rest)
        | cons m ms =>
            rw [hsplit] at h
            have hmem : ∀ l' ∈ m :: ms, nl ∉ l' := fun l' hl' => ih (hsplit ▸ hl')
            rcases List.mem_cons.mp h with rfl | h
            · have hne : a ≠ nl := by simpa using ha
              simpa [hne.symm] using hmem m (by simp)
            · exact hmem l (by simp [h])

theorem not_mem_of_mem_records {text l : List α} (h : l ∈ records nl text) : nl ∉ l := by
  unfold records at h
  split at h
  · exact not_mem_of_mem_splitOn (List.dropLast_subset _ h)
  · exact not_mem_of_mem_splitOn h

theorem terminate_splitOn (p : List α) : terminate nl (p.splitOn nl) = p ++ [nl] := by
  induction p with
  | nil => rfl
  | cons a rest ih =>
      rw [List.splitOn_cons_eq_if_modifyHead]
      by_cases ha : (a == nl) = true
      · obtain rfl : a = nl := by simpa using ha
        rw [if_pos ha]
        show terminate a ([[]] ++ rest.splitOn a) = _
        rw [terminate_append, ih]
        rfl
      · rw [if_neg ha]
        cases hsplit : rest.splitOn nl with
        | nil => exact absurd hsplit (List.splitOn_ne_nil nl rest)
        | cons m ms =>
            rw [hsplit] at ih
            show a :: terminate nl (m :: ms) = a :: (rest ++ [nl])
            rw [ih]

end WebrtcEchoes.Lines
