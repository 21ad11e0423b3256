/-
A source that is completed at most once.

It is what a promise, a future or a `TaskCompletionSource` is to the parties that
complete it.  Each of them either insists, and then fails when another was first, or
tries, and then does nothing.  What a source holds once it is completed never changes.
-/
namespace WebrtcEchoes

/-- What a one-shot source holds. -/
inductive Completion (α : Type)
  | pending
  | result (a : α)
  | canceled
  deriving DecidableEq, Repr

namespace Completion

variable {α : Type} {c c' : Completion α} {a : α}

/-- Complete with a result; `none` when the source is completed already. -/
def setResult (a : α) : Completion α → Option (Completion α)
  | .pending => some (.result a)
  | _ => none

/-- Cancel; `none` when the source is completed already. -/
def setCanceled : Completion α → Option (Completion α)
  | .pending => some .canceled
  | _ => none

/-- Cancel, unless the source is completed already. -/
def trySetCanceled : Completion α → Completion α
  | .pending => .canceled
  | c => c

/-- How often the source has been completed. -/
def count : Completion α → Nat
  | .pending => 0
  | _ => 1

@[simp] theorem setResult_eq_some_iff :
    c.setResult a = some c' ↔ c = .pending ∧ c' = .result a := by
  cases c <;> simp [setResult, eq_comm]

@[simp] theorem setResult_eq_none_iff : c.setResult a = none ↔ c ≠ .pending := by
  cases c <;> simp [setResult]

@[simp] theorem setCanceled_eq_some_iff :
    c.setCanceled = some c' ↔ c = .pending ∧ c' = .canceled := by
  cases c <;> simp [setCanceled, eq_comm]

@[simp] theorem setCanceled_eq_none_iff : c.setCanceled = none ↔ c ≠ .pending := by
  cases c <;> simp [setCanceled]

theorem trySetCanceled_of_ne (h : c ≠ .pending) : c.trySetCanceled = c := by
  cases c with
  | pending => exact absurd rfl h
  | _ => rfl

@[simp] theorem trySetCanceled_ne_pending : c.trySetCanceled ≠ .pending := by
  cases c <;> simp [trySetCanceled]

@[simp] theorem trySetCanceled_eq_result_iff : c.trySetCanceled = .result a ↔ c = .result a := by
  cases c <;> simp [trySetCanceled]

theorem count_le_one : c.count ≤ 1 := by
  cases c <;> simp [count]

end Completion

end WebrtcEchoes
