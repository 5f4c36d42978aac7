import Mathlib.Algebra.BigOperators.Group.Finset.Piecewise
import Mathlib.Algebra.Order.BigOperators.Group.Finset
import Mathlib.Data.Multiset.AddSub

/-! # Totals over threads

What a number of threads hold together is a sum over the threads.  A step
changes one thread, and the sum changes by what this thread gains and loses.
-/

namespace Spoor.Lib.Threads

variable {τ θ M : Type*} [Fintype τ]

section Monoid

variable [AddCommMonoid M]

/-- What the threads hold together, given what each of them holds. -/
def total (f : θ → M) (threads : τ → θ) : M := ∑ t, f (threads t)

theorem total_zero {f : θ → M} {threads : τ → θ} (none : ∀ t, f (threads t) = 0) :
    total f threads = 0 :=
  Finset.sum_eq_zero fun t _ => none t

end Monoid

section Collections

variable {α : Type*} {f : θ → Multiset α} {threads : τ → θ}

theorem mem_total {a : α} : a ∈ total f threads ↔ ∃ t, a ∈ f (threads t) := by
  simp [total, Multiset.mem_sum]

/-- What two different threads hold is part of the total. -/
theorem add_le_total {t u : τ} (different : t ≠ u) :
    f (threads t) + f (threads u) ≤ total f threads := by
  classical
  rw [← Finset.sum_pair (f := fun v => f (threads v)) different]
  exact Finset.sum_le_sum_of_subset (Finset.subset_univ _)

end Collections

variable [DecidableEq τ]

/-- A thread that gains `more` and loses `less` changes the total by that. -/
theorem total_update [AddCommMonoid M] {f : θ → M} {threads : τ → θ} {t : τ} {x : θ} {less more : M}
    (change : f x + less = f (threads t) + more) :
    total f (Function.update threads t x) + less = total f threads + more := by
  have rest : total f threads = f (threads t) + ∑ u ∈ Finset.univ \ {t}, f (threads u) := by
    rw [total, ← Finset.sum_sdiff (Finset.subset_univ {t}), Finset.sum_singleton, add_comm]
  have updated : total f (Function.update threads t x) =
      f x + ∑ u ∈ Finset.univ \ {t}, f (threads u) := by
    rw [total, ← Finset.sum_sdiff (Finset.subset_univ {t}), Finset.sum_singleton,
      Function.update_self, add_comm]
    congr 1
    refine Finset.sum_congr rfl fun u other => ?_
    rw [Function.update_of_ne (by simpa using other)]
  rw [updated, rest, add_right_comm, change, add_right_comm]

theorem total_update_same [AddCommMonoid M] {f : θ → M} {threads : τ → θ} {t : τ} {x : θ}
    (same : f x = f (threads t)) : total f (Function.update threads t x) = total f threads := by
  have change : f x + 0 = f (threads t) + 0 := congrArg (· + 0) same
  simpa using total_update change

section Multisets

variable {β : Type*} {f : θ → Multiset β} {threads : τ → θ} {t : τ} {x : θ} {b : β}

theorem total_update_gains (gains : f x = b ::ₘ f (threads t)) :
    total f (Function.update threads t x) = b ::ₘ total f threads := by
  have change : f x + 0 = f (threads t) + {b} := by
    rw [gains, add_zero, Multiset.add_comm, Multiset.singleton_add]
  have updated := total_update change
  rwa [add_zero, Multiset.add_comm, Multiset.singleton_add] at updated

theorem total_update_loses (loses : f (threads t) = b ::ₘ f x) :
    total f threads = b ::ₘ total f (Function.update threads t x) := by
  have change : f x + {b} = f (threads t) + 0 := by
    rw [loses, add_zero, Multiset.add_comm, Multiset.singleton_add]
  have updated := total_update change
  rw [add_zero, Multiset.add_comm, Multiset.singleton_add] at updated
  exact updated.symm

end Multisets

end Spoor.Lib.Threads
