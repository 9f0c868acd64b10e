import Mathlib.Algebra.BigOperators.Group.Finset.Piecewise
import Mathlib.Data.Fintype.Basic

/-! Any finite number of threads, each in a phase of its own. What the phases
weigh together changes with the one thread that moves. -/

universe u v

namespace Threads

variable {ι : Type u} {φ : Type v} [Fintype ι]

def total (weight : φ → Nat) (phases : ι → φ) : Nat := ∑ thread, weight (phases thread)

theorem exists_of_total {weight : φ → Nat} {phases : ι → φ} (positive : 0 < total weight phases) :
    ∃ thread, 0 < weight (phases thread) := by
  obtain ⟨thread, _, weighs⟩ := Finset.exists_ne_zero_of_sum_ne_zero (Nat.ne_of_gt positive)
  exact ⟨thread, Nat.pos_of_ne_zero weighs⟩

variable [DecidableEq ι]

theorem total_update (weight : φ → Nat) (phases : ι → φ) (thread : ι) (phase : φ) :
    total weight (Function.update phases thread phase) + weight (phases thread) =
      total weight phases + weight phase := by
  have moved : ∀ other ∈ Finset.univ.erase thread,
      weight (Function.update phases thread phase other) = weight (phases other) := by
    intro other member
    rw [Function.update_of_ne (Finset.ne_of_mem_erase member)]
  rw [total, total, ← Finset.add_sum_erase _ _ (Finset.mem_univ thread), Finset.sum_congr rfl moved,
    Function.update_self, ← Finset.add_sum_erase _ (fun thread => weight (phases thread)) (Finset.mem_univ thread)]
  omega

end Threads
