import Mathlib.Algebra.BigOperators.Group.List.Basic
import Mathlib.Algebra.GroupWithZero.Nat
import Mathlib.Data.List.Nodup

/-! Cells that are read one after the other and summed up while they grow. What
the sum will be if nothing grows anymore is kept by each reading and rises by no
more than the cells do, so it ends between what the cells held before and after. -/

universe u

namespace Sweeps

variable {κ : Type u} {cells grown : κ → Nat}

/-- What has been read, with what the cells that are left would add. -/
def due (cells : κ → Nat) (read : Nat) (left : List κ) : Nat := read + (left.map cells).sum

theorem due_read (cells : κ → Nat) (read : Nat) (key : κ) (left : List κ) :
    due cells (read + cells key) left = due cells read (key :: left) := by
  rw [due, due, List.map_cons, List.sum_cons, Nat.add_assoc]

theorem due_mono (rises : ∀ key, cells key ≤ grown key) (read : Nat) (left : List κ) :
    due cells read left ≤ due grown read left := by
  induction left with
  | nil => exact Nat.le_refl _
  | cons key left ih =>
    have first := rises key
    simp only [due, List.map_cons, List.sum_cons] at ih ⊢
    omega

theorem due_congr {left : List κ} (same : ∀ key ∈ left, grown key = cells key) (read : Nat) :
    due grown read left = due cells read left := by
  rw [due, due, List.map_congr_left same]

/-- No cell is read twice, so one that grows raises the sum at most once. -/
theorem due_grown {key : κ} {amount : Nat} (others : ∀ other, other ≠ key → grown other = cells other)
    (bounded : grown key ≤ cells key + amount) {left : List κ} (once : left.Nodup) (read : Nat) :
    due grown read left ≤ due cells read left + amount := by
  induction left with
  | nil => exact Nat.le_add_right _ amount
  | cons first left ih =>
    obtain ⟨absent, once⟩ := List.nodup_cons.mp once
    by_cases same : first = key
    · subst same
      have unread : due grown read left = due cells read left :=
        due_congr (fun other member => others other (ne_of_mem_of_not_mem member absent)) read
      simp only [due, List.map_cons, List.sum_cons] at unread ⊢
      omega
    · have kept := others first same
      have raised := ih once
      simp only [due, List.map_cons, List.sum_cons] at raised ⊢
      omega

end Sweeps
