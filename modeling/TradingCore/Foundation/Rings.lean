import Mathlib.Data.Nat.ModEq
import Mathlib.Logic.Function.Basic

/-! Windows of consecutive numbers over slots that are used again and again. -/

universe u v

namespace Rings

variable {κ : Type u} {β : Type v}

/-- Two numbers that share a slot are at least `size` apart. -/
def Apart (slot : Nat → κ) (size : Nat) : Prop :=
  ∀ first second, first < second → slot first = slot second → first + size ≤ second

/-- The slots from the first number on hold these values one after the other. -/
def Holds (slots : κ → β) (slot : Nat → κ) : Nat → List β → Prop
  | _, [] => True
  | first, value :: rest => slots (slot first) = value ∧ Holds slots slot (first + 1) rest

theorem apart_mod (size : Nat) : Apart (fun seq => seq % size) size := by
  intro first second before same
  have divides : size ∣ second - first := (Nat.modEq_iff_dvd' (Nat.le_of_lt before)).mp same
  have distance := Nat.le_of_dvd (Nat.sub_pos_of_lt before) divides
  omega

theorem Apart.of_eq {slot : Nat → κ} {other : Nat → β} {size : Nat} (apart : Apart slot size)
    (same : ∀ first second, other first = other second → slot first = slot second) : Apart other size := by
  intro first second before equal
  exact apart first second before (same first second equal)

variable {slots : κ → β} {slot : Nat → κ} {size first : Nat} {values : List β}

theorem holds_append (more : List β) :
    Holds slots slot first (values ++ more) ↔
      Holds slots slot first values ∧ Holds slots slot (first + values.length) more := by
  induction values generalizing first with
  | nil => exact (iff_of_eq (true_and _)).symm
  | cons value rest ih =>
    have shifted : first + 1 + rest.length = first + (value :: rest).length := by
      rw [List.length_cons, Nat.add_right_comm, Nat.add_assoc]
    rw [List.cons_append, Holds, Holds, ih, and_assoc, shifted]

theorem Holds.update [DecidableEq κ] (holds : Holds slots slot first values) {changed : κ}
    (outside : ∀ seq, first ≤ seq → seq < first + values.length → slot seq ≠ changed) (value : β) :
    Holds (Function.update slots changed value) slot first values := by
  induction values generalizing first with
  | nil => exact trivial
  | cons head rest ih =>
    refine ⟨?_, ih holds.2 ?_⟩
    · rw [Function.update_of_ne (outside first (Nat.le_refl first) (by simp))]
      exact holds.1
    · intro seq after before
      apply outside seq (Nat.le_of_succ_le after)
      rw [List.length_cons]
      omega

theorem Apart.ne (apart : Apart slot size) {seq other : Nat} (different : seq < other) (near : other < seq + size) :
    slot seq ≠ slot other := by
  intro same
  exact Nat.not_le_of_lt near (apart seq other different same)

end Rings
