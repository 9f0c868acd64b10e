import Mathlib.Order.Basic

/-! Loops that may never end, as a step that goes on or leaves with a result. They
run under a bound on the number of steps, and end if some bound is enough. -/

universe u v w x

namespace Loops

variable {σ : Type u} {ρ : Type v}

def iterate (step : σ → σ ⊕ ρ) : Nat → σ → Option ρ
  | 0, _ => none
  | steps + 1, state => (step state).elim (iterate step steps) some

def Terminates (step : σ → σ ⊕ ρ) (state : σ) : Prop := ∃ steps result, iterate step steps state = some result

variable {step : σ → σ ⊕ ρ}

theorem iterate_goes {state next : σ} (goes : step state = .inl next) (steps : Nat) :
    iterate step (steps + 1) state = iterate step steps next := by
  rw [iterate, goes, Sum.elim_inl]

theorem iterate_leaves {state : σ} {result : ρ} (leaves : step state = .inr result) (steps : Nat) :
    iterate step (steps + 1) state = some result := by
  rw [iterate, leaves, Sum.elim_inr]

/-- A loop that visits states one after the other leaves from the last of them. -/
theorem iterate_visits (visit : Nat → σ) (count : Nat) {result : ρ} {steps : Nat}
    (goes : ∀ round < count, step (visit round) = .inl (visit (round + 1)))
    (leaves : step (visit count) = .inr result) (enough : count < steps) :
    iterate step steps (visit 0) = some result := by
  induction count generalizing visit steps with
  | zero =>
    obtain ⟨more, rfl⟩ := Nat.exists_eq_add_of_lt enough
    exact iterate_leaves leaves _
  | succ count ih =>
    obtain ⟨more, rfl⟩ := Nat.exists_eq_add_of_lt enough
    rw [iterate_goes (goes 0 (Nat.succ_pos count))]
    apply ih (fun round => visit (round + 1))
    · exact fun round less => goes (round + 1) (Nat.succ_lt_succ less)
    · exact leaves
    · exact Nat.lt_of_succ_lt_succ enough

/-- A measure that falls with every step bounds the steps, and what an invariant
says about every exit holds of the result. -/
theorem ends_of_measure {Invariant : σ → Prop} {Right : ρ → Prop} (measure : σ → Nat)
    (goes : ∀ state next, Invariant state → step state = .inl next → Invariant next ∧ measure next < measure state)
    (leaves : ∀ state result, Invariant state → step state = .inr result → Right result) {state : σ}
    (holds : Invariant state) :
    ∃ result, (∀ steps, measure state < steps → iterate step steps state = some result) ∧ Right result := by
  induction bound : measure state using Nat.strongRecOn generalizing state with
  | ind bound ih =>
    cases moved : step state with
    | inl next =>
      obtain ⟨kept, less⟩ := goes state next holds moved
      rw [bound] at less
      obtain ⟨result, ends, right⟩ := ih (measure next) less kept rfl
      refine ⟨result, fun steps enough => ?_, right⟩
      obtain ⟨more, rfl⟩ := Nat.exists_eq_add_of_lt enough
      rw [iterate_goes moved]
      exact ends _ (Nat.lt_of_lt_of_le less (Nat.le_of_lt_succ enough))
    | inr result =>
      refine ⟨result, fun steps enough => ?_, leaves state result holds moved⟩
      obtain ⟨more, rfl⟩ := Nat.exists_eq_add_of_lt enough
      exact iterate_leaves moved _

/-- A loop never ends if it always goes on to where it goes on again. -/
theorem not_terminates {Stuck : σ → Prop} (goes : ∀ state, Stuck state → ∃ next, step state = .inl next ∧ Stuck next)
    {state : σ} (stuck : Stuck state) : ¬ Terminates step state := by
  rintro ⟨steps, result, ends⟩
  induction steps generalizing state with
  | zero => cases ends
  | succ steps ih =>
    obtain ⟨next, moved, again⟩ := goes state stuck
    rw [iterate_goes moved] at ends
    exact ih again ends

/-- A loop that does the same on translated states leaves with the translated
result. -/
theorem iterate_map {τ : Type w} {ω : Type x} {other : τ → τ ⊕ ω} {translate : σ → τ} {result : ρ → ω}
    (alike : ∀ state, other (translate state) = (step state).map translate result) (steps : Nat) (state : σ) :
    iterate other steps (translate state) = (iterate step steps state).map result := by
  induction steps generalizing state with
  | zero => rfl
  | succ steps ih =>
    cases moved : step state with
    | inl next =>
      have same := alike state
      rw [moved, Sum.map_inl] at same
      rw [iterate_goes same, iterate_goes moved, ih]
    | inr value =>
      have same := alike state
      rw [moved, Sum.map_inr] at same
      rw [iterate_leaves same, iterate_leaves moved, Option.map_some]

end Loops
