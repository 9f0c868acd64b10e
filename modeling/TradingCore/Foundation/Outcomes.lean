import Mathlib.Order.Basic

/-! Computations that return a value or stop with an error: when a sequence of
them returns. -/

universe u v w

namespace Outcomes

variable {ε : Type u} {α : Type v} {β : Type v}

def Returns (result : Except ε α) : Prop := ∃ value, result = .ok value

theorem bind_eq_ok_iff {result : Except ε α} {next : α → Except ε β} {value : β} :
    result >>= next = .ok value ↔ ∃ first, result = .ok first ∧ next first = .ok value := by
  cases result with
  | error error =>
    refine iff_of_false (fun returned => ?_) (fun returned => ?_)
    · cases returned
    · obtain ⟨_, stopped, _⟩ := returned
      cases stopped
  | ok first =>
    constructor
    · intro returned
      exact ⟨first, rfl, returned⟩
    · intro returned
      obtain ⟨_, same, later⟩ := returned
      cases same
      exact later

/-- A sequence returns if its parts do, where the second part returns or not
whatever the first one returns. -/
theorem returns_bind_iff {result : Except ε α} {next : α → Except ε β} {later : Prop}
    (each : ∀ value, Returns (next value) ↔ later) : Returns (result >>= next) ↔ Returns result ∧ later := by
  constructor
  · intro returns
    obtain ⟨value, returned⟩ := returns
    obtain ⟨first, same, last⟩ := bind_eq_ok_iff.mp returned
    exact ⟨⟨first, same⟩, (each first).mp ⟨value, last⟩⟩
  · intro both
    obtain ⟨⟨first, same⟩, holds⟩ := both
    rw [same]
    exact (each first).mpr holds

theorem returns_mapM_iff {f : α → Except ε β} (inputs : List α) :
    Returns (inputs.mapM f) ↔ ∀ input ∈ inputs, Returns (f input) := by
  induction inputs with
  | nil => exact iff_of_true ⟨[], rfl⟩ (fun _ member => absurd member List.not_mem_nil)
  | cons input rest ih =>
    rw [List.mapM_cons, List.forall_mem_cons, ← ih]
    constructor
    · intro returns
      obtain ⟨_, returned⟩ := returns
      obtain ⟨first, same, later⟩ := bind_eq_ok_iff.mp returned
      obtain ⟨others, traversed, _⟩ := bind_eq_ok_iff.mp later
      exact ⟨⟨first, same⟩, others, traversed⟩
    · intro both
      obtain ⟨⟨first, same⟩, others, traversed⟩ := both
      rw [same, traversed]
      exact ⟨first :: others, rfl⟩

/-- If what an input returns is known, so is what all of them return. -/
theorem mapM_eq_map {f : α → Except ε β} {g : α → β} (each : ∀ input value, f input = .ok value → value = g input)
    {inputs : List α} {outputs : List β} (returned : inputs.mapM f = .ok outputs) : outputs = inputs.map g := by
  induction inputs generalizing outputs with
  | nil =>
    cases returned
    rfl
  | cons input rest ih =>
    rw [List.mapM_cons] at returned
    obtain ⟨first, same, later⟩ := bind_eq_ok_iff.mp returned
    obtain ⟨others, traversed, last⟩ := bind_eq_ok_iff.mp later
    cases last
    rw [each input first same, ih traversed, List.map_cons]

end Outcomes
