import TradingCore.Foundation.Runs

/-! Items that are waited for one after the other. What arrives before its turn
or once more is of no use, so a wanted sequence gets as far as its longest prefix
that is among the arrivals in order. -/

universe u v

namespace Arrivals

variable {α : Type u} [DecidableEq α]

/-- The part of the wanted items that arrives in order. -/
def inOrder : List α → List α → List α
  | [], _ => []
  | _ :: _, [] => []
  | want :: later, arrival :: rest =>
    if arrival = want then want :: inOrder later rest else inOrder (want :: later) rest

theorem inOrder_none (wanted : List α) : inOrder wanted [] = [] := by
  cases wanted <;> rfl

theorem inOrder_within (wanted arrivals : List α) : inOrder wanted arrivals <+: wanted := by
  induction arrivals generalizing wanted with
  | nil =>
    rw [inOrder_none]
    exact List.nil_prefix
  | cons arrival rest ih =>
    cases wanted with
    | nil => exact List.nil_prefix
    | cons want later =>
      rw [inOrder]
      split
      next => exact List.cons_prefix_cons.mpr ⟨rfl, ih later⟩
      next => exact ih (want :: later)

theorem inOrder_sublist (wanted arrivals : List α) : (inOrder wanted arrivals).Sublist arrivals := by
  induction arrivals generalizing wanted with
  | nil =>
    rw [inOrder_none]
  | cons arrival rest ih =>
    cases wanted with
    | nil => exact List.nil_sublist _
    | cons want later =>
      rw [inOrder]
      split
      next same =>
        rw [same]
        exact (ih later).cons_cons want
      next => exact (ih (want :: later)).cons arrival

/-- No longer prefix arrives in order. -/
theorem inOrder_longest {wanted arrivals pre : List α} (inside : pre <+: wanted) (arrived : pre.Sublist arrivals) :
    pre <+: inOrder wanted arrivals := by
  induction arrivals generalizing wanted pre with
  | nil =>
    rw [List.sublist_nil.mp arrived]
    exact List.nil_prefix
  | cons arrival rest ih =>
    cases pre with
    | nil => exact List.nil_prefix
    | cons first others =>
      cases wanted with
      | nil => exact absurd inside (List.prefix_nil.not.mpr (List.cons_ne_nil first others))
      | cons want later =>
        obtain ⟨rfl, shorter⟩ := List.cons_prefix_cons.mp inside
        rw [inOrder]
        split
        next same =>
          subst same
          exact List.cons_prefix_cons.mpr ⟨rfl, ih shorter (List.cons_sublist_cons.mp arrived)⟩
        next other =>
          apply ih inside
          cases arrived with
          | cons _ remaining => exact remaining
          | cons_cons _ remaining => exact absurd rfl other

variable {σ : Type v} {step : σ → α → σ} {awaits : σ → List α → Prop} {possible : α → Prop}

/-- A machine that takes what it awaits next, and nothing else that can arrive,
gets where the items that arrive in order take it. -/
theorem after_arrivals
    (takes : ∀ state want later, awaits state (want :: later) → awaits (step state want) later)
    (ignores : ∀ state wanted arrival, awaits state wanted → possible arrival → wanted.head? ≠ some arrival →
      step state arrival = state)
    {state : σ} {wanted : List α} (start : awaits state wanted) {arrivals : List α}
    (each : ∀ arrival ∈ arrivals, possible arrival) :
    Runs.after step state arrivals = Runs.after step state (inOrder wanted arrivals) := by
  induction arrivals generalizing state wanted with
  | nil => rw [inOrder_none]
  | cons arrival rest ih =>
    have first := each arrival List.mem_cons_self
    have others : ∀ other ∈ rest, possible other := fun other member => each other (List.mem_cons_of_mem arrival member)
    cases wanted with
    | nil =>
      rw [Runs.after_cons, ignores state [] arrival start first nofun, ih start others]
      cases rest <;> rfl
    | cons want later =>
      rw [inOrder]
      split
      next same =>
        subst same
        rw [Runs.after_cons, Runs.after_cons, ih (takes state arrival later start) others]
      next other =>
        have unwanted : (want :: later).head? ≠ some arrival := fun head => other (Option.some.inj head).symm
        rw [Runs.after_cons, ignores state (want :: later) arrival start first unwanted, ih start others]

end Arrivals
