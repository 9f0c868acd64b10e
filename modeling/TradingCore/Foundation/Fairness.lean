import TradingCore.Foundation.Runs

/-! Endless schedules of threads. A step of a busy thread brings the work down,
any other step changes neither the work nor who is busy. If no thread is left
out for good, there comes a time from which no thread is busy. -/

universe u v w x

namespace Fairness

variable {σ : Type u} {α : Type v} {ι : Type w}

/-- The state before the step of each index. -/
def reach (step : σ → α → σ) (state : σ) (schedule : Nat → α) : Nat → σ
  | 0 => state
  | n + 1 => step (reach step state schedule n) (schedule n)

/-- Every thread has a step again and again. -/
def Fair (runs : α → Option ι) (schedule : Nat → α) : Prop :=
  ∀ thread n, ∃ later, n ≤ later ∧ runs (schedule later) = some thread

structure Draining {β : Type x} [work_order : WellFoundedRelation β] (step : σ → α → σ) (kept : σ → Prop)
    (quiet : σ → α → Prop) (runs : α → Option ι) (busy : σ → ι → Prop) (work : σ → β) : Prop where
  preserved : ∀ state input, kept state → quiet state input → kept (step state input)
  moves : ∀ state input thread, kept state → runs input = some thread → busy state thread →
    work_order.rel (work (step state input)) (work state)
  idles : ∀ state input, kept state → quiet state input → (∀ thread, runs input = some thread → ¬ busy state thread) →
    (∀ thread, busy (step state input) thread ↔ busy state thread) ∧ work (step state input) = work state

variable {step : σ → α → σ} {runs : α → Option ι} {schedule : Nat → α}

theorem reach_prefix (state : σ) (schedule : Nat → α) (n : Nat) :
    reach step state schedule n = Runs.after step state ((List.range n).map schedule) := by
  induction n with
  | zero => rfl
  | succ n ih =>
    rw [reach, ih, List.range_succ, List.map_append, Runs.after_append]
    rfl

section
variable {β : Type x} [work_order : WellFoundedRelation β] {kept : σ → Prop} {quiet : σ → α → Prop}
  {busy : σ → ι → Prop} {work : σ → β} {state : σ}

theorem Draining.kept_reach (draining : Draining step kept quiet runs busy work) (start : kept state)
    (quietly : ∀ n, quiet (reach step state schedule n) (schedule n)) (n : Nat) :
    kept (reach step state schedule n) := by
  induction n with
  | zero => exact start
  | succ n ih => exact draining.preserved _ _ ih (quietly n)

/-- Until the turn of a busy thread comes, it stays busy or the work has
already gone down. -/
theorem Draining.falls (draining : Draining step kept quiet runs busy work) (start : kept state)
    (quietly : ∀ n, quiet (reach step state schedule n) (schedule n)) {thread : ι} {n : Nat}
    (held : busy (reach step state schedule n) thread) (wait : Nat) (turn : runs (schedule (n + wait)) = some thread) :
    ∃ later, work_order.rel (work (reach step state schedule later)) (work (reach step state schedule n)) := by
  induction wait generalizing n with
  | zero =>
    have reached := draining.kept_reach start quietly n
    exact ⟨n + 1, draining.moves _ _ thread reached turn held⟩
  | succ wait ih =>
    have reached := draining.kept_reach start quietly n
    by_cases moving : ∃ other, runs (schedule n) = some other ∧ busy (reach step state schedule n) other
    · obtain ⟨other, running, holds⟩ := moving
      exact ⟨n + 1, draining.moves _ _ other reached running holds⟩
    · have idle : ∀ other, runs (schedule n) = some other → ¬ busy (reach step state schedule n) other :=
        fun other running holds => moving ⟨other, running, holds⟩
      obtain ⟨same, unchanged⟩ := draining.idles _ _ reached (quietly n) idle
      have still : busy (reach step state schedule (n + 1)) thread := (same thread).mpr held
      rw [← Nat.succ_add_eq_add_succ] at turn
      obtain ⟨later, fallen⟩ := ih still turn
      exact ⟨later, unchanged ▸ fallen⟩

theorem Draining.rests (draining : Draining step kept quiet runs busy work) (start : kept state)
    (quietly : ∀ n, quiet (reach step state schedule n) (schedule n)) (fair : Fair runs schedule) (n : Nat) :
    ∃ later, ∀ thread, ¬ busy (reach step state schedule later) thread := by
  induction left : work (reach step state schedule n) using work_order.wf.induction generalizing n with
  | _ left ih =>
    by_cases resting : ∀ thread, ¬ busy (reach step state schedule n) thread
    · exact ⟨n, resting⟩
    · rw [not_forall_not] at resting
      obtain ⟨thread, held⟩ := resting
      obtain ⟨turn, after, running⟩ := fair thread n
      obtain ⟨wait, rfl⟩ := Nat.exists_eq_add_of_le after
      obtain ⟨later, fallen⟩ := draining.falls start quietly held wait running
      exact ih _ (left ▸ fallen) later rfl

/-- No thread becomes busy again by itself. -/
theorem Draining.rests_on (draining : Draining step kept quiet runs busy work) (start : kept state)
    (quietly : ∀ n, quiet (reach step state schedule n) (schedule n)) {n : Nat}
    (resting : ∀ thread, ¬ busy (reach step state schedule n) thread) (more : Nat) :
    ∀ thread, ¬ busy (reach step state schedule (n + more)) thread := by
  induction more with
  | zero => exact resting
  | succ more ih =>
    have reached := draining.kept_reach start quietly (n + more)
    have idle := draining.idles _ _ reached (quietly (n + more)) fun thread _ => ih thread
    exact fun thread held => ih thread ((idle.1 thread).mp held)

theorem Draining.comes_to_rest (draining : Draining step kept quiet runs busy work) (start : kept state)
    (quietly : ∀ n, quiet (reach step state schedule n) (schedule n)) (fair : Fair runs schedule) :
    ∃ n, ∀ later, n ≤ later → ∀ thread, ¬ busy (reach step state schedule later) thread := by
  obtain ⟨n, resting⟩ := draining.rests start quietly fair 0
  refine ⟨n, ?_⟩
  intro later after
  obtain ⟨more, rfl⟩ := Nat.exists_eq_add_of_le after
  exact draining.rests_on start quietly resting more

end

end Fairness
