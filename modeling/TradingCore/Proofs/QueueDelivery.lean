import TradingCore.Common.ConditionVariableQueue
import TradingCore.Foundation.Runs

/-! What a queue delivers, whoever calls it: every value pushed before the
first close, once and in order, and nothing else. -/

namespace TradingCore.Proofs.QueueDelivery
open ConditionVariableQueue

variable {ι T : Type}

/-- The calls of all threads, in the order in which they get the lock. -/
abbrev Turns (ι T : Type) := List (ι × Call T)

def turn (queue : ConditionVariableQueue T) (turn : ι × Call T) : ConditionVariableQueue T := queue.step turn.2

def popped (turns : Turns ι T) : List T :=
  Runs.emitted turn (fun queue turn => (queue.returned turn.2).toList) {} turns

def pushed : Call T → Option T
  | .push value => some value
  | .tryPop | .waitPop | .close | .isClosed | .empty => none

def closes : Call T → Bool
  | .close => true
  | .push _ | .tryPop | .waitPop | .isClosed | .empty => false

def pushedBeforeClose (turns : Turns ι T) : List T :=
  (turns.takeWhile fun turn => ¬ closes turn.2).filterMap fun turn => pushed turn.2

theorem pushedBeforeClose_cons (first : ι × Call T) (rest : Turns ι T) :
    pushedBeforeClose (first :: rest) =
      if closes first.2 then [] else (pushed first.2).toList ++ pushedBeforeClose rest := by
  obtain ⟨thread, call⟩ := first
  cases call with
  | push value => simp [pushedBeforeClose, closes, pushed]
  | tryPop => simp [pushedBeforeClose, closes, pushed]
  | waitPop => simp [pushedBeforeClose, closes, pushed]
  | close => simp [pushedBeforeClose, closes]
  | isClosed => simp [pushedBeforeClose, closes, pushed]
  | empty => simp [pushedBeforeClose, closes, pushed]

/-- A call gives out the first value, adds one at the end, or leaves all as it
is. -/
theorem step_values (queue : ConditionVariableQueue T) (call : Call T) :
    (queue.returned call).toList ++ (queue.step call).values =
      queue.values ++ if queue.closed then [] else (pushed call).toList := by
  cases call with
  | push value =>
    rw [returned, answer, step, push]
    split
    next => exact (List.append_nil _).symm
    next => rfl
  | tryPop =>
    rw [pushed, Option.toList_none, ite_self, List.append_nil]
    exact queue.waitPop_values
  | waitPop =>
    rw [pushed, Option.toList_none, ite_self, List.append_nil, returned, answer, step]
    split
    next => exact queue.waitPop_values
    next => rfl
  | close | isClosed | empty =>
    rw [pushed, Option.toList_none, ite_self, List.append_nil]
    rfl

theorem step_closed (queue : ConditionVariableQueue T) (call : Call T) :
    (queue.step call).closed = (queue.closed || closes call) := by
  cases call with
  | push value =>
    rw [step, push, closes, Bool.or_false]
    split
    next => rfl
    next => rfl
  | tryPop =>
    rw [closes, Bool.or_false]
    exact queue.waitPop_closed
  | waitPop =>
    rw [step, closes, Bool.or_false]
    split
    next => exact queue.waitPop_closed
    next => rfl
  | close => exact (Bool.or_true _).symm
  | isClosed | empty => exact (Bool.or_false _).symm

/-- From any queue on, the values held come first, and the ones pushed while it
is open follow. -/
theorem run_values (queue : ConditionVariableQueue T) (turns : Turns ι T) :
    Runs.emitted turn (fun queue turn => (queue.returned turn.2).toList) queue turns ++
        (Runs.after turn queue turns).values =
      queue.values ++ if queue.closed then [] else pushedBeforeClose turns := by
  induction turns generalizing queue with
  | nil =>
    rw [pushedBeforeClose, List.takeWhile_nil, List.filterMap_nil, ite_self, List.append_nil]
    rfl
  | cons first rest ih =>
    have one := step_values queue first.2
    have closed := step_closed queue first.2
    rw [Runs.emitted_cons, Runs.after_cons, List.append_assoc, ih, turn, ← List.append_assoc, one, closed,
      pushedBeforeClose_cons, List.append_assoc]
    cases queue.closed with
    | true => rfl
    | false =>
      cases first.2 with
      | push value => rfl
      | tryPop => rfl
      | waitPop => rfl
      | close => rfl
      | isClosed => rfl
      | empty => rfl

/-- A queue that is closed and empty stays so. -/
theorem drained_step (queue : ConditionVariableQueue T) (next : ι × Call T)
    (drained : queue.closed = true ∧ queue.values = []) :
    (turn queue next).closed = true ∧ (turn queue next).values = [] := by
  have values := step_values queue next.2
  rw [drained.1, drained.2, if_pos rfl, List.append_nil] at values
  refine ⟨?_, (List.append_eq_nil_iff.mp values).2⟩
  rw [turn, step_closed, drained.1, Bool.true_or]

theorem drained_answers {queue : ConditionVariableQueue T} (drained : queue.closed = true ∧ queue.values = []) :
    queue.tryPop.1 = none ∧ queue.ready ∧ queue.waitPop.1 = none := by
  refine ⟨?_, Or.inl drained.1, ?_⟩
  · rw [tryPop, drained.2]
  · rw [waitPop, drained.2]

/-- At every moment of every interleaving, what has been popped and what is
still queued is what was pushed before the first close. A `waitPop` returns
false only on a queue that is closed and empty, and from then on no pop
returns anything. -/
theorem delivered_exactly_once (turns : Turns ι T) :
    popped turns ++ (Runs.after turn {} turns).values = pushedBeforeClose turns ∧
    ((Runs.after turn {} turns).ready → (Runs.after turn {} turns).waitPop.1 = none →
      ((Runs.after turn {} turns).isClosed ∧ (Runs.after turn {} turns).empty) ∧
      ∀ later : Turns ι T,
        (Runs.after turn {} (turns ++ later)).tryPop.1 = none ∧
        (Runs.after turn {} (turns ++ later)).ready ∧
        (Runs.after turn {} (turns ++ later)).waitPop.1 = none) := by
  refine ⟨run_values {} turns, ?_⟩
  intro ready nothing
  have drained : (Runs.after turn {} turns).closed = true ∧ (Runs.after turn {} turns).values = [] := by
    obtain ⟨closed, values⟩ := waitPop_none ready nothing
    have held := (Runs.after turn {} turns).waitPop_values
    rw [nothing, values] at held
    exact ⟨closed, held.symm⟩
  refine ⟨⟨drained.1, ?_⟩, ?_⟩
  · rw [empty, drained.2]
    rfl
  · intro later
    rw [Runs.after_append]
    exact drained_answers (Runs.invariant drained_step drained later)

/-- The value pushed before the close is popped, the one pushed after it is
not. -/
def closedEarly : Turns Nat Nat := [(0, .push 5), (1, .close), (0, .push 6), (2, .tryPop)]

theorem closed_early_delivered :
    popped closedEarly = [5] ∧ (Runs.after turn {} closedEarly).values = [] ∧
    (Runs.after turn {} (closedEarly ++ [(0, .push 7)])).tryPop.1 = none := by
  have delivered := delivered_exactly_once closedEarly
  have drained : (Runs.after turn {} closedEarly).values = [] := by decide
  refine ⟨?_, drained, ((delivered.2 (by decide) (by decide)).2 [(0, .push 7)]).1⟩
  have values := delivered.1
  rw [drained, List.append_nil] at values
  exact values

end TradingCore.Proofs.QueueDelivery
