import Mathlib.Order.Basic

/-! The queue between two threads. Each operation holds the queue's lock, so it
is one step here; the waits and notifications decide only when a step is taken. -/

namespace TradingCore

structure ConditionVariableQueue (T : Type) where
  values : List T := []
  closed : Bool := false
deriving DecidableEq, Repr

namespace ConditionVariableQueue

variable {T : Type}

/-- A value pushed on a closed queue is dropped. -/
def push (queue : ConditionVariableQueue T) (value : T) : ConditionVariableQueue T :=
  if queue.closed then queue else { queue with values := queue.values ++ [value] }

def pushAll (queue : ConditionVariableQueue T) (values : List T) : ConditionVariableQueue T := values.foldl push queue

/-- A missing value stands for the result false. -/
def tryPop (queue : ConditionVariableQueue T) : Option T × ConditionVariableQueue T :=
  match queue.values with
  | [] => (none, queue)
  | value :: values => (some value, { queue with values })

/-- The condition `waitPop` waits for. -/
def ready (queue : ConditionVariableQueue T) : Prop := queue.closed ∨ queue.values ≠ []

instance (queue : ConditionVariableQueue T) : Decidable queue.ready :=
  decidable_of_iff (queue.closed ∨ ¬ queue.values.isEmpty) (by simp [ready])

/-- `waitPop` once its condition holds. -/
def waitPop (queue : ConditionVariableQueue T) : Option T × ConditionVariableQueue T :=
  match queue.values with
  | [] => (none, queue)
  | value :: values => (some value, { queue with values })

def close (queue : ConditionVariableQueue T) : ConditionVariableQueue T := { queue with closed := true }

def isClosed (queue : ConditionVariableQueue T) : Bool := queue.closed

def empty (queue : ConditionVariableQueue T) : Bool := queue.values.isEmpty

inductive Call (T : Type) where
  | push (value : T)
  | tryPop
  | waitPop
  | close
  | isClosed
  | empty
deriving DecidableEq, Repr

/-- What a call hands back: nothing, the popped value or none for false, or the
flag that it has read. -/
inductive Answer (T : Type) where
  | done
  | popped (value : Option T)
  | flag (answer : Bool)
deriving DecidableEq, Repr

def Answer.value : Answer T → Option T
  | .popped value => value
  | .done | .flag _ => none

/-- A thread in `waitPop` whose condition does not hold takes no step. -/
def step (queue : ConditionVariableQueue T) : Call T → ConditionVariableQueue T
  | .push value => queue.push value
  | .tryPop => queue.tryPop.2
  | .waitPop => if queue.ready then queue.waitPop.2 else queue
  | .close => queue.close
  | .isClosed | .empty => queue

def answer (queue : ConditionVariableQueue T) : Call T → Answer T
  | .push _ | .close => .done
  | .tryPop => .popped queue.tryPop.1
  | .waitPop => .popped (if queue.ready then queue.waitPop.1 else none)
  | .isClosed => .flag queue.isClosed
  | .empty => .flag queue.empty

/-- The value that a call returns, if it returns one. -/
def returned (queue : ConditionVariableQueue T) (call : Call T) : Option T := (queue.answer call).value

variable {queue : ConditionVariableQueue T}

theorem push_open (opened : ¬ queue.closed = true) (value : T) :
    queue.push value = { queue with values := queue.values ++ [value] } :=
  if_neg opened

@[simp] theorem push_closed (queue : ConditionVariableQueue T) (value : T) :
    (queue.push value).closed = queue.closed := by
  rw [push]
  split <;> rfl

@[simp] theorem pushAll_closed (queue : ConditionVariableQueue T) (values : List T) :
    (queue.pushAll values).closed = queue.closed := by
  induction values generalizing queue with
  | nil => rfl
  | cons value rest ih => exact (ih (queue.push value)).trans (queue.push_closed value)

@[simp] theorem waitPop_closed (queue : ConditionVariableQueue T) : queue.waitPop.2.closed = queue.closed := by
  rw [waitPop]
  split <;> rfl

/-- The value popped was the first one, and the others stay in their order. -/
theorem waitPop_values (queue : ConditionVariableQueue T) :
    queue.waitPop.1.toList ++ queue.waitPop.2.values = queue.values := by
  rw [waitPop]
  split
  next => rfl
  next values => exact values.symm

theorem nonempty_of_ready (opened : queue.closed = false) (ready : queue.ready) : queue.values ≠ [] := by
  apply ready.resolve_left
  rw [opened]
  nofun

theorem waitPop_length (queue : ConditionVariableQueue T) :
    queue.waitPop.2.values.length = queue.values.length - 1 := by
  rw [waitPop]
  split
  next none =>
    rw [none]
    rfl
  next some => rw [some, List.length_cons, Nat.add_sub_cancel]

/-- Only a queue that is closed and drained gives nothing. -/
theorem waitPop_none (ready : queue.ready) (nothing : queue.waitPop.1 = none) :
    queue.closed = true ∧ queue.waitPop.2.values = [] := by
  rw [waitPop] at nothing ⊢
  split at nothing
  next values => exact ⟨ready.resolve_right (not_not_intro values), values⟩
  next => cases nothing

end ConditionVariableQueue

end TradingCore
