import TradingCore.Common.ConditionVariableQueue

/-! Workers: a module whose `run` has a thread of its own from `start` until
`stop`, which only joins the thread. -/

namespace TradingCore

/-- A thread in a loop `while (queue.waitPop(item))`. -/
inductive LoopThread (T : Type) where
  | waiting
  | handling (item : T)
  | ended
deriving DecidableEq, Repr

namespace LoopThread
variable {T : Type}

def isEnded : LoopThread T → Bool
  | .ended => true
  | _ => false

/-- The condition of the loop. As long as `waitPop` waits, nothing changes. -/
def pop (queue : ConditionVariableQueue T) : LoopThread T × ConditionVariableQueue T :=
  if queue.ready then
    let (popped, queue) := queue.waitPop
    (popped.elim .ended .handling, queue)
  else (.waiting, queue)

variable {queue : ConditionVariableQueue T}

theorem pop_ready (ready : queue.ready) : pop queue = (queue.waitPop.1.elim .ended .handling, queue.waitPop.2) :=
  if_pos ready

theorem pop_waits (empty : ¬ queue.ready) : pop queue = (.waiting, queue) := if_neg empty

@[simp] theorem pop_closed (queue : ConditionVariableQueue T) : (pop queue).2.closed = queue.closed := by
  by_cases ready : queue.ready
  · rw [pop_ready ready, queue.waitPop_closed]
  · rw [pop_waits ready]

/-- On an open queue the loop goes on. -/
theorem pop_not_ended (opened : queue.closed = false) : (pop queue).1 ≠ .ended := by
  by_cases ready : queue.ready
  · rw [pop_ready ready]
    cases popped : queue.waitPop.1 with
    | none =>
      have closed := (queue.waitPop_none ready popped).1
      rw [opened] at closed
      cases closed
    | some item => nofun
  · rw [pop_waits ready]
    nofun

end LoopThread

/-- The flag of the source is set exactly as long as there is a thread to join,
so the thread alone is kept. -/
structure Worker (Thread : Type) where
  thread : Option Thread := none
deriving DecidableEq, Repr

namespace Worker
variable {Thread : Type}

def running (worker : Worker Thread) : Bool := worker.thread.isSome

def start (worker : Worker Thread) (first : Thread) : Worker Thread :=
  if worker.running then worker else { thread := some first }

def proceed (worker : Worker Thread) (thread : Thread) : Worker Thread := { worker with thread := some thread }

/-- There is no result as long as the thread to join has not ended. -/
def stop (worker : Worker Thread) (isEnded : Thread → Bool) : Option (Worker Thread) :=
  match worker.thread with
  | none => some worker
  | some thread => if isEnded thread then some { thread := none } else none

theorem loop_cases {T : Type} {worker : Worker (LoopThread T)} (running : worker.running)
    (alive : worker.thread ≠ some .ended) :
    worker.thread = some .waiting ∨ ∃ item, worker.thread = some (.handling item) := by
  rw [Worker.running] at running
  cases held : worker.thread with
  | none =>
    rw [held] at running
    cases running
  | some thread =>
    cases thread with
    | waiting => exact Or.inl rfl
    | handling item => exact Or.inr ⟨item, rfl⟩
    | ended => exact absurd held alive

end Worker

end TradingCore
