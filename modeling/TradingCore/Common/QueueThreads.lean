import Mathlib.Data.Fintype.Basic
import Mathlib.Logic.Function.Basic
import TradingCore.Common.ConditionVariableQueue

/-! The queue and the threads that call it, one step for each thing a thread
does: getting the lock, the section under it, going to sleep, being woken,
notifying, returning. -/

namespace TradingCore

/-- Where a thread is in its call. -/
inductive QueuePhase (T : Type) where
  | idle
  | locking (call : ConditionVariableQueue.Call T)
  | locked (call : ConditionVariableQueue.Call T)
  /-- in `wait`, with the lock, after the predicate was false -/
  | unready
  | asleep
  /-- in `wait`, without the lock, yet to check the predicate again -/
  | woken
  | rechecking
  | notifyingOne
  | notifyingAll
  /-- with what the call hands back -/
  | returning (answer : ConditionVariableQueue.Answer T)
deriving DecidableEq, Repr

namespace QueuePhase
variable {T : Type}

def isAsleep : QueuePhase T → Bool
  | .asleep => true
  | _ => false

end QueuePhase

structure QueueThreads (ι T : Type) where
  queue : ConditionVariableQueue T := {}
  mutex : Option ι := none
  phases : ι → QueuePhase T := fun _ => .idle

namespace QueueThreads
variable {ι T : Type} [DecidableEq ι]

/-- Whose step is next, and for an idle thread what it calls. A call of
`notify_one` wakes the sleeper that the step names. -/
inductive Turn (ι T : Type) where
  | invoke (thread : ι) (call : ConditionVariableQueue.Call T)
  | lock (thread : ι)
  | criticalSection (thread : ι)
  | sleep (thread : ι)
  | notify (thread sleeper : ι)
  | wakeSpuriously (thread : ι)
  | finish (thread : ι)
deriving DecidableEq, Repr

def setPhase (threads : QueueThreads ι T) (thread : ι) (phase : QueuePhase T) : QueueThreads ι T :=
  { threads with phases := Function.update threads.phases thread phase }

def unlock (threads : QueueThreads ι T) (thread : ι) (phase : QueuePhase T) : QueueThreads ι T :=
  { threads.setPhase thread phase with mutex := none }

def invoke (threads : QueueThreads ι T) (thread : ι) (call : ConditionVariableQueue.Call T) : QueueThreads ι T :=
  match threads.phases thread with
  | .idle => threads.setPhase thread (.locking call)
  | _ => threads

def lock (threads : QueueThreads ι T) (thread : ι) : QueueThreads ι T :=
  if threads.mutex ≠ none then threads
  else
    match threads.phases thread with
    | .locking call => { threads.setPhase thread (.locked call) with mutex := some thread }
    | .woken => { threads.setPhase thread .rechecking with mutex := some thread }
    | _ => threads

/-- The predicate of `wait` and, when it holds, the rest of `waitPop`. -/
def checkPredicate (threads : QueueThreads ι T) (thread : ι) : QueueThreads ι T :=
  if threads.queue.ready then
    { threads with queue := threads.queue.waitPop.2 }.unlock thread (.returning (.popped threads.queue.waitPop.1))
  else threads.setPhase thread .unready

def criticalSection (threads : QueueThreads ι T) (thread : ι) : QueueThreads ι T :=
  match threads.phases thread with
  | .locked (.push value) =>
    if threads.queue.closed then threads.unlock thread (.returning .done)
    else { threads with queue := threads.queue.push value }.unlock thread .notifyingOne
  | .locked .tryPop =>
    { threads with queue := threads.queue.tryPop.2 }.unlock thread (.returning (.popped threads.queue.tryPop.1))
  | .locked .waitPop => threads.checkPredicate thread
  | .locked .close => { threads with queue := threads.queue.close }.unlock thread .notifyingAll
  | .locked .isClosed => threads.unlock thread (.returning (.flag threads.queue.isClosed))
  | .locked .empty => threads.unlock thread (.returning (.flag threads.queue.empty))
  | .rechecking => threads.checkPredicate thread
  | _ => threads

/-- Releasing the lock and starting to wait is one step for other threads. -/
def sleep (threads : QueueThreads ι T) (thread : ι) : QueueThreads ι T :=
  match threads.phases thread with
  | .unready => threads.unlock thread .asleep
  | _ => threads

def wake (threads : QueueThreads ι T) (thread : ι) : QueueThreads ι T :=
  match threads.phases thread with
  | .asleep => threads.setPhase thread .woken
  | _ => threads

def finish (threads : QueueThreads ι T) (thread : ι) : QueueThreads ι T :=
  match threads.phases thread with
  | .returning _ => threads.setPhase thread .idle
  | _ => threads

def wakeAll (threads : QueueThreads ι T) : QueueThreads ι T :=
  { threads with phases := fun thread => if (threads.phases thread).isAsleep then .woken else threads.phases thread }

variable [Fintype ι]

/-- As long as some thread is asleep, `notify_one` wakes one of them. -/
def notify (threads : QueueThreads ι T) (thread sleeper : ι) : QueueThreads ι T :=
  match threads.phases thread with
  | .notifyingOne =>
    if (threads.phases sleeper).isAsleep ∨ ∀ other, ¬ (threads.phases other).isAsleep then
      (threads.wake sleeper).setPhase thread (.returning .done)
    else threads
  | .notifyingAll => threads.wakeAll.setPhase thread (.returning .done)
  | _ => threads

/-- A step that its thread cannot take leaves everything as it is. -/
def step (threads : QueueThreads ι T) : Turn ι T → QueueThreads ι T
  | .invoke thread call => threads.invoke thread call
  | .lock thread => threads.lock thread
  | .criticalSection thread => threads.criticalSection thread
  | .sleep thread => threads.sleep thread
  | .notify thread sleeper => threads.notify thread sleeper
  | .wakeSpuriously thread => threads.wake thread
  | .finish thread => threads.finish thread

end QueueThreads

end TradingCore
