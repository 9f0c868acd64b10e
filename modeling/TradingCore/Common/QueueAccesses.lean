import TradingCore.Common.QueueThreads

/-! The sections under the lock, one access to the queue at a time. An access
depends on the queue as it is then and on what its own thread has read so far;
it does not ask who has the lock. -/

namespace TradingCore

/-- How far a thread is in its section. -/
inductive Progress (T : Type) where
  | entered
  /-- `closed` was false -/
  | sawOpen
  /-- the predicate of `wait` was true -/
  | sawReady
  /-- `values.empty()` was false -/
  | sawValue
  /-- the front was moved out and is yet to be removed -/
  | moved (value : T)
deriving DecidableEq, Repr

structure QueueAccesses (ι T : Type) where
  threads : QueueThreads ι T := {}
  progress : ι → Progress T := fun _ => .entered

namespace QueueAccesses
variable {ι T : Type} [DecidableEq ι]

def read (accesses : QueueAccesses ι T) (thread : ι) (progress : Progress T) : QueueAccesses ι T :=
  { accesses with progress := Function.update accesses.progress thread progress }

/-- The last access of a section, after which the thread is somewhere else. -/
def leave (accesses : QueueAccesses ι T) (thread : ι) (threads : QueueThreads ι T) : QueueAccesses ι T :=
  { threads, progress := Function.update accesses.progress thread .entered }

def push (accesses : QueueAccesses ι T) (thread : ι) (value : T) : QueueAccesses ι T :=
  let threads := accesses.threads
  match accesses.progress thread with
  | .entered =>
    if threads.queue.closed then accesses.leave thread (threads.unlock thread (.returning .done))
    else accesses.read thread .sawOpen
  | .sawOpen =>
    let queue := { threads.queue with values := threads.queue.values ++ [value] }
    accesses.leave thread ({ threads with queue }.unlock thread .notifyingOne)
  | _ => accesses

def checkEmpty (accesses : QueueAccesses ι T) (thread : ι) : QueueAccesses ι T :=
  let threads := accesses.threads
  if threads.queue.empty then accesses.leave thread (threads.unlock thread (.returning (.popped none)))
  else accesses.read thread .sawValue

/-- The end of `tryPop` and of `waitPop`. What the move leaves in the front is
removed before another thread gets the lock. -/
def popFront (accesses : QueueAccesses ι T) (thread : ι) : Progress T → QueueAccesses ι T
  | .sawValue =>
    match accesses.threads.queue.values with
    -- the front of an empty queue is undefined; the lock keeps it from being asked for
    | [] => accesses
    | value :: _ => accesses.read thread (.moved value)
  | .moved value =>
    let threads := accesses.threads
    let queue := { threads.queue with values := threads.queue.values.tail }
    accesses.leave thread ({ threads with queue }.unlock thread (.returning (.popped (some value))))
  | _ => accesses

def tryPop (accesses : QueueAccesses ι T) (thread : ι) : QueueAccesses ι T :=
  match accesses.progress thread with
  | .entered => accesses.checkEmpty thread
  | progress => accesses.popFront thread progress

/-- With the lock, up to the predicate's being false or to the end. -/
def waitPop (accesses : QueueAccesses ι T) (thread : ι) : QueueAccesses ι T :=
  let threads := accesses.threads
  match accesses.progress thread with
  | .entered => accesses.read thread (if threads.queue.closed then .sawReady else .sawOpen)
  | .sawOpen =>
    if threads.queue.empty then accesses.leave thread (threads.setPhase thread .unready)
    else accesses.read thread .sawReady
  | .sawReady => accesses.checkEmpty thread
  | progress => accesses.popFront thread progress

def criticalSection (accesses : QueueAccesses ι T) (thread : ι) : QueueAccesses ι T :=
  let threads := accesses.threads
  match threads.phases thread with
  | .locked (.push value) => accesses.push thread value
  | .locked .tryPop => accesses.tryPop thread
  | .locked .waitPop | .rechecking => accesses.waitPop thread
  | .locked .close =>
    let queue := { threads.queue with closed := true }
    accesses.leave thread ({ threads with queue }.unlock thread .notifyingAll)
  | .locked .isClosed => accesses.leave thread (threads.unlock thread (.returning (.flag threads.queue.closed)))
  | .locked .empty => accesses.leave thread (threads.unlock thread (.returning (.flag threads.queue.empty)))
  | _ => accesses

variable [Fintype ι]

/-- A turn of the section is one access; the other turns are those of the
threads. -/
def step (accesses : QueueAccesses ι T) : QueueThreads.Turn ι T → QueueAccesses ι T
  | .criticalSection thread => accesses.criticalSection thread
  | turn => { accesses with threads := accesses.threads.step turn }

end QueueAccesses

end TradingCore
