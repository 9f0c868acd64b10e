import TradingCore.Proofs.Shutdown

/-! What passes through an open queue between two threads. Every item is done,
in the hand of the thread that pops, queued, or still with the thread that
pushes, in the order in which it came. -/

namespace TradingCore.Proofs.WorkerChannels
open Shutdown

variable {T : Type}

structure Channel (done held : List T) (queue : ConditionVariableQueue T) (pending items : List T) : Prop where
  all : done ++ held ++ queue.values ++ pending = items
  opened : queue.closed = false

/-- What the thread of a loop has popped and not handled yet. -/
def held : Option (LoopThread T) → List T
  | some (.handling item) => [item]
  | _ => []

variable {done hand pending items : List T} {item : T} {queue : ConditionVariableQueue T}

theorem empty_channel : Channel [] [] ({} : ConditionVariableQueue T) [] [] := ⟨rfl, rfl⟩

theorem pushAll_values (opened : queue.closed = false) (more : List T) :
    (queue.pushAll more).values = queue.values ++ more := by
  induction more generalizing queue with
  | nil => exact (List.append_nil _).symm
  | cons item rest ih =>
    have still : ¬ queue.closed = true := by
      rw [opened]
      nofun
    rw [ConditionVariableQueue.pushAll, List.foldl_cons, ← ConditionVariableQueue.pushAll, ih]
    · rw [ConditionVariableQueue.push_open still, List.append_assoc]
      rfl
    · rw [ConditionVariableQueue.push_closed, opened]

theorem Channel.pushAll (channel : Channel done hand queue [] items) (more : List T) :
    Channel done hand (queue.pushAll more) [] (items ++ more) := by
  constructor
  · rw [pushAll_values channel.opened, ← channel.all]
    simp only [List.append_assoc, List.append_nil]
  · rw [ConditionVariableQueue.pushAll_closed, channel.opened]

theorem Channel.push (channel : Channel done hand queue (item :: pending) items) :
    Channel done hand (queue.push item) pending items := by
  have opened : ¬ queue.closed = true := by
    rw [channel.opened]
    nofun
  rw [ConditionVariableQueue.push_open opened]
  refine ⟨?_, channel.opened⟩
  rw [← channel.all]
  simp only [List.append_assoc, List.singleton_append]

theorem Channel.pushed (channel : Channel done hand queue [] items) (item : T) :
    Channel done hand (queue.push item) [] (items ++ [item]) := channel.pushAll [item]

theorem Channel.popped (channel : Channel done [] queue pending items) :
    Channel done queue.waitPop.1.toList queue.waitPop.2 pending items := by
  constructor
  · rw [List.append_assoc done, queue.waitPop_values, ← channel.all, List.append_nil]
  · rw [ConditionVariableQueue.waitPop_closed, channel.opened]

theorem Channel.handled (channel : Channel done [item] queue pending items) :
    Channel (done ++ [item]) [] queue pending items := by
  refine ⟨?_, channel.opened⟩
  rw [List.append_nil]
  exact channel.all

theorem Channel.grow (channel : Channel done hand queue pending items) (more : List T) :
    Channel done hand queue (pending ++ more) (items ++ more) :=
  ⟨by rw [← List.append_assoc, channel.all], channel.opened⟩

theorem Channel.done_prefix (channel : Channel done hand queue pending items) : done <+: items := by
  rw [← channel.all, List.append_assoc, List.append_assoc]
  exact List.prefix_append _ _

section
variable {worker : Worker (LoopThread T)}

theorem Channel.start (channel : Channel done (held worker.thread) queue pending items) :
    Channel done (held (worker.start .waiting).thread) queue pending items := by
  rw [Worker.start]
  split
  next => exact channel
  next absent =>
    have none : worker.thread = none := by simpa [Worker.running] using absent
    rw [none] at channel
    exact channel

theorem held_pop : held (worker.proceed (LoopThread.pop queue).1).thread =
    if queue.ready then queue.waitPop.1.toList else [] := by
  split
  next ready =>
    rw [LoopThread.pop_ready ready]
    cases queue.waitPop.1 <;> rfl
  next empty =>
    rw [LoopThread.pop_waits empty]
    rfl

theorem Channel.pop (channel : Channel done (held worker.thread) queue pending items)
    (waiting : worker.thread = some .waiting) :
    Channel done (held (worker.proceed (LoopThread.pop queue).1).thread) (LoopThread.pop queue).2 pending items := by
  rw [waiting] at channel
  rw [held_pop]
  by_cases ready : queue.ready
  · rw [if_pos ready, LoopThread.pop_ready ready]
    exact channel.popped
  · rw [if_neg ready, LoopThread.pop_waits ready]
    exact channel

theorem Channel.handle (channel : Channel done (held worker.thread) queue pending items)
    (handling : worker.thread = some (.handling item)) :
    Channel (done ++ [item]) (held (worker.proceed .waiting).thread) queue pending items := by
  rw [handling] at channel
  exact channel.handled

theorem not_ready (opened : queue.closed = false) : ¬ queue.ready ↔ queue.values = [] := by
  rw [ConditionVariableQueue.ready, opened]
  simp

/-- Nothing is under way to a thread that sleeps. -/
theorem Channel.complete (channel : Channel done (held worker.thread) queue [] items) (sleeps : Sleeps worker queue) :
    done = items := by
  rw [← channel.all, sleeps.1, (not_ready channel.opened).mp sleeps.2]
  simp only [held, List.append_nil]

end

end TradingCore.Proofs.WorkerChannels
