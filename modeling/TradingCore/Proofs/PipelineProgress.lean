import TradingCore.Pipeline
import TradingCore.Proofs.PublishedEvents

/-! The threads of the pipeline never wait for one another forever. While one
of them has not ended some turn brings the remaining work down, and every
moment of every run can be continued until both have ended. -/

namespace TradingCore.Proofs.PipelineProgress
open BookBuilder PublishedEvents Pipeline

/-- A pushed event is then popped and handled. -/
def pushWork : EventPush → Nat
  | .strategy _ => 4
  | .recording _ => 1

/-- An update publishes one event at most, whose two pushes follow. -/
def builderWork : BuilderThread → Nat
  | .starting => 2
  | .waiting => 1
  | .handling _ => 8
  | .pushing pushes => 2 + (pushes.map pushWork).sum
  | .ended => 0

def strategyWork : StrategyThread → Nat
  | .waiting => 1
  | .handling _ => 2
  | .ended => 0

def queueWork {T : Type} (each : Nat) (queue : ConditionVariableQueue T) : Nat :=
  each * queue.values.length + if queue.closed then 0 else 1

/-- The steps that are left, counted from above. -/
def work (pipeline : Pipeline) : Nat :=
  9 * pipeline.feed.length + queueWork 8 pipeline.bookUpdateQueue + builderWork pipeline.builderThread +
    queueWork 3 pipeline.strategyEventQueue + strategyWork pipeline.strategyThread

section
variable {T : Type} (each : Nat) (queue : ConditionVariableQueue T)

theorem queueWork_push (value : T) : queueWork each (queue.push value) ≤ queueWork each queue + each := by
  rw [ConditionVariableQueue.push]
  split
  next => exact Nat.le_add_right _ _
  next =>
    simp only [queueWork, List.length_append, List.length_singleton, Nat.mul_add]
    omega

theorem queueWork_close (opened : ¬ queue.closed = true) : queueWork each queue.close < queueWork each queue := by
  simp [queueWork, ConditionVariableQueue.close, opened]

/-- What is popped is no longer in the queue. -/
theorem queueWork_pop :
    queueWork each queue.waitPop.2 + (queue.waitPop.1.elim 0 fun _ => each) = queueWork each queue := by
  rw [queueWork, queueWork, ConditionVariableQueue.waitPop_closed, ← queue.waitPop_values]
  cases queue.waitPop.1 with
  | none => rfl
  | some value =>
    simp only [Option.toList_some, List.length_append, List.length_singleton, Option.elim_some, Nat.mul_add]
    omega

end

theorem pushes_work (events : List MarketEvent) (few : events.length ≤ 1) :
    ((events.flatMap fun event => [EventPush.strategy event, .recording event]).map pushWork).sum ≤ 5 := by
  cases events with
  | nil => exact Nat.zero_le _
  | cons event rest =>
    obtain rfl : rest = [] := List.length_eq_zero_iff.mp (Nat.le_zero.mp (Nat.le_of_succ_le_succ few))
    exact Nat.le_refl _

theorem publication_length (builder : BookBuilder) (now : Timestamp) (update : BookUpdate) :
    (publication builder now update).length ≤ 1 := by
  rw [publication]
  split
  next => exact Nat.le_refl _
  next => exact Nat.zero_le _

variable {pipeline : Pipeline}

theorem feeder_progress (feeding : pipeline.feed ≠ [] ∨ ¬ pipeline.bookUpdateQueue.closed = true) :
    work pipeline.feederStep < work pipeline := by
  rw [feederStep]
  cases feed : pipeline.feed with
  | nil =>
    have closing := queueWork_close 8 _ (feeding.resolve_left (not_not_intro feed))
    simp only [work, feed]
    omega
  | cons update rest =>
    have pushed := queueWork_push 8 pipeline.bookUpdateQueue update
    simp only [work, feed, List.length_cons]
    omega

theorem builder_progress (snapshot : Snapshot) (now : Timestamp) (running : pipeline.builderThread ≠ .ended)
    (closed : pipeline.bookUpdateQueue.closed = true) :
    work (pipeline.builderStep snapshot now) < work pipeline := by
  rw [builderStep]
  cases thread : pipeline.builderThread with
  | starting =>
    have left : builderWork (pipeline.applySnapshot snapshot).builderThread < builderWork .starting := by
      simp only [Pipeline.applySnapshot]
      split
      next => exact Nat.lt_succ_self 1
      next => exact Nat.zero_lt_two
    simp only [Pipeline.applySnapshot] at left
    simp only [Pipeline.applySnapshot, work, thread]
    omega
  | waiting =>
    have ready : pipeline.bookUpdateQueue.ready := Or.inl closed
    have popped := queueWork_pop 8 pipeline.bookUpdateQueue
    dsimp only
    rw [if_pos ready]
    simp only [work, thread]
    cases taken : pipeline.bookUpdateQueue.waitPop.1 with
    | none =>
      rw [taken, Option.elim_none] at popped
      simp only [Option.elim_none, builderWork]
      omega
    | some update =>
      rw [taken, Option.elim_some] at popped
      simp only [Option.elim_some, builderWork]
      omega
  | handling update =>
    have left : builderWork (pipeline.handleUpdate now update).builderThread < builderWork (.handling update) := by
      simp only [handleUpdate, builderWork, onBookUpdate_dispatched, dispatched, List.nil_append]
      apply Nat.lt_succ_of_le
      exact Nat.add_le_add_left (pushes_work _ (publication_length _ now update)) 2
    simp only [handleUpdate] at left
    simp only [handleUpdate, work, thread]
    omega
  | pushing pushes =>
    cases pushes with
    | nil => simp [work, thread, builderWork]
    | cons first rest =>
      cases first with
      | strategy event =>
        have pushed := queueWork_push 3 pipeline.strategyEventQueue event
        simp only [Pipeline.push, work, thread, builderWork, List.map_cons, List.sum_cons, pushWork]
        omega
      | recording event =>
        simp only [Pipeline.push, work, thread, builderWork, List.map_cons, List.sum_cons, pushWork]
        omega
  | ended => exact absurd thread running

theorem closer_progress (ended : pipeline.builderThread = .ended)
    (opened : ¬ pipeline.strategyEventQueue.closed = true) : work pipeline.closerStep < work pipeline := by
  have closing := queueWork_close 3 _ opened
  rw [closerStep, if_pos ended]
  simp only [work]
  omega

theorem strategy_progress (running : pipeline.strategyThread ≠ .ended)
    (closed : pipeline.strategyEventQueue.closed = true) : work pipeline.strategyStep < work pipeline := by
  rw [strategyStep]
  cases thread : pipeline.strategyThread with
  | waiting =>
    have ready : pipeline.strategyEventQueue.ready := Or.inl closed
    have popped := queueWork_pop 3 pipeline.strategyEventQueue
    dsimp only
    rw [if_pos ready]
    simp only [work, thread]
    cases taken : pipeline.strategyEventQueue.waitPop.1 with
    | none =>
      rw [taken, Option.elim_none] at popped
      simp only [Option.elim_none, strategyWork]
      omega
    | some event =>
      rw [taken, Option.elim_some] at popped
      simp only [Option.elim_some, strategyWork]
      omega
  | handling event => simp [work, thread, strategyWork]
  | ended => exact absurd thread running

/-- Until both threads have ended, some turn brings the work down: the feeder
first, then the builder, whose end lets the queue of the strategy be closed. -/
theorem progress (snapshot : Snapshot) (pipeline : Pipeline) (unfinished : ¬ pipeline.ended) :
    ∃ turn, work (pipeline.step snapshot turn) < work pipeline := by
  by_cases feeding : pipeline.feed ≠ [] ∨ ¬ pipeline.bookUpdateQueue.closed = true
  · exact ⟨.feeder, feeder_progress feeding⟩
  have shut : pipeline.bookUpdateQueue.closed = true := not_not.mp (not_or.mp feeding).2
  by_cases building : pipeline.builderThread = .ended
  · by_cases opened : pipeline.strategyEventQueue.closed = true
    · have running : pipeline.strategyThread ≠ .ended := fun ended => unfinished ⟨building, ended⟩
      exact ⟨.strategy, strategy_progress running opened⟩
    · exact ⟨.closer, closer_progress building opened⟩
  · exact ⟨.builder 0, builder_progress snapshot 0 building shut⟩

/-- No schedule leads where the pipeline cannot end any more. -/
theorem can_end (snapshot : Snapshot) (pipeline : Pipeline) :
    ∃ schedule : List Turn, (Runs.after (Pipeline.step snapshot) pipeline schedule).ended :=
  Runs.reaches work (progress snapshot) pipeline

end TradingCore.Proofs.PipelineProgress
