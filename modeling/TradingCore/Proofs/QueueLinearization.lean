import TradingCore.Proofs.QueueDelivery
import TradingCore.Proofs.QueueSections

/-! The queue under its lock, next to one whose operations are atomic. Each call
of a thread takes effect once, between its invocation and its return, and the
calls return what they would one after the other in the order of their effects. -/

namespace TradingCore.Proofs.QueueLinearization
open QueueThreads QueueDelivery QueueSections ConditionVariableQueue

variable {ι T : Type}

inductive Moment (T : Type) where
  | invoked (call : Call T)
  | effective (call : Call T) (answer : Answer T)
  | returned (answer : Answer T)

abbrev History (ι T : Type) := List (ι × Moment T)

def effectOf : ι × Moment T → Option (ι × Call T)
  | (thread, .effective call _) => some (thread, call)
  | _ => none

def answerOf : ι × Moment T → Option (Answer T)
  | (_, .effective _ answer) => some answer
  | _ => none

/-- The calls of a history in the order in which they take effect. -/
def calls (history : History ι T) : Turns ι T := history.filterMap effectOf

def answers (history : History ι T) : List (Answer T) := history.filterMap answerOf

def isObserved : ι × Moment T → Bool
  | (_, .effective _ _) => false
  | _ => true

/-- What the callers can see of a history. -/
def observed (history : History ι T) : History ι T := history.filter isObserved

/-- Calls of one thread, each of them from its invocation to its return. -/
def whole (done : List (Call T × Answer T)) : List (Moment T) :=
  done.flatMap fun call => [.invoked call.1, .effective call.1 call.2, .returned call.2]

inductive Stage (T : Type) where
  | idle
  | pending (call : Call T)
  | answered (answer : Answer T)

def stage : QueuePhase T → Stage T
  | .idle => .idle
  | .locking call | .locked call => .pending call
  | .unready | .asleep | .woken | .rechecking => .pending .waitPop
  | .notifyingOne | .notifyingAll => .answered .done
  | .returning answer => .answered answer

/-- The moments that a thread's call in hand has gone through. -/
def InHand : Stage T → List (Moment T) → Prop
  | .idle, moments => moments = []
  | .pending call, moments => moments = [.invoked call]
  | .answered answer, moments => ∃ call, moments = [.invoked call, .effective call answer]

section
variable [DecidableEq ι]

def momentsOf (thread : ι) (history : History ι T) : List (Moment T) :=
  (history.filter fun moment => moment.1 = thread).map Prod.snd

/-- A thread has gone through its calls one after the other. -/
def Sequential (thread : ι) (history : History ι T) (stage : Stage T) : Prop :=
  ∃ done current, momentsOf thread history = whole done ++ current ∧ InHand stage current

/-- The threads after a history, against the atomic queue after its calls. -/
structure Linearized (history : History ι T) (threads : QueueThreads ι T) : Prop where
  queue : threads.queue = Runs.after turn {} (calls history)
  answered : answers history = Runs.emitted turn (fun queue turn => [queue.answer turn.2]) {} (calls history)
  ready : Runs.Along turn (fun queue turn => turn.2 = .waitPop → queue.ready) {} (calls history)
  sequential : ∀ thread, Sequential thread history (stage (threads.phases thread))

/-- The invocations of the idle threads, and what the threads return. -/
def observations (threads : QueueThreads ι T) : Turn ι T → History ι T
  | .invoke thread call =>
    match threads.phases thread with
    | .idle => [(thread, .invoked call)]
    | _ => []
  | .finish thread =>
    match threads.phases thread with
    | .returning answer => [(thread, .returned answer)]
    | _ => []
  | _ => []

/-- What the section under the lock does, when it does anything. -/
def effect (threads : QueueThreads ι T) (thread : ι) : History ι T :=
  match threads.phases thread with
  | .locked .waitPop | .rechecking =>
    if threads.queue.ready then [(thread, .effective .waitPop (threads.queue.answer .waitPop))] else []
  | .locked call => [(thread, .effective call (threads.queue.answer call))]
  | _ => []

def moments (threads : QueueThreads ι T) : Turn ι T → History ι T
  | .criticalSection thread => effect threads thread
  | turn => observations threads turn

variable {history : History ι T} {threads next : QueueThreads ι T} {thread : ι} {call : Call T} {answer : Answer T}

theorem momentsOf_self (thread : ι) (history : History ι T) (moment : Moment T) :
    momentsOf thread (history ++ [(thread, moment)]) = momentsOf thread history ++ [moment] := by
  simp [momentsOf]

theorem Sequential.other {other : ι} (different : other ≠ thread) {stage : Stage T}
    (sequential : Sequential other history stage) (moment : Moment T) :
    Sequential other (history ++ [(thread, moment)]) stage := by
  have same : momentsOf other (history ++ [(thread, moment)]) = momentsOf other history := by
    simp [momentsOf, Ne.symm different]
  rw [Sequential, same]
  exact sequential

theorem Sequential.invoked (sequential : Sequential thread history .idle) (call : Call T) :
    Sequential thread (history ++ [(thread, .invoked call)]) (.pending call) := by
  obtain ⟨done, current, moments, rfl⟩ := sequential
  refine ⟨done, [.invoked call], ?_, rfl⟩
  rw [momentsOf_self, moments, List.append_nil]

theorem Sequential.effective (sequential : Sequential thread history (.pending call)) (answer : Answer T) :
    Sequential thread (history ++ [(thread, .effective call answer)]) (.answered answer) := by
  obtain ⟨done, current, moments, rfl⟩ := sequential
  refine ⟨done, [.invoked call, .effective call answer], ?_, call, rfl⟩
  rw [momentsOf_self, moments, List.append_assoc]
  rfl

theorem Sequential.returned (sequential : Sequential thread history (.answered answer)) :
    Sequential thread (history ++ [(thread, .returned answer)]) .idle := by
  obtain ⟨done, current, moments, call, rfl⟩ := sequential
  have longer : whole (done ++ [(call, answer)]) =
      whole done ++ [.invoked call, .effective call answer, .returned answer] := List.flatMap_append
  refine ⟨done ++ [(call, answer)], [], ?_, rfl⟩
  rw [momentsOf_self, moments, longer, List.append_nil, List.append_assoc]
  rfl

/-- A step that is no moment of the history. -/
theorem Linearized.quiet (linearized : Linearized history threads) (queue : next.queue = threads.queue)
    (same : ∀ thread, stage (next.phases thread) = stage (threads.phases thread)) :
    Linearized (history ++ []) next := by
  rw [List.append_nil]
  refine ⟨queue.trans linearized.queue, linearized.answered, linearized.ready, ?_⟩
  intro thread
  rw [same]
  exact linearized.sequential thread

/-- One thread moves on at a moment when no call takes effect. -/
theorem Linearized.observes (linearized : Linearized history threads) {moment : Moment T}
    (ineffective : effectOf (thread, moment) = none) (unanswered : answerOf (thread, moment) = none)
    {phase : QueuePhase T} (self : Sequential thread (history ++ [(thread, moment)]) (stage phase)) :
    Linearized (history ++ [(thread, moment)]) (threads.setPhase thread phase) := by
  have same : calls (history ++ [(thread, moment)]) = calls history := by
    rw [calls, List.filterMap_append, List.filterMap_cons_none ineffective]
    exact List.append_nil _
  have silent : answers (history ++ [(thread, moment)]) = answers history := by
    rw [answers, List.filterMap_append, List.filterMap_cons_none unanswered]
    exact List.append_nil _
  refine ⟨?_, ?_, ?_, ?_⟩
  · rw [same]
    exact linearized.queue
  · rw [same, silent]
    exact linearized.answered
  · rw [same]
    exact linearized.ready
  · apply (Function.forall_update_iff threads.phases fun other phase =>
      Sequential other (history ++ [(thread, moment)]) (stage phase)).mpr
    exact ⟨self, fun other different => (linearized.sequential other).other different moment⟩

/-- The call in hand takes effect. -/
theorem Linearized.effective (linearized : Linearized history threads)
    (held : stage (threads.phases thread) = .pending call) (ready : call = .waitPop → threads.queue.ready)
    (moved : next.queue = threads.queue.step call)
    (done : stage (next.phases thread) = .answered (threads.queue.answer call))
    (others : ∀ other, other ≠ thread → next.phases other = threads.phases other) :
    Linearized (history ++ [(thread, .effective call (threads.queue.answer call))]) next := by
  have extended : calls (history ++ [(thread, .effective call (threads.queue.answer call))]) =
      calls history ++ [(thread, call)] := by
    rw [calls, List.filterMap_append]
    rfl
  have longer : answers (history ++ [(thread, .effective call (threads.queue.answer call))]) =
      answers history ++ [threads.queue.answer call] := by
    rw [answers, List.filterMap_append]
    rfl
  refine ⟨?_, ?_, ?_, ?_⟩
  · rw [extended, Runs.after_append, ← linearized.queue]
    exact moved
  · rw [extended, longer, Runs.emitted_append, ← linearized.answered, ← linearized.queue]
    rfl
  · rw [extended, Runs.along_append, ← linearized.queue]
    exact ⟨linearized.ready, ready, trivial⟩
  · intro other
    have sequential := linearized.sequential other
    by_cases self : other = thread
    · subst self
      rw [held] at sequential
      rw [done]
      exact sequential.effective _
    · rw [others other self]
      exact sequential.other self _

theorem unlock_other (threads : QueueThreads ι T) (thread : ι) (phase : QueuePhase T) {other : ι}
    (different : other ≠ thread) : (threads.unlock thread phase).phases other = threads.phases other :=
  Function.update_of_ne different _ _

theorem unlock_self (threads : QueueThreads ι T) (thread : ι) (phase : QueuePhase T) :
    (threads.unlock thread phase).phases thread = phase :=
  Function.update_self ..

/-- Moving one thread between phases of the same stage. -/
theorem stage_update {phases : ι → QueuePhase T} {phase : QueuePhase T} (moved : QueuePhase T)
    (found : phases thread = phase) (same : stage moved = stage phase) (other : ι) :
    stage (Function.update phases thread moved other) = stage (phases other) := by
  rw [Function.update_apply]
  split
  next self => rw [self, same, found]
  next => rfl

theorem Linearized.checks (linearized : Linearized history threads)
    (held : stage (threads.phases thread) = .pending .waitPop) :
    Linearized (history ++
        if threads.queue.ready then [(thread, .effective .waitPop (threads.queue.answer .waitPop))] else [])
      (threads.checkPredicate thread) := by
  rw [checkPredicate]
  split
  next ready =>
    apply linearized.effective held (fun _ => ready)
    · rw [ConditionVariableQueue.step, if_pos ready]
      rfl
    · rw [unlock_self, stage, ConditionVariableQueue.answer, if_pos ready]
    · exact fun other different => unlock_other _ thread _ different
  next => exact linearized.quiet rfl (stage_update .unready rfl held.symm)

theorem Linearized.criticalSection (linearized : Linearized history threads) (thread : ι) :
    Linearized (history ++ effect threads thread) (threads.criticalSection thread) := by
  rw [effect, QueueThreads.criticalSection]
  cases phase : threads.phases thread with
  | locked call =>
    cases call with
    | push value =>
      apply linearized.effective (congrArg stage phase) (fun same => by cases same)
      · rw [ConditionVariableQueue.step, ConditionVariableQueue.push]
        dsimp only
        split
        next => rfl
        next opened =>
          show threads.queue.push value = _
          rw [push, if_neg opened]
      · dsimp only
        split
        next => rw [unlock_self, stage, ConditionVariableQueue.answer]
        next => rw [unlock_self, stage, ConditionVariableQueue.answer]
      · intro other different
        dsimp only
        split
        next => exact unlock_other _ thread _ different
        next => exact unlock_other _ thread _ different
    | tryPop | close | isClosed | empty =>
      apply linearized.effective (congrArg stage phase) (fun same => by cases same)
      · rfl
      · rw [unlock_self, stage, ConditionVariableQueue.answer]
      · exact fun other different => unlock_other _ thread _ different
    | waitPop => exact linearized.checks (congrArg stage phase)
  | rechecking => exact linearized.checks (congrArg stage phase)
  | _ => exact linearized.quiet rfl fun _ => rfl

theorem Linearized.invoke (linearized : Linearized history threads) (thread : ι) (call : Call T) :
    Linearized (history ++ observations threads (.invoke thread call)) (threads.invoke thread call) := by
  rw [observations, QueueThreads.invoke]
  cases phase : threads.phases thread with
  | idle =>
    have sequential := linearized.sequential thread
    rw [phase] at sequential
    exact linearized.observes rfl rfl (sequential.invoked call)
  | _ => exact linearized.quiet rfl fun _ => rfl

theorem Linearized.finish (linearized : Linearized history threads) (thread : ι) :
    Linearized (history ++ observations threads (.finish thread)) (threads.finish thread) := by
  rw [observations, QueueThreads.finish]
  cases phase : threads.phases thread with
  | returning answer =>
    have sequential := linearized.sequential thread
    rw [phase] at sequential
    exact linearized.observes rfl rfl sequential.returned
  | _ => exact linearized.quiet rfl fun _ => rfl

theorem Linearized.lock (linearized : Linearized history threads) (thread : ι) :
    Linearized (history ++ []) (threads.lock thread) := by
  rw [QueueThreads.lock]
  split
  next => exact linearized.quiet rfl fun _ => rfl
  next =>
    cases phase : threads.phases thread with
    | locking call => exact linearized.quiet rfl (stage_update (.locked call) phase rfl)
    | woken => exact linearized.quiet rfl (stage_update .rechecking phase rfl)
    | _ => exact linearized.quiet rfl fun _ => rfl

theorem Linearized.sleep (linearized : Linearized history threads) (thread : ι) :
    Linearized (history ++ []) (threads.sleep thread) := by
  rw [QueueThreads.sleep]
  cases phase : threads.phases thread with
  | unready => exact linearized.quiet rfl (stage_update .asleep phase rfl)
  | _ => exact linearized.quiet rfl fun _ => rfl

theorem stage_wake (threads : QueueThreads ι T) (sleeper other : ι) :
    stage ((threads.wake sleeper).phases other) = stage (threads.phases other) := by
  rw [QueueThreads.wake]
  cases phase : threads.phases sleeper with
  | asleep => exact stage_update .woken phase rfl other
  | _ => rfl

omit [DecidableEq ι] in
theorem stage_wakeAll (threads : QueueThreads ι T) (other : ι) :
    stage (threads.wakeAll.phases other) = stage (threads.phases other) := by
  rw [wakeAll]
  dsimp only
  cases threads.phases other <;> rfl

variable [Fintype ι]

theorem Linearized.notify (linearized : Linearized history threads) (thread sleeper : ι) :
    Linearized (history ++ []) (threads.notify thread sleeper) := by
  rw [QueueThreads.notify]
  cases phase : threads.phases thread with
  | notifyingOne =>
    dsimp only
    split
    next =>
      have done : stage (.returning .done) = stage ((threads.wake sleeper).phases thread) := by
        rw [stage_wake, phase]
        rfl
      have same := fun other => (stage_update _ rfl done other).trans (stage_wake threads sleeper other)
      exact linearized.quiet (wake_outside threads sleeper).queue same
    next => exact linearized.quiet rfl fun _ => rfl
  | notifyingAll =>
    have done : stage (.returning .done) = stage (threads.wakeAll.phases thread) := by
      rw [stage_wakeAll, phase]
      rfl
    have same := fun other => (stage_update _ rfl done other).trans (stage_wakeAll threads other)
    exact linearized.quiet rfl same
  | _ => exact linearized.quiet rfl fun _ => rfl

theorem step_linearized (history : History ι T) (threads : QueueThreads ι T) (turn : Turn ι T)
    (linearized : Linearized history threads) :
    Linearized (history ++ moments threads turn) (threads.step turn) := by
  cases turn with
  | invoke thread call => exact linearized.invoke thread call
  | lock thread => exact linearized.lock thread
  | criticalSection thread => exact linearized.criticalSection thread
  | sleep thread => exact linearized.sleep thread
  | notify thread sleeper => exact linearized.notify thread sleeper
  | wakeSpuriously thread => exact linearized.quiet (wake_outside threads thread).queue (stage_wake threads thread)
  | finish thread => exact linearized.finish thread

omit [DecidableEq ι] [Fintype ι] in
/-- The moments that the callers can see are the ones at which they call or are
answered. -/
theorem observed_moments (threads : QueueThreads ι T) (turn : Turn ι T) :
    observed (moments threads turn) = observations threads turn := by
  cases turn with
  | invoke thread call =>
    show observed (observations threads (.invoke thread call)) = _
    rw [observations]
    cases threads.phases thread <;> rfl
  | finish thread =>
    show observed (observations threads (.finish thread)) = _
    rw [observations]
    cases threads.phases thread <;> rfl
  | criticalSection thread =>
    show observed (effect threads thread) = []
    rw [effect]
    split
    next => split <;> rfl
    next => split <;> rfl
    next => rfl
    next => rfl
  | _ => rfl

theorem observed_run (threads : QueueThreads ι T) (turns : List (Turn ι T)) :
    observed (Runs.emitted QueueThreads.step moments threads turns) =
      Runs.emitted QueueThreads.step observations threads turns := by
  induction turns generalizing threads with
  | nil => rfl
  | cons turn rest ih =>
    rw [Runs.emitted_cons, Runs.emitted_cons, observed, List.filter_append]
    exact congrArg₂ (· ++ ·) (observed_moments threads turn) (ih (threads.step turn))

/-- However the single accesses of any number of threads interleave, there is a
history with the calls and the answers of the threads at their moments, in
which each call takes effect once between the two: the queue is what the calls
make of it one after the other in the order of their effects, the answers are
the ones they would then get, and no `waitPop` comes before the queue is ready. -/
theorem linearizable (turns : List (Turn ι T)) :
    ∃ history : History ι T,
      observed history = Runs.emitted QueueAccesses.step (fun accesses => observations accesses.threads) {} turns ∧
      Linearized history (Runs.after QueueAccesses.step {} turns).threads := by
  have preserved : ∀ (accesses : QueueAccesses ι T) turn, Sound accesses → Sound (accesses.step turn) :=
    fun _ turn sound => (sound.step turn).1
  have simulates : ∀ (accesses : QueueAccesses ι T) turn, Sound accesses →
      (accesses.step turn).threads = accesses.threads.step turn ∨
      (accesses.step turn).threads = accesses.threads ∧ observations accesses.threads turn = [] := by
    intro accesses turn sound
    rcases (sound.step turn).2 with same | ⟨hidden, thread, rfl⟩
    · exact Or.inl same
    · exact Or.inr ⟨hidden, rfl⟩
  obtain ⟨seen, _, reached, given⟩ := Runs.refined preserved simulates sound_empty turns
  have start : Linearized [] ({} : QueueThreads ι T) := ⟨rfl, rfl, trivial, fun _ => ⟨[], [], rfl, rfl⟩⟩
  refine ⟨Runs.emitted QueueThreads.step moments {} seen, ?_, ?_⟩
  · rw [given]
    exact observed_run {} seen
  · rw [reached]
    exact Runs.invariant_emitted step_linearized start seen

end

/-- Thread 1 asks for the lock in the middle of the section of thread 0. -/
def contended : List (Turn (Fin 2) Nat) :=
  [.invoke 0 (.push 5), .lock 0, .invoke 1 .tryPop, .criticalSection 0, .lock 1, .criticalSection 1,
    .criticalSection 0, .lock 1, .criticalSection 1, .criticalSection 1, .criticalSection 1]

example : (Runs.after QueueAccesses.step {} contended).threads.phases 1 = .returning (.popped (some 5)) := by decide

end TradingCore.Proofs.QueueLinearization
