import TradingCore.Common.QueueAccesses
import TradingCore.Proofs.WakeUps

/-! The accesses of a section against the section as one step. The lock keeps
the other threads out of the queue, so that what a thread has read stays true
until its last access, and that access does what the whole section would do. -/

namespace TradingCore.Proofs.QueueSections
open QueueThreads WakeUps

section
variable {T : Type}

def inSection : QueuePhase T → Bool
  | .locked _ | .rechecking => true
  | _ => false

theorem holdsLock_of_inSection {phase : QueuePhase T} (inside : inSection phase) : holdsLock phase := by
  cases phase with
  | locked | rechecking => rfl
  | _ => cases inside

/-- What a thread in its section knows of the queue. -/
def Knows (queue : ConditionVariableQueue T) : Progress T → Prop
  | .entered => True
  | .sawOpen => queue.closed = false
  | .sawReady => queue.ready
  | .sawValue => queue.values ≠ []
  | .moved value => queue.values.head? = some value

end

variable {ι T : Type} [Fintype ι]

structure Sound (accesses : QueueAccesses ι T) : Prop where
  awake : Awake accesses.threads
  outside : ∀ thread, ¬ inSection (accesses.threads.phases thread) → accesses.progress thread = .entered
  knows : ∀ thread, Knows accesses.threads.queue (accesses.progress thread)

variable [DecidableEq ι] {accesses : QueueAccesses ι T} {thread : ι}

omit [DecidableEq ι] in
theorem Sound.alone (sound : Sound accesses) (inside : inSection (accesses.threads.phases thread)) {other : ι}
    (different : other ≠ thread) : accesses.progress other = .entered := by
  apply sound.outside
  intro also
  have self := sound.awake.owner thread (holdsLock_of_inSection inside)
  have same := sound.awake.owner other (holdsLock_of_inSection also)
  exact different (Option.some.inj (same.symm.trans self))

/-- A thread that reads on leaves the queue to itself. -/
theorem Sound.read (sound : Sound accesses) (inside : inSection (accesses.threads.phases thread))
    {progress : Progress T} (knows : Knows accesses.threads.queue progress) :
    Sound (accesses.read thread progress) := by
  refine ⟨sound.awake, ?_, ?_⟩
  · intro other outside
    have different : other ≠ thread := by
      rintro rfl
      exact outside inside
    exact (Function.update_of_ne different _ _).trans (sound.outside other outside)
  · apply (Function.forall_update_iff accesses.progress fun _ => Knows accesses.threads.queue).mpr
    exact ⟨knows, fun other _ => sound.knows other⟩

theorem Sound.leave (sound : Sound accesses) (inside : inSection (accesses.threads.phases thread))
    {threads : QueueThreads ι T} (awake : Awake threads) : Sound (accesses.leave thread threads) := by
  have entered : ∀ other, (accesses.leave thread threads).progress other = .entered := by
    intro other
    by_cases self : other = thread
    · subst self
      exact Function.update_self ..
    · exact (Function.update_of_ne self _ _).trans (sound.alone inside self)
  refine ⟨awake, fun other _ => entered other, ?_⟩
  intro other
  rw [entered]
  trivial

/-- What an access comes to: nothing, one more fact for its thread, or what the
whole section does. -/
inductive Accessed (accesses : QueueAccesses ι T) (thread : ι) : QueueAccesses ι T → Prop
  | nothing : Accessed accesses thread accesses
  | fact {progress : Progress T} (knows : Knows accesses.threads.queue progress) :
      Accessed accesses thread (accesses.read thread progress)
  | whole : Accessed accesses thread (accesses.leave thread (accesses.threads.criticalSection thread))

omit [Fintype ι] in
theorem Accessed.of_eq {threads : QueueThreads ι T} (same : threads = accesses.threads.criticalSection thread) :
    Accessed accesses thread (accesses.leave thread threads) := by
  rw [same]
  exact .whole

theorem push_accessed (sound : Sound accesses) {value : T}
    (pushing : accesses.threads.phases thread = .locked (.push value)) :
    Accessed accesses thread (accesses.push thread value) := by
  have knows := sound.knows thread
  have section_eq : accesses.threads.criticalSection thread =
      if accesses.threads.queue.closed then accesses.threads.unlock thread (.returning .done)
      else { accesses.threads with queue := accesses.threads.queue.push value }.unlock thread .notifyingOne := by
    rw [QueueThreads.criticalSection, pushing]
  rw [QueueAccesses.push]
  cases progress : accesses.progress thread with
  | entered =>
    dsimp only
    split
    next closed =>
      apply Accessed.of_eq
      rw [section_eq, if_pos closed]
    next opened => exact .fact (Bool.eq_false_iff.mpr opened)
  | sawOpen =>
    rw [progress] at knows
    have opened : ¬ accesses.threads.queue.closed = true := Bool.eq_false_iff.mp knows
    apply Accessed.of_eq
    rw [section_eq, if_neg opened, ConditionVariableQueue.push_open opened]
  | _ => exact .nothing

/-- The section of a call that pops, whichever of the two it is. -/
def Pops (threads : QueueThreads ι T) (thread : ι) : Prop :=
  threads.criticalSection thread =
    { threads with queue := threads.queue.tryPop.2 }.unlock thread (.returning (.popped threads.queue.tryPop.1))

omit [Fintype ι] in
theorem checkEmpty_accessed (pops : Pops accesses.threads thread) :
    Accessed accesses thread (accesses.checkEmpty thread) := by
  rw [QueueAccesses.checkEmpty]
  split
  next none =>
    apply Accessed.of_eq
    rw [pops, ConditionVariableQueue.tryPop, List.isEmpty_iff.mp none]
  next some => exact .fact fun none => some (List.isEmpty_iff.mpr none)

omit [Fintype ι] in
theorem popFront_accessed {progress : Progress T} (knows : Knows accesses.threads.queue progress)
    (pops : accesses.threads.queue.values ≠ [] → Pops accesses.threads thread) :
    Accessed accesses thread (accesses.popFront thread progress) := by
  cases progress with
  | sawValue =>
    rw [QueueAccesses.popFront]
    split
    next => exact .nothing
    next value rest values => exact .fact (congrArg List.head? values)
  | moved value =>
    obtain ⟨rest, values⟩ := List.head?_eq_some_iff.mp knows
    have some : accesses.threads.queue.values ≠ [] := by
      rw [values]
      exact List.cons_ne_nil value rest
    apply Accessed.of_eq
    rw [pops some, ConditionVariableQueue.tryPop, values]
    rfl
  | _ => exact .nothing

omit [Fintype ι] in
theorem tryPop_pops {threads : QueueThreads ι T} (popping : threads.phases thread = .locked .tryPop) :
    Pops threads thread := by
  rw [Pops, QueueThreads.criticalSection, popping]

theorem tryPop_accessed (sound : Sound accesses) (popping : accesses.threads.phases thread = .locked .tryPop) :
    Accessed accesses thread (accesses.tryPop thread) := by
  have knows := sound.knows thread
  rw [QueueAccesses.tryPop]
  split
  next => exact checkEmpty_accessed (tryPop_pops popping)
  next => exact popFront_accessed knows fun _ => tryPop_pops popping

omit [Fintype ι] in
theorem checkPredicate_pops {threads : QueueThreads ι T}
    (checking : threads.criticalSection thread = threads.checkPredicate thread) (ready : threads.queue.ready) :
    Pops threads thread := by
  rw [Pops, checking, QueueThreads.checkPredicate, if_pos ready]
  rfl

theorem waitPop_accessed (sound : Sound accesses)
    (checking : accesses.threads.criticalSection thread = accesses.threads.checkPredicate thread) :
    Accessed accesses thread (accesses.waitPop thread) := by
  have knows := sound.knows thread
  rw [QueueAccesses.waitPop]
  cases progress : accesses.progress thread with
  | entered =>
    dsimp only
    split
    next closed => exact .fact (Or.inl closed)
    next opened => exact .fact (Bool.eq_false_iff.mpr opened)
  | sawOpen =>
    rw [progress] at knows
    dsimp only
    split
    next none =>
      have unready : ¬ accesses.threads.queue.ready := by
        rintro (closed | some)
        · cases closed.symm.trans knows
        · exact some (List.isEmpty_iff.mp none)
      apply Accessed.of_eq
      rw [checking, QueueThreads.checkPredicate, if_neg unready]
    next some => exact .fact (Or.inr fun none => some (List.isEmpty_iff.mpr none))
  | sawReady =>
    rw [progress] at knows
    exact checkEmpty_accessed (checkPredicate_pops checking knows)
  | sawValue | moved =>
    rw [progress] at knows
    exact popFront_accessed knows fun some => checkPredicate_pops checking (Or.inr some)

theorem criticalSection_accessed (sound : Sound accesses) (thread : ι) :
    Accessed accesses thread (accesses.criticalSection thread) := by
  rw [QueueAccesses.criticalSection]
  cases phase : accesses.threads.phases thread with
  | locked call =>
    cases call with
    | push value => exact push_accessed sound phase
    | tryPop => exact tryPop_accessed sound phase
    | waitPop =>
      apply waitPop_accessed sound
      rw [QueueThreads.criticalSection, phase]
    | close | isClosed =>
      apply Accessed.of_eq
      rw [QueueThreads.criticalSection, phase]
      rfl
    | empty =>
      apply Accessed.of_eq
      rw [QueueThreads.criticalSection, phase]
  | rechecking =>
    apply waitPop_accessed sound
    rw [QueueThreads.criticalSection, phase]
  | _ => exact .nothing

omit [Fintype ι] in
theorem criticalSection_outside (accesses : QueueAccesses ι T) {thread : ι}
    (outside : ¬ inSection (accesses.threads.phases thread)) : accesses.criticalSection thread = accesses := by
  rw [QueueAccesses.criticalSection]
  cases phase : accesses.threads.phases thread with
  | locked | rechecking =>
    rw [phase] at outside
    exact absurd rfl outside
  | _ => rfl

/-- The queue and the threads in their sections are left as they are. -/
structure Outside (threads next : QueueThreads ι T) : Prop where
  queue : next.queue = threads.queue
  stay : ∀ thread, inSection (threads.phases thread) → inSection (next.phases thread)

omit [Fintype ι] [DecidableEq ι] in
theorem Outside.refl (threads : QueueThreads ι T) : Outside threads threads := ⟨rfl, fun _ inside => inside⟩

omit [Fintype ι] in
/-- A thread that is not in a section goes on to another phase. -/
theorem Outside.moves {threads next last : QueueThreads ι T} (moved : Outside threads next)
    {before after : QueuePhase T} (found : threads.phases thread = before) (outside : ¬ inSection before)
    (queue : last.queue = next.queue) (phases : last.phases = Function.update next.phases thread after) :
    Outside threads last := by
  refine ⟨queue.trans moved.queue, ?_⟩
  intro other inside
  have different : other ≠ thread := by
    rintro rfl
    rw [found] at inside
    exact outside inside
  rw [phases, Function.update_of_ne different]
  exact moved.stay other inside

omit [Fintype ι] in
theorem wake_outside (threads : QueueThreads ι T) (thread : ι) : Outside threads (threads.wake thread) := by
  rw [QueueThreads.wake]
  split
  next asleep => exact (Outside.refl threads).moves asleep Bool.false_ne_true rfl rfl
  next => exact .refl threads

omit [Fintype ι] [DecidableEq ι] in
theorem wakeAll_outside (threads : QueueThreads ι T) : Outside threads threads.wakeAll := by
  refine ⟨rfl, ?_⟩
  intro thread inside
  rw [wakeAll]
  dsimp only
  split
  next asleep =>
    rw [isAsleep_iff.mp asleep] at inside
    cases inside
  next => exact inside

theorem notify_outside (threads : QueueThreads ι T) (thread sleeper : ι) :
    Outside threads (threads.notify thread sleeper) := by
  rw [QueueThreads.notify]
  split
  next notifying =>
    split
    next => exact (wake_outside threads sleeper).moves notifying Bool.false_ne_true rfl rfl
    next => exact .refl threads
  next notifying => exact (wakeAll_outside threads).moves notifying Bool.false_ne_true rfl rfl
  next => exact .refl threads

theorem step_outside (threads : QueueThreads ι T) {turn : Turn ι T}
    (outside : ∀ thread, turn ≠ .criticalSection thread) :
    Outside threads (threads.step turn) := by
  cases turn with
  | invoke thread call =>
    rw [QueueThreads.step, QueueThreads.invoke]
    split
    next idle => exact (Outside.refl threads).moves idle Bool.false_ne_true rfl rfl
    next => exact .refl threads
  | lock thread =>
    rw [QueueThreads.step, QueueThreads.lock]
    split
    next => exact .refl threads
    next =>
      split
      next locking => exact (Outside.refl threads).moves locking Bool.false_ne_true rfl rfl
      next woken => exact (Outside.refl threads).moves woken Bool.false_ne_true rfl rfl
      next => exact .refl threads
  | criticalSection thread => exact absurd rfl (outside thread)
  | sleep thread =>
    rw [QueueThreads.step, QueueThreads.sleep]
    split
    next unready => exact (Outside.refl threads).moves unready Bool.false_ne_true rfl rfl
    next => exact .refl threads
  | notify thread sleeper => exact notify_outside threads thread sleeper
  | wakeSpuriously thread => exact wake_outside threads thread
  | finish thread =>
    rw [QueueThreads.step, QueueThreads.finish]
    split
    next returning => exact (Outside.refl threads).moves returning Bool.false_ne_true rfl rfl
    next => exact .refl threads

/-- One turn of the accesses is the same turn of the threads, unless it is an
access after which the section goes on: nothing has happened then. -/
def Simulates (accesses : QueueAccesses ι T) (turn : Turn ι T) : Prop :=
  (accesses.step turn).threads = accesses.threads.step turn ∨
  (accesses.step turn).threads = accesses.threads ∧ ∃ thread, turn = .criticalSection thread

theorem Sound.access (sound : Sound accesses) (thread : ι) :
    Sound (accesses.step (.criticalSection thread)) ∧ Simulates accesses (.criticalSection thread) := by
  rw [Simulates, QueueAccesses.step]
  by_cases inside : inSection (accesses.threads.phases thread)
  · have accessed := criticalSection_accessed sound thread
    generalize accesses.criticalSection thread = next at accessed ⊢
    cases accessed with
    | nothing => exact ⟨sound, Or.inr ⟨rfl, thread, rfl⟩⟩
    | fact knows => exact ⟨sound.read inside knows, Or.inr ⟨rfl, thread, rfl⟩⟩
    | whole => exact ⟨sound.leave inside (sound.awake.criticalSection thread), Or.inl rfl⟩
  · rw [criticalSection_outside accesses inside]
    exact ⟨sound, Or.inr ⟨rfl, thread, rfl⟩⟩

theorem Sound.other (sound : Sound accesses) {turn : Turn ι T} (outside : ∀ thread, turn ≠ .criticalSection thread) :
    Sound (accesses.step turn) ∧ Simulates accesses turn := by
  have same : accesses.step turn = { accesses with threads := accesses.threads.step turn } := by
    cases turn with
    | criticalSection thread => exact absurd rfl (outside thread)
    | _ => rfl
  have moved := step_outside accesses.threads outside
  rw [Simulates, same]
  refine ⟨⟨sound.awake.step turn, ?_, ?_⟩, Or.inl rfl⟩
  · intro thread left
    exact sound.outside thread fun inside => left (moved.stay thread inside)
  · intro thread
    rw [moved.queue]
    exact sound.knows thread

theorem Sound.step (sound : Sound accesses) (turn : Turn ι T) :
    Sound (accesses.step turn) ∧ Simulates accesses turn := by
  cases turn with
  | criticalSection thread => exact sound.access thread
  | _ => exact sound.other (fun _ same => by cases same)

omit [DecidableEq ι] in
theorem sound_empty : Sound ({} : QueueAccesses ι T) :=
  ⟨awake_empty, fun _ _ => rfl, fun _ => trivial⟩

end TradingCore.Proofs.QueueSections
