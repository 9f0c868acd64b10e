import TradingCore.Common.QueueThreads
import TradingCore.Foundation.Runs
import TradingCore.Foundation.Threads

/-! No wake-up is lost. While a thread sleeps, every queued value is covered by
a notification still to come or by a woken thread that has yet to look, and a
close by a notification still to come. -/

namespace TradingCore.Proofs.WakeUps
open QueueThreads Threads

section
variable {T : Type}

def holdsLock : QueuePhase T → Bool
  | .locked _ | .unready | .rechecking => true
  | .idle | .locking _ | .asleep | .woken | .notifyingOne | .notifyingAll | .returning _ => false

/-- A call of `notify_one` to come, or a woken thread that has yet to check. -/
def notices : QueuePhase T → Nat
  | .notifyingOne | .woken | .rechecking => 1
  | .idle | .locking _ | .locked _ | .unready | .asleep | .notifyingAll | .returning _ => 0

end

variable {ι T : Type} [Fintype ι]

/-- As long as a thread sleeps, the notices cover this many values. -/
def Covers (phases : ι → QueuePhase T) (values : Nat) : Prop :=
  (∃ thread, (phases thread).isAsleep) → values ≤ total notices phases

def ClosePending (phases : ι → QueuePhase T) : Prop :=
  (∃ thread, (phases thread).isAsleep) → ∃ thread, phases thread = .notifyingAll

structure Awake (threads : QueueThreads ι T) : Prop where
  owner : ∀ thread, holdsLock (threads.phases thread) → threads.mutex = some thread
  unready : ∀ thread, threads.phases thread = .unready → ¬ threads.queue.ready
  covered : Covers threads.phases threads.queue.values.length
  closing : threads.queue.closed → ClosePending threads.phases

theorem covers_none {phases : ι → QueuePhase T} : Covers phases 0 := fun _ => Nat.zero_le _

variable [DecidableEq ι] {phases : ι → QueuePhase T} {thread : ι} {phase : QueuePhase T}

omit [Fintype ι] in
theorem asleep_before (up : phase.isAsleep = false)
    (sleeps : ∃ other, (Function.update phases thread phase other).isAsleep) : ∃ other, (phases other).isAsleep := by
  rw [Function.exists_update_iff phases fun _ (phase : QueuePhase T) => phase.isAsleep = true] at sleeps
  rcases sleeps with asleep | ⟨other, _, asleep⟩
  · rw [up] at asleep
    cases asleep
  · exact ⟨other, asleep⟩

theorem Covers.update {before after : Nat} (covers : Covers phases before) (up : phase.isAsleep = false)
    (enough : after + notices (phases thread) ≤ before + notices phase) :
    Covers (Function.update phases thread phase) after := by
  intro sleeps
  have held := covers (asleep_before up sleeps)
  have moved := total_update notices phases thread phase
  omega

omit [Fintype ι] in
theorem ClosePending.update (pending : ClosePending phases) (up : phase.isAsleep = false)
    (still : phases thread ≠ .notifyingAll) : ClosePending (Function.update phases thread phase) := by
  intro sleeps
  obtain ⟨notifier, notifying⟩ := pending (asleep_before up sleeps)
  have other : notifier ≠ thread := by
    rintro rfl
    exact still notifying
  refine ⟨notifier, ?_⟩
  rw [Function.update_of_ne other]
  exact notifying

omit [Fintype ι] in
theorem owned_update {mutex : Option ι} (self : holdsLock phase → mutex = some thread)
    (others : ∀ other, other ≠ thread → holdsLock (phases other) → mutex = some other) :
    ∀ other, holdsLock (Function.update phases thread phase other) → mutex = some other := by
  apply (Function.forall_update_iff phases fun other phase => holdsLock phase → mutex = some other).mpr
  exact ⟨self, others⟩

omit [Fintype ι] in
theorem unready_update {queue : ConditionVariableQueue T} (self : phase = .unready → ¬ queue.ready)
    (others : ∀ other, other ≠ thread → phases other = .unready → ¬ queue.ready) :
    ∀ other, Function.update phases thread phase other = .unready → ¬ queue.ready := by
  apply (Function.forall_update_iff phases fun _ (phase : QueuePhase T) => phase = .unready → ¬ queue.ready).mpr
  exact ⟨self, others⟩

variable {threads : QueueThreads ι T}

/-- A thread moves between two phases without the lock. -/
theorem Awake.outside (awake : Awake threads) (free : holdsLock phase = false) (up : phase.isAsleep = false)
    (still : threads.phases thread ≠ .notifyingAll)
    (covered : Covers (Function.update threads.phases thread phase) threads.queue.values.length) :
    Awake (threads.setPhase thread phase) := by
  refine ⟨?_, ?_, covered, fun closed => (awake.closing closed).update up still⟩
  · refine owned_update ?_ (fun other _ => awake.owner other)
    intro holds
    rw [free] at holds
    cases holds
  · refine unready_update ?_ (fun other _ => awake.unready other)
    rintro rfl
    cases free

/-- A thread takes the lock that nobody has. -/
theorem Awake.locks (awake : Awake threads) (unowned : threads.mutex = none) (up : phase.isAsleep = false)
    (checked : phase ≠ .unready) (still : threads.phases thread ≠ .notifyingAll)
    (same : notices (threads.phases thread) = notices phase) :
    Awake { threads.setPhase thread phase with mutex := some thread } := by
  have covered := awake.covered.update up (Nat.add_le_add_left (Nat.le_of_eq same) _)
  refine ⟨?_, ?_, covered, fun closed => (awake.closing closed).update up still⟩
  · refine owned_update (fun _ => rfl) ?_
    intro other _ holds
    cases unowned.symm.trans (awake.owner other holds)
  · exact unready_update (fun unready => absurd unready checked) (fun other _ => awake.unready other)

/-- The thread with the lock changes the queue and releases the lock. -/
theorem Awake.unlocks (awake : Awake threads) (holds : holdsLock (threads.phases thread))
    (free : holdsLock phase = false) (queue : ConditionVariableQueue T)
    (covered : Covers (Function.update threads.phases thread phase) queue.values.length)
    (closing : queue.closed → ClosePending (Function.update threads.phases thread phase)) :
    Awake ({ threads with queue }.unlock thread phase) := by
  have alone : ∀ other, other ≠ thread → ¬ holdsLock (threads.phases other) := by
    intro other different held
    have same := (awake.owner other held).symm.trans (awake.owner thread holds)
    exact different (Option.some.inj same)
  refine ⟨?_, ?_, covered, closing⟩
  · refine owned_update ?_ (fun other different held => absurd held (alone other different))
    intro held
    rw [free] at held
    cases held
  · refine unready_update ?_ ?_
    · rintro rfl
      cases free
    · intro other different unready
      refine absurd ?_ (alone other different)
      rw [unready]
      rfl

/-- The thread with the lock finds the predicate false. -/
theorem Awake.finds_unready (awake : Awake threads) (holds : holdsLock (threads.phases thread))
    (unready : ¬ threads.queue.ready) :
    Awake (threads.setPhase thread .unready) := by
  have none : threads.queue.values = [] := not_not.mp (not_or.mp unready).2
  refine ⟨?_, ?_, ?_, fun closed => absurd (Or.inl closed) unready⟩
  · exact owned_update (fun _ => awake.owner thread holds) (fun other _ => awake.owner other)
  · exact fun _ _ => unready
  · show Covers _ threads.queue.values.length
    rw [none]
    exact covers_none

theorem notices_le_one (phase : QueuePhase T) : notices phase ≤ 1 := by
  cases phase <;> simp [notices]

/-- A value that is popped was covered by one notice at most. -/
theorem Covers.pop {values : Nat} (covers : Covers phases values) (thread : ι)
    (answer : ConditionVariableQueue.Answer T) :
    Covers (Function.update phases thread (.returning answer)) (values - 1) := by
  cases values with
  | zero => exact covers_none
  | succ rest =>
    apply covers.update rfl
    exact Nat.add_le_add_left (notices_le_one (phases thread)) rest

theorem still_notifying (holds : holdsLock phase) : phase ≠ .notifyingAll := by
  rintro rfl
  cases holds

theorem Awake.pops (awake : Awake threads) (holds : holdsLock (threads.phases thread))
    (answer : ConditionVariableQueue.Answer T) :
    Awake ({ threads with queue := threads.queue.waitPop.2 }.unlock thread (.returning answer)) := by
  apply awake.unlocks holds rfl
  · rw [ConditionVariableQueue.waitPop_length]
    exact awake.covered.pop thread answer
  · intro closed
    rw [ConditionVariableQueue.waitPop_closed] at closed
    exact (awake.closing closed).update rfl (still_notifying holds)

theorem Awake.checkPredicate (awake : Awake threads) (holds : holdsLock (threads.phases thread)) :
    Awake (threads.checkPredicate thread) := by
  rw [QueueThreads.checkPredicate]
  split
  next => exact awake.pops holds _
  next unready => exact awake.finds_unready holds unready

theorem Awake.sleeps (awake : Awake threads) (unready : threads.phases thread = .unready) :
    Awake (threads.unlock thread .asleep) := by
  have holds : holdsLock (threads.phases thread) := by
    rw [unready]
    rfl
  have idle := awake.unready thread unready
  have none : threads.queue.values = [] := not_not.mp (not_or.mp idle).2
  apply awake.unlocks holds rfl threads.queue
  · rw [none]
    exact covers_none
  · exact fun closed => absurd (Or.inl closed) idle

/-- A call that leaves the queue as it is and returns. -/
theorem Awake.leaves (awake : Awake threads) (holds : holdsLock (threads.phases thread))
    (light : notices (threads.phases thread) = 0) (answer : ConditionVariableQueue.Answer T) :
    Awake (threads.unlock thread (.returning answer)) := by
  apply awake.unlocks holds rfl threads.queue
  · apply awake.covered.update rfl
    rw [light]
    exact Nat.le_refl _
  · exact fun closed => (awake.closing closed).update rfl (still_notifying holds)

theorem Awake.criticalSection (awake : Awake threads) (thread : ι) : Awake (threads.criticalSection thread) := by
  rw [QueueThreads.criticalSection]
  cases phase : threads.phases thread with
  | locked call =>
    have holds : holdsLock (threads.phases thread) := by
      rw [phase]
      rfl
    have light : notices (threads.phases thread) = 0 := by
      rw [phase]
      rfl
    cases call with
    | push value =>
      dsimp only
      split
      next => exact awake.leaves holds light .done
      next opened =>
        rw [ConditionVariableQueue.push_open opened]
        apply awake.unlocks holds rfl
        · apply awake.covered.update rfl
          rw [light, List.length_append]
          exact Nat.le_refl _
        · exact fun closed => absurd closed opened
    | tryPop => exact awake.pops holds _
    | waitPop => exact awake.checkPredicate holds
    | close =>
      apply awake.unlocks holds rfl
      · apply awake.covered.update rfl
        rw [light]
        exact Nat.le_refl _
      · exact fun _ _ => ⟨thread, Function.update_self ..⟩
    | isClosed => exact awake.leaves holds light _
    | empty => exact awake.leaves holds light _
  | rechecking =>
    apply awake.checkPredicate
    rw [phase]
    rfl
  | idle => exact awake
  | locking call => exact awake
  | unready => exact awake
  | asleep => exact awake
  | woken => exact awake
  | notifyingOne => exact awake
  | notifyingAll => exact awake
  | returning answer => exact awake

theorem Awake.invoke (awake : Awake threads) (thread : ι) (call : ConditionVariableQueue.Call T) :
    Awake (threads.invoke thread call) := by
  rw [QueueThreads.invoke]
  split
  next idle =>
    apply awake.outside rfl rfl (ne_of_eq_of_ne idle nofun)
    apply awake.covered.update rfl
    rw [idle]
    exact Nat.le_refl _
  next => exact awake

theorem Awake.lock (awake : Awake threads) (thread : ι) : Awake (threads.lock thread) := by
  rw [QueueThreads.lock]
  split
  next => exact awake
  next free =>
    split
    next call locking =>
      refine awake.locks (not_not.mp free) rfl ?_ (ne_of_eq_of_ne locking nofun) ?_
      · exact nofun
      · rw [locking]
        rfl
    next woken =>
      refine awake.locks (not_not.mp free) rfl ?_ (ne_of_eq_of_ne woken nofun) ?_
      · exact nofun
      · rw [woken]
        rfl
    next => exact awake

theorem Awake.sleep (awake : Awake threads) (thread : ι) : Awake (threads.sleep thread) := by
  rw [QueueThreads.sleep]
  split
  next unready => exact awake.sleeps unready
  next => exact awake

/-- A thread that is woken brings a notice of its own. -/
theorem Awake.wakes (awake : Awake threads) (asleep : threads.phases thread = .asleep) :
    Awake (threads.setPhase thread .woken) ∧
    Covers (Function.update threads.phases thread .woken) (threads.queue.values.length + 1) := by
  have covered : Covers (Function.update threads.phases thread .woken) (threads.queue.values.length + 1) := by
    apply awake.covered.update rfl
    rw [asleep]
    exact Nat.le_refl _
  refine ⟨awake.outside rfl rfl (ne_of_eq_of_ne asleep nofun) ?_, covered⟩
  exact fun sleeps => Nat.le_of_succ_le (covered sleeps)

theorem Awake.wake (awake : Awake threads) (thread : ι) : Awake (threads.wake thread) := by
  rw [QueueThreads.wake]
  split
  next asleep => exact (awake.wakes asleep).1
  next => exact awake

theorem isAsleep_iff {phase : QueuePhase T} : phase.isAsleep ↔ phase = .asleep := by
  cases phase <;> simp [QueuePhase.isAsleep]

omit [Fintype ι] [DecidableEq ι] in
/-- A phase that `notify_all` leaves to a thread. -/
theorem wakeAll_cases (threads : QueueThreads ι T) (thread : ι) :
    threads.wakeAll.phases thread = .woken ∨
    threads.wakeAll.phases thread = threads.phases thread ∧ (threads.phases thread).isAsleep = false := by
  rw [wakeAll]
  dsimp only
  split
  next => exact Or.inl rfl
  next up => exact Or.inr ⟨rfl, Bool.eq_false_iff.mpr up⟩

theorem Awake.notifies_one (awake : Awake threads) (notifying : threads.phases thread = .notifyingOne) {sleeper : ι}
    (chosen : (threads.phases sleeper).isAsleep ∨ ∀ other, ¬ (threads.phases other).isAsleep) :
    Awake ((threads.wake sleeper).setPhase thread (.returning .done)) := by
  rcases chosen with asleep | nobody
  · have asleep := isAsleep_iff.mp asleep
    have different : thread ≠ sleeper := by
      rintro rfl
      cases notifying.symm.trans asleep
    have woken : threads.wake sleeper = threads.setPhase sleeper .woken := by rw [QueueThreads.wake, asleep]
    obtain ⟨awake, covered⟩ := awake.wakes asleep
    have same : (threads.setPhase sleeper .woken).phases thread = .notifyingOne :=
      (Function.update_of_ne different _ _).trans notifying
    rw [woken]
    apply awake.outside rfl rfl (ne_of_eq_of_ne same nofun)
    -- the notice of the sleeper takes the place of the notifier's
    apply covered.update rfl
    rw [show Function.update threads.phases sleeper .woken thread = .notifyingOne from same]
    exact Nat.le_refl _
  · have unmoved : threads.wake sleeper = threads := by
      rw [QueueThreads.wake]
      split
      next asleep => exact absurd (isAsleep_iff.mpr asleep) (nobody sleeper)
      next => rfl
    rw [unmoved]
    apply awake.outside rfl rfl (ne_of_eq_of_ne notifying nofun)
    intro sleeps
    obtain ⟨other, asleep⟩ := asleep_before rfl sleeps
    exact absurd asleep (nobody other)

theorem Awake.notifies_all (awake : Awake threads) (thread : ι) :
    Awake (threads.wakeAll.setPhase thread (.returning .done)) := by
  have nobody : ¬ ∃ other, (Function.update threads.wakeAll.phases thread (.returning .done) other).isAsleep := by
    intro sleeps
    obtain ⟨other, asleep⟩ := asleep_before rfl sleeps
    rcases wakeAll_cases threads other with woken | ⟨same, up⟩
    · rw [woken] at asleep
      cases asleep
    · rw [same, up] at asleep
      cases asleep
  refine ⟨?_, ?_, fun sleeps => absurd sleeps nobody, fun _ sleeps => absurd sleeps nobody⟩
  · refine owned_update nofun ?_
    intro other _ holds
    rcases wakeAll_cases threads other with woken | ⟨same, _⟩
    · rw [woken] at holds
      cases holds
    · rw [same] at holds
      exact awake.owner other holds
  · refine unready_update nofun ?_
    intro other _ unready
    rcases wakeAll_cases threads other with woken | ⟨same, _⟩
    · cases woken.symm.trans unready
    · exact awake.unready other (same.symm.trans unready)

theorem Awake.notify (awake : Awake threads) (thread sleeper : ι) : Awake (threads.notify thread sleeper) := by
  rw [QueueThreads.notify]
  split
  next notifying =>
    split
    next chosen => exact awake.notifies_one notifying chosen
    next => exact awake
  next => exact awake.notifies_all thread
  next => exact awake

theorem Awake.finish (awake : Awake threads) (thread : ι) : Awake (threads.finish thread) := by
  rw [QueueThreads.finish]
  split
  next answer returning =>
    apply awake.outside rfl rfl (ne_of_eq_of_ne returning nofun)
    apply awake.covered.update rfl
    rw [returning]
    exact Nat.le_refl _
  next => exact awake

theorem Awake.step (awake : Awake threads) (turn : Turn ι T) : Awake (threads.step turn) := by
  cases turn with
  | invoke thread call => exact awake.invoke thread call
  | lock thread => exact awake.lock thread
  | criticalSection thread => exact awake.criticalSection thread
  | sleep thread => exact awake.sleep thread
  | notify thread sleeper => exact awake.notify thread sleeper
  | wakeSpuriously thread => exact awake.wake thread
  | finish thread => exact awake.finish thread

omit [DecidableEq ι] in
theorem awake_empty : Awake ({} : QueueThreads ι T) := ⟨fun _ => nofun, fun _ => nofun, covers_none, nofun⟩

/-- A thread sleeps though the queue is ready, and nobody is left to wake it or
to take what there is. -/
structure Lost (threads : QueueThreads ι T) : Prop where
  asleep : ∃ thread, threads.phases thread = .asleep
  ready : threads.queue.ready
  unnotified : ∀ thread, threads.phases thread ≠ .notifyingOne ∧ threads.phases thread ≠ .notifyingAll
  rechecked : ∀ thread, threads.phases thread ≠ .woken ∧ threads.phases thread ≠ .rechecking

omit [DecidableEq ι] in
theorem Awake.not_lost (awake : Awake threads) : ¬ Lost threads := by
  intro lost
  have sleeps : ∃ thread, (threads.phases thread).isAsleep := by
    obtain ⟨thread, asleep⟩ := lost.asleep
    exact ⟨thread, isAsleep_iff.mpr asleep⟩
  rcases lost.ready with closed | values
  · obtain ⟨notifier, notifying⟩ := awake.closing closed sleeps
    exact (lost.unnotified notifier).2 notifying
  · have noticed := Nat.lt_of_lt_of_le (List.length_pos_of_ne_nil values) (awake.covered sleeps)
    obtain ⟨thread, weighs⟩ := exists_of_total noticed
    cases phase : threads.phases thread with
    | notifyingOne => exact (lost.unnotified thread).1 phase
    | woken => exact (lost.rechecked thread).1 phase
    | rechecking => exact (lost.rechecked thread).2 phase
    | idle | locking | locked | unready | asleep | notifyingAll | returning =>
      rw [phase] at weighs
      cases weighs

/-- However the steps of any number of threads interleave, no wake-up is lost. -/
theorem no_lost_wakeup (turns : List (Turn ι T)) : ¬ Lost (Runs.after QueueThreads.step {} turns) := by
  have preserved : ∀ (threads : QueueThreads ι T) turn, Awake threads → Awake (threads.step turn) :=
    fun _ turn awake => awake.step turn
  exact (Runs.invariant preserved awake_empty turns).not_lost

end TradingCore.Proofs.WakeUps
