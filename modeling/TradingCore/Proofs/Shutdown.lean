import TradingCore.Application

/-! Nobody closes a queue of the application. The first thread that `stop` joins
is that of the recorder, which never leaves its loop: `stop` does not return,
and once the source is stopped and the other threads have run out of work the
recorder sleeps on an empty queue for good. -/

universe u

namespace TradingCore.Proofs.Shutdown
open Application

def hasThread (app : Application) : ApplicationModule → Prop
  | .marketData => True
  | .strategy => app.strategyWorker.running
  | .bookBuilder => app.bookBuilderWorker.running
  | .execution => app.executionWorker.running
  | .executionReport => app.executionReportWorker.running
  | .trade => app.tradeWorker.running
  | .recording => app.recordingWorker.running

/-- What the caller has done. It never gets past the recorder. -/
def Called (app : Application) : MainThread → Prop
  | .idle => app.running = true → ∀ module, hasThread app module
  | .starting modules => ∀ module, module ∈ modules ∨ hasThread app module
  | .stopping modules =>
    (∀ module, hasThread app module) ∧
      (modules = stopOrder ∨ modules = stopOrder.tail ∧ app.marketDataSourceRunning = false)

structure Sound (app : Application) : Prop where
  bookUpdates : app.bookUpdateQueue.closed = false
  events : app.strategyEventQueue.closed = false
  workItems : app.executionQueue.closed = false
  recordings : app.recordingEventQueue.closed = false
  strategy : app.strategyWorker.thread ≠ some .ended
  execution : app.executionWorker.thread ≠ some .ended
  recording : app.recordingWorker.thread ≠ some .ended
  called : Called app app.mainThread

variable {app other : Application} {main : MainThread}

/-- What every step of another thread leaves to the caller. -/
structure Kept (app other : Application) : Prop where
  running : other.running = app.running
  source : other.marketDataSourceRunning = app.marketDataSourceRunning
  strategy : app.strategyWorker.running → other.strategyWorker.running
  bookBuilder : app.bookBuilderWorker.running → other.bookBuilderWorker.running
  execution : app.executionWorker.running → other.executionWorker.running
  executionReport : app.executionReportWorker.running → other.executionReportWorker.running
  trade : app.tradeWorker.running → other.tradeWorker.running
  recording : app.recordingWorker.running → other.recordingWorker.running

theorem same (app : Application) : Kept app app := ⟨rfl, rfl, id, id, id, id, id, id⟩

theorem Kept.thread (kept : Kept app other) (module : ApplicationModule) (running : hasThread app module) :
    hasThread other module := by
  cases module with
  | marketData => exact trivial
  | strategy => exact kept.strategy running
  | bookBuilder => exact kept.bookBuilder running
  | execution => exact kept.execution running
  | executionReport => exact kept.executionReport running
  | trade => exact kept.trade running
  | recording => exact kept.recording running

theorem Called.kept (called : Called app main) (kept : Kept app other) : Called other main := by
  cases main with
  | idle => exact fun runs module => kept.thread module (called (kept.running.symm.trans runs) module)
  | starting modules => exact fun module => (called module).imp_right (kept.thread module)
  | stopping modules =>
    refine ⟨fun module => kept.thread module (called.1 module), ?_⟩
    rw [kept.source]
    exact called.2

section
variable {Thread : Type} (worker : Worker Thread) {first ended : Thread}

theorem start_running (first : Thread) : (worker.start first).running := by
  rw [Worker.start]
  split
  next running => exact running
  next => rfl

theorem start_not_ended (alive : worker.thread ≠ some ended) (different : first ≠ ended) :
    (worker.start first).thread ≠ some ended := by
  rw [Worker.start]
  split
  next => exact alive
  next => exact fun same => different (Option.some.inj same)

end

theorem started (app : Application) (module : ApplicationModule) : hasThread (app.startModule module) module := by
  cases module with
  | marketData => exact trivial
  | strategy => exact start_running ..
  | bookBuilder => exact start_running ..
  | execution => exact start_running ..
  | executionReport => exact start_running ..
  | trade => exact start_running ..
  | recording => exact start_running ..

theorem startModule_keeps {module : ApplicationModule} (running : hasThread app module) (next : ApplicationModule) :
    hasThread (app.startModule next) module := by
  by_cases same : module = next
  · subst same
    exact started app module
  · cases next <;> cases module <;> first | exact running | exact absurd rfl same

theorem startModule_sound (sound : Sound app) (next : ApplicationModule) (modules : List ApplicationModule)
    (called : ∀ module, module ∈ modules ∨ hasThread (app.startModule next) module) :
    Sound { app.startModule next with mainThread := .starting modules } := by
  have kept : Called (app.startModule next) (.starting modules) := called
  cases next with
  | strategy => exact { sound with strategy := start_not_ended _ sound.strategy nofun, called := kept }
  | execution => exact { sound with execution := start_not_ended _ sound.execution nofun, called := kept }
  | recording => exact { sound with recording := start_not_ended _ sound.recording nofun, called := kept }
  | bookBuilder => exact { sound with called := kept }
  | executionReport => exact { sound with called := kept }
  | trade => exact { sound with called := kept }
  | marketData => exact { sound with called := kept }

/-- The recorder's thread cannot be joined. -/
theorem recorder_blocks (sound : Sound app) (running : hasThread app .recording) :
    app.stopModule .recording = none := by
  rw [stopModule, Worker.stop]
  obtain waiting | ⟨event, handling⟩ := Worker.loop_cases running sound.recording
  · rw [waiting]
    rfl
  · rw [handling]
    rfl

def isStopping : MainThread → Prop
  | .stopping _ => True
  | .idle | .starting _ => False

/-- What every step keeps up: once called, `stop` does not return. -/
def Advances (app other : Application) : Prop :=
  Sound other ∧ (isStopping app.mainThread → isStopping other.mainThread)

theorem start_advances (sound : Sound app) : Advances app app.start := by
  rw [start]
  split
  next => exact ⟨sound, id⟩
  next ready =>
    rw [not_or, not_not] at ready
    refine ⟨{ sound with called := fun module => Or.inl (by cases module <;> decide) }, ?_⟩
    rw [ready.1]
    exact False.elim

theorem stop_advances (sound : Sound app) : Advances app app.stop := by
  rw [stop]
  split
  next => exact ⟨sound, id⟩
  next ready =>
    rw [not_or, not_not, not_not] at ready
    have called := sound.called
    rw [ready.1] at called
    exact ⟨{ sound with called := ⟨called ready.2, Or.inl rfl⟩ }, fun _ => trivial⟩

theorem main_advances (sound : Sound app) : Advances app app.mainStep := by
  have called := sound.called
  rw [Advances, mainStep]
  split
  next => exact ⟨sound, id⟩
  next main =>
    rw [main] at called ⊢
    exact ⟨{ sound with called := fun _ module => (called module).resolve_left List.not_mem_nil }, False.elim⟩
  next next modules main =>
    rw [main] at called ⊢
    refine ⟨startModule_sound sound next modules ?_, False.elim⟩
    intro module
    rcases called module with member | running
    · rcases List.mem_cons.mp member with rfl | later
      · exact Or.inr (started app module)
      · exact Or.inl later
    · exact Or.inr (startModule_keeps running next)
  next main =>
    rw [main] at called
    obtain ⟨_, all | ⟨all, _⟩⟩ := called
    · cases all
    · cases all
  next next modules main =>
    rw [main] at called
    obtain ⟨threads, all | ⟨all, stopped⟩⟩ := called
    · cases all
      exact ⟨{ sound with called := ⟨threads, Or.inr ⟨rfl, rfl⟩⟩ }, fun _ => trivial⟩
    · cases all
      rw [recorder_blocks sound (threads .recording)]
      exact ⟨sound, id⟩

theorem receive_advances {Message : Type u} (parser : IMarketDataParser Message) (sound : Sound app)
    (message : Message) : Advances app (app.receive parser message) := by
  rw [receive]
  split
  next => exact ⟨sound, id⟩
  next => exact ⟨{ sound with called := sound.called.kept { same app with } }, id⟩

theorem source_advances (sound : Sound app) : Advances app app.sourceStep := by
  rw [sourceStep]
  split
  next => exact ⟨sound, id⟩
  next update deliveries _ =>
    have opened := (app.bookUpdateQueue.push_closed update).trans sound.bookUpdates
    exact ⟨{ sound with bookUpdates := opened, called := sound.called.kept { same app with } }, id⟩
  next => exact ⟨{ sound with called := sound.called.kept { same app with } }, id⟩

theorem push_advances (sound : Sound app) (first : EventPush) : Advances app (app.push first) := by
  cases first with
  | strategy event =>
    have opened := (app.strategyEventQueue.push_closed event).trans sound.events
    exact ⟨{ sound with events := opened, called := sound.called.kept { same app with } }, id⟩
  | recording event =>
    have opened := (app.recordingEventQueue.push_closed (.marketEvent event)).trans sound.recordings
    exact ⟨{ sound with recordings := opened, called := sound.called.kept { same app with } }, id⟩

theorem bookBuilder_advances (sound : Sound app) (snapshot : Snapshot) (now : Timestamp) :
    Advances app (app.bookBuilderStep snapshot now) := by
  rw [bookBuilderStep]
  split
  next => exact ⟨{ sound with called := sound.called.kept { same app with bookBuilder := fun _ => rfl } }, id⟩
  next =>
    split
    next =>
      have opened := app.bookUpdateQueue.waitPop_closed.trans sound.bookUpdates
      refine ⟨{ sound with bookUpdates := opened, called := ?_ }, id⟩
      exact sound.called.kept { same app with bookBuilder := fun _ => rfl }
    next => exact ⟨sound, id⟩
  next => exact ⟨{ sound with called := sound.called.kept { same app with bookBuilder := fun _ => rfl } }, id⟩
  next => exact ⟨{ sound with called := sound.called.kept { same app with bookBuilder := fun _ => rfl } }, id⟩
  next first pushes _ =>
    obtain ⟨pushed, kept⟩ := push_advances sound first
    have called := pushed.called
    cases first with
    | strategy event =>
      exact ⟨{ pushed with called := called.kept { same _ with bookBuilder := fun _ => rfl } }, id⟩
    | recording event =>
      exact ⟨{ pushed with called := called.kept { same _ with bookBuilder := fun _ => rfl } }, id⟩
  next => exact ⟨sound, id⟩

theorem strategy_advances (sound : Sound app) : Advances app app.strategyStep := by
  rw [strategyStep]
  split
  next =>
    have opened := (LoopThread.pop_closed app.strategyEventQueue).trans sound.events
    have alive := LoopThread.pop_not_ended sound.events
    refine ⟨{ sound with events := opened, strategy := ?_, called := ?_ }, id⟩
    · exact fun ended => alive (Option.some.inj ended)
    · exact sound.called.kept { same app with strategy := fun _ => rfl }
  next event _ =>
    have opened := fun items => (app.executionQueue.pushAll_closed items).trans sound.workItems
    refine ⟨{ sound with workItems := opened _, strategy := nofun, called := ?_ }, id⟩
    exact sound.called.kept { same app with strategy := fun _ => rfl }
  next => exact ⟨sound, id⟩

theorem execution_advances (sound : Sound app) : Advances app app.executionStep := by
  rw [executionStep]
  split
  next =>
    have opened := (LoopThread.pop_closed app.executionQueue).trans sound.workItems
    have alive := LoopThread.pop_not_ended sound.workItems
    refine ⟨{ sound with workItems := opened, execution := ?_, called := ?_ }, id⟩
    · exact fun ended => alive (Option.some.inj ended)
    · exact sound.called.kept { same app with execution := fun _ => rfl }
  next workItem _ =>
    have opened := fun events => (app.recordingEventQueue.pushAll_closed events).trans sound.recordings
    refine ⟨{ sound with recordings := opened _, execution := nofun, called := ?_ }, id⟩
    exact sound.called.kept { same app with execution := fun _ => rfl }
  next => exact ⟨sound, id⟩

theorem recording_advances (sound : Sound app) : Advances app app.recordingStep := by
  rw [recordingStep]
  split
  next =>
    have opened := (LoopThread.pop_closed app.recordingEventQueue).trans sound.recordings
    have alive := LoopThread.pop_not_ended sound.recordings
    refine ⟨{ sound with recordings := opened, recording := ?_, called := ?_ }, id⟩
    · exact fun ended => alive (Option.some.inj ended)
    · exact sound.called.kept { same app with recording := fun _ => rfl }
  next =>
    refine ⟨{ sound with recording := nofun, called := ?_ }, id⟩
    exact sound.called.kept { same app with recording := fun _ => rfl }
  next => exact ⟨sound, id⟩

theorem trade_advances (sound : Sound app) : Advances app app.tradeStep := by
  rw [tradeStep]
  split
  next => exact ⟨{ sound with called := sound.called.kept { same app with trade := fun _ => rfl } }, id⟩
  next => exact ⟨{ sound with called := sound.called.kept { same app with trade := fun _ => rfl } }, id⟩
  next => exact ⟨sound, id⟩

theorem executionReport_advances (sound : Sound app) : Advances app app.executionReportStep := by
  rw [executionReportStep]
  split
  next => exact ⟨{ sound with called := sound.called.kept { same app with executionReport := fun _ => rfl } }, id⟩
  next => exact ⟨sound, id⟩

section
variable {Message : Type u} (parser : IMarketDataParser Message) (snapshot : Snapshot)

theorem step_advances (app : Application) (turn : Turn Message) (sound : Sound app) :
    Advances app (step parser snapshot app turn) := by
  cases turn with
  | start => exact start_advances sound
  | stop => exact stop_advances sound
  | main => exact main_advances sound
  | receive message => exact receive_advances parser sound message
  | source => exact source_advances sound
  | bookBuilder now => exact bookBuilder_advances sound snapshot now
  | strategy => exact strategy_advances sound
  | execution => exact execution_advances sound
  | recording => exact recording_advances sound
  | trade => exact trade_advances sound
  | executionReport => exact executionReport_advances sound

theorem construct_sound (config : Config) : Sound (construct config) :=
  ⟨rfl, rfl, rfl, rfl, nofun, nofun, nofun, nofun⟩

end

/-- A thread in `waitPop` on an empty, open queue. -/
def Sleeps {T : Type} (worker : Worker (LoopThread T)) (queue : ConditionVariableQueue T) : Prop :=
  worker.thread = some .waiting ∧ ¬ queue.ready

def asleep (app : Application) : ApplicationModule → Prop
  | .marketData | .executionReport => False
  | .strategy => Sleeps app.strategyWorker app.strategyEventQueue
  | .bookBuilder => app.bookBuilderWorker.thread = some .waiting ∧ ¬ app.bookUpdateQueue.ready
  | .execution => Sleeps app.executionWorker app.executionQueue
  | .trade => Sleeps app.tradeWorker app.tradeQueue
  | .recording => Sleeps app.recordingWorker app.recordingEventQueue

/-- The caller waits in `stop` for the thread of this module. -/
def joins (app : Application) (module : ApplicationModule) : Prop :=
  (∃ modules, app.mainThread = .stopping (module :: modules)) ∧ app.stopModule module = none

/-- The other threads have run out of work. -/
structure Resting (app : Application) : Prop where
  main : app.mainThread = .stopping stopOrder.tail
  source : app.marketDataSourceRunning = false
  deliveries : app.deliveries = []
  bookBuilder : app.bookBuilderWorker.thread = some .ended ∨ asleep app .bookBuilder
  strategy : asleep app .strategy
  execution : asleep app .execution
  recording : asleep app .recording

theorem sleeper_blocks (sleeps : asleep app .recording) : app.stopModule .recording = none := by
  rw [stopModule, Worker.stop, sleeps.1]
  rfl

theorem resting_main (resting : Resting app) : app.mainStep = app := by
  have blocked := sleeper_blocks resting.recording
  rw [mainStep, resting.main]
  simp only [stopOrder, List.tail_cons, blocked]

theorem resting_bookBuilder (resting : Resting app) (snapshot : Snapshot) (now : Timestamp) :
    app.bookBuilderStep snapshot now = app := by
  rw [bookBuilderStep]
  rcases resting.bookBuilder with ended | ⟨waiting, empty⟩
  · rw [ended]
  · rw [waiting]
    exact if_neg empty

section
variable {Message : Type u} (parser : IMarketDataParser Message) (snapshot : Snapshot)

theorem step_resting (app : Application) (turn : Turn Message) (resting : Resting app) :
    Resting (step parser snapshot app turn) := by
  have busy : app.mainThread ≠ .idle := by
    rw [resting.main]
    nofun
  cases turn with
  | start =>
    rw [step, start, if_pos (Or.inl busy)]
    exact resting
  | stop =>
    rw [step, stop, if_pos (Or.inl busy)]
    exact resting
  | main =>
    rw [step, resting_main resting]
    exact resting
  | receive message =>
    have stopped : ¬ app.marketDataSourceRunning = true := by
      rw [resting.source]
      nofun
    rw [step, receive, if_pos (Or.inl stopped)]
    exact resting
  | source =>
    rw [step, sourceStep, resting.deliveries]
    exact resting
  | bookBuilder now =>
    rw [step, resting_bookBuilder resting]
    exact resting
  | strategy =>
    obtain ⟨waiting, empty⟩ := resting.strategy
    rw [step, strategyStep, waiting, LoopThread.pop_waits empty]
    exact { resting with strategy := ⟨rfl, empty⟩ }
  | execution =>
    obtain ⟨waiting, empty⟩ := resting.execution
    rw [step, executionStep, waiting, LoopThread.pop_waits empty]
    exact { resting with execution := ⟨rfl, empty⟩ }
  | recording =>
    obtain ⟨waiting, empty⟩ := resting.recording
    rw [step, recordingStep, waiting, LoopThread.pop_waits empty]
    exact { resting with recording := ⟨rfl, empty⟩ }
  | trade =>
    rw [step, tradeStep]
    split
    next => exact { resting with }
    next => exact { resting with }
    next => exact resting
  | executionReport =>
    rw [step, executionReportStep]
    split
    next => exact { resting with }
    next => exact resting

/-- `stop` waits for a worker that is asleep, and whatever the other threads
still do, none of them pushes to its queue or closes it. -/
def Stuck (app : Application) (module : ApplicationModule) : Prop :=
  joins app module ∧ ∀ later : List (Turn Message), asleep (Runs.after (step parser snapshot) app later) module

theorem resting_stuck (resting : Resting app) : Stuck parser snapshot app .recording := by
  refine ⟨⟨⟨_, resting.main⟩, sleeper_blocks resting.recording⟩, ?_⟩
  intro later
  exact (Runs.invariant (step_resting parser snapshot) resting later).recording

end

def mainWork : MainThread → Nat
  | .stopping modules => modules.length
  | .idle | .starting _ => 0

def updateWork : Option BuilderThread → Nat
  | some .starting | some (.handling _) => 1
  | _ => 0

def pushesLeft : Option BuilderThread → Nat
  | some (.pushing pushes) => pushes.length + 1
  | _ => 0

def itemWork {T : Type} : Option (LoopThread T) → Nat
  | some (.handling _) => 1
  | _ => 0

/-- An item is popped, then handled. -/
def loopWork {T : Type} (worker : Worker (LoopThread T)) (queue : ConditionVariableQueue T) : Nat :=
  2 * queue.values.length + itemWork worker.thread

/-- The work left, upstream first: a step may give any amount of work to the
threads after its own. -/
def work (app : Application) : Nat × Nat × Nat × Nat × Nat × Nat × Nat :=
  (mainWork app.mainThread, app.deliveries.length,
    2 * app.bookUpdateQueue.values.length + updateWork app.bookBuilderWorker.thread,
    pushesLeft app.bookBuilderWorker.thread, loopWork app.strategyWorker app.strategyEventQueue,
    loopWork app.executionWorker app.executionQueue, loopWork app.recordingWorker app.recordingEventQueue)

def Less (app other : Application) : Prop := WellFoundedRelation.rel (work app) (work other)

theorem source_less (delivering : app.deliveries ≠ []) : Less app.sourceStep app := by
  have fewer : ∀ delivery deliveries, app.deliveries = delivery :: deliveries →
      deliveries.length < app.deliveries.length := by
    intro delivery deliveries held
    rw [held]
    exact Nat.lt_succ_self _
  rw [sourceStep]
  split
  next delivered => exact absurd delivered delivering
  next update deliveries held => exact .right _ (.left _ _ (fewer _ deliveries held))
  next trade deliveries held => exact .right _ (.left _ _ (fewer _ deliveries held))

theorem main_less (stopping : app.mainThread = .stopping stopOrder) : Less app.mainStep app := by
  rw [mainStep, stopping]
  have fewer : mainWork (.stopping stopOrder.tail) < mainWork app.mainThread := by
    rw [stopping]
    exact Nat.lt_succ_self _
  exact .left _ _ fewer

theorem update_less {queue : ConditionVariableQueue BookUpdate} (opened : queue.closed = false) (ready : queue.ready) :
    2 * queue.waitPop.2.values.length + updateWork (some (queue.waitPop.1.elim .ended .handling)) <
      2 * queue.values.length := by
  have queued := List.length_pos_of_ne_nil (queue.nonempty_of_ready opened ready)
  have popped := queue.waitPop_length
  have once : updateWork (some (queue.waitPop.1.elim .ended .handling)) ≤ 1 := by
    cases queue.waitPop.1 with
    | none => exact Nat.zero_le _
    | some update => exact Nat.le_refl _
  omega

theorem bookBuilder_less (sound : Sound app) (running : hasThread app .bookBuilder) (snapshot : Snapshot)
    (now : Timestamp) (awake : ¬ (app.bookBuilderWorker.thread = some .ended ∨ asleep app .bookBuilder)) :
    Less (app.bookBuilderStep snapshot now) app := by
  rw [hasThread, Worker.running] at running
  rw [not_or] at awake
  rw [bookBuilderStep]
  cases held : app.bookBuilderWorker.thread with
  | none =>
    rw [held] at running
    cases running
  | some thread =>
    cases thread with
    | starting =>
      have applied : updateWork (app.applySnapshot snapshot).bookBuilderWorker.thread = 0 := by
        simp only [Application.applySnapshot, Worker.proceed]
        split <;> rfl
      rw [Less, work, work, held, applied]
      exact .right _ (.right _ (.left _ _ (Nat.lt_succ_self _)))
    | waiting =>
      have ready : app.bookUpdateQueue.ready := not_not.mp fun empty => awake.2 ⟨held, empty⟩
      dsimp only
      rw [if_pos ready, Less, work, work, held]
      exact .right _ (.right _ (.left _ _ (update_less sound.bookUpdates ready)))
    | handling update =>
      rw [Less, work, work, held]
      exact .right _ (.right _ (.left _ _ (Nat.lt_succ_self _)))
    | pushing pushes =>
      cases pushes with
      | nil =>
        rw [Less, work, work, held]
        exact .right _ (.right _ (.right _ (.left _ _ Nat.one_pos)))
      | cons first pushes =>
        cases first with
        | strategy event =>
          rw [Less, work, work, held]
          exact .right _ (.right _ (.right _ (.left _ _ (Nat.lt_succ_self _))))
        | recording event =>
          rw [Less, work, work, held]
          exact .right _ (.right _ (.right _ (.left _ _ (Nat.lt_succ_self _))))
    | ended => exact absurd held awake.1

section
variable {T : Type} {worker : Worker (LoopThread T)} {queue : ConditionVariableQueue T}

theorem pop_less (opened : queue.closed = false) (ready : queue.ready) (waiting : worker.thread = some .waiting) :
    loopWork (worker.proceed (LoopThread.pop queue).1) (LoopThread.pop queue).2 < loopWork worker queue := by
  have queued := List.length_pos_of_ne_nil (queue.nonempty_of_ready opened ready)
  have popped := queue.waitPop_length
  rw [LoopThread.pop_ready ready, loopWork, loopWork, waiting]
  cases queue.waitPop.1 with
  | none =>
    simp only [Worker.proceed, Option.elim_none, itemWork]
    omega
  | some item =>
    simp only [Worker.proceed, Option.elim_some, itemWork]
    omega

theorem handle_less {item : T} (handling : worker.thread = some (.handling item)) :
    loopWork (worker.proceed .waiting) queue < loopWork worker queue := by
  rw [loopWork, loopWork, handling]
  exact Nat.lt_succ_self _

end

theorem strategy_less (sound : Sound app) (running : hasThread app .strategy) (awake : ¬ asleep app .strategy) :
    Less app.strategyStep app := by
  rw [strategyStep]
  obtain waiting | ⟨event, handling⟩ := Worker.loop_cases running sound.strategy
  · have ready : app.strategyEventQueue.ready := not_not.mp fun empty => awake ⟨waiting, empty⟩
    have fewer := pop_less sound.events ready waiting
    rw [waiting]
    exact .right _ (.right _ (.right _ (.right _ (.left _ _ fewer))))
  · have fewer : loopWork _ app.strategyEventQueue < _ := handle_less handling
    rw [handling]
    exact .right _ (.right _ (.right _ (.right _ (.left _ _ fewer))))

theorem execution_less (sound : Sound app) (running : hasThread app .execution) (awake : ¬ asleep app .execution) :
    Less app.executionStep app := by
  rw [executionStep]
  obtain waiting | ⟨workItem, handling⟩ := Worker.loop_cases running sound.execution
  · have ready : app.executionQueue.ready := not_not.mp fun empty => awake ⟨waiting, empty⟩
    have fewer := pop_less sound.workItems ready waiting
    rw [waiting]
    exact .right _ (.right _ (.right _ (.right _ (.right _ (.left _ _ fewer)))))
  · have fewer : loopWork _ app.executionQueue < _ := handle_less handling
    rw [handling]
    exact .right _ (.right _ (.right _ (.right _ (.right _ (.left _ _ fewer)))))

theorem recording_less (sound : Sound app) (running : hasThread app .recording) (awake : ¬ asleep app .recording) :
    Less app.recordingStep app := by
  rw [recordingStep]
  obtain waiting | ⟨event, handling⟩ := Worker.loop_cases running sound.recording
  · have ready : app.recordingEventQueue.ready := not_not.mp fun empty => awake ⟨waiting, empty⟩
    have fewer := pop_less sound.recordings ready waiting
    rw [waiting]
    exact .right _ (.right _ (.right _ (.right _ (.right _ (.right _ fewer)))))
  · have fewer : loopWork _ app.recordingEventQueue < _ := handle_less handling
    rw [handling]
    exact .right _ (.right _ (.right _ (.right _ (.right _ (.right _ fewer)))))

section
variable {Message : Type u} (parser : IMarketDataParser Message) (snapshot : Snapshot)

/-- Until the application rests, the thread furthest upstream that has work
left brings it down. -/
theorem progress (app : Application) (sound : Sound app) (stopping : isStopping app.mainThread)
    (restless : ¬ Resting app) : ∃ turn : Turn Message, Less (step parser snapshot app turn) app := by
  have called := sound.called
  cases main : app.mainThread with
  | idle =>
    rw [main] at stopping
    cases stopping
  | starting modules =>
    rw [main] at stopping
    cases stopping
  | stopping modules =>
    rw [main] at called
    obtain ⟨threads, rfl | ⟨rfl, source⟩⟩ := called
    · exact ⟨.main, main_less main⟩
    by_cases deliveries : app.deliveries = []
    · by_cases bookBuilder : app.bookBuilderWorker.thread = some .ended ∨ asleep app .bookBuilder
      · by_cases strategy : asleep app .strategy
        · by_cases execution : asleep app .execution
          · have recording : ¬ asleep app .recording := fun recording =>
              restless ⟨main, source, deliveries, bookBuilder, strategy, execution, recording⟩
            exact ⟨.recording, recording_less sound (threads _) recording⟩
          · exact ⟨.execution, execution_less sound (threads _) execution⟩
        · exact ⟨.strategy, strategy_less sound (threads _) strategy⟩
      · exact ⟨.bookBuilder 0, bookBuilder_less sound (threads _) snapshot 0 bookBuilder⟩
    · exact ⟨.source, source_less deliveries⟩

def reached (config : Config) (turns : List (Turn Message)) : Application :=
  Runs.after (step parser snapshot) (construct config) turns

def ShutsDown (app : Application) : Prop :=
  ∀ (later : List (Turn Message)) (module : ApplicationModule),
    ¬ Stuck parser snapshot (Runs.after (step parser snapshot) app later) module

theorem reached_sound (config : Config) (turns : List (Turn Message)) :
    Sound (reached parser snapshot config turns) :=
  Runs.invariant (fun app turn sound => (step_advances parser snapshot app turn sound).1) (construct_sound config) turns

/-- Wherever `stop` has been called on the running application, it does not
return any more, and some continuation leads where it joins the recorder
asleep for good. -/
theorem stop_gets_stuck (config : Config) (turns : List (Turn Message))
    (stopping : isStopping (reached parser snapshot config turns).mainThread) :
    ¬ ShutsDown parser snapshot (reached parser snapshot config turns) ∧
      ∀ later, isStopping (reached parser snapshot config (turns ++ later)).mainThread := by
  have preserved : ∀ (app : Application) (turn : Turn Message), Sound app ∧ isStopping app.mainThread →
      Sound (step parser snapshot app turn) ∧ isStopping (step parser snapshot app turn).mainThread := by
    rintro app turn ⟨sound, stopping⟩
    exact (step_advances parser snapshot app turn sound).imp_right fun kept => kept stopping
  have moves : ∀ app : Application, Sound app ∧ isStopping app.mainThread → ¬ Resting app →
      ∃ turn : Turn Message, Less (step parser snapshot app turn) app := by
    rintro app ⟨sound, stopping⟩ restless
    exact progress parser snapshot app sound stopping restless
  have start := And.intro (reached_sound parser snapshot config turns) stopping
  constructor
  · intro safe
    obtain ⟨later, resting⟩ := Runs.reaches_within work preserved moves start
    exact safe later .recording (resting_stuck parser snapshot resting)
  · intro later
    rw [reached, Runs.after_append]
    exact (Runs.invariant preserved start later).2

end

/-- The caller has started every module and calls `stop`. -/
def startAndStop : List (Turn Unit) := .start :: List.replicate 8 .main ++ [.stop]

def silentParser : IMarketDataParser Unit := fun _ item => (.success, item)

theorem stop_after_start_gets_stuck :
    ¬ ShutsDown silentParser {} (reached silentParser {} { instrument := 1 } startAndStop) ∧
      isStopping (reached silentParser {} { instrument := 1 } (startAndStop ++ [.main, .main])).mainThread := by
  have stuck := stop_gets_stuck silentParser {} { instrument := 1 } startAndStop trivial
  exact ⟨stuck.1, stuck.2 [.main, .main]⟩

/-- Without any market data: the snapshot of a provider that fetches nothing is
refused, the builder's thread ends, and `stop` joins the recorder. -/
theorem quiet_application_never_stops :
    ¬ ShutsDown silentParser {} (reached silentParser {} { instrument := 1 } startAndStop) := by
  have resting : Resting (reached silentParser {} { instrument := 1 } (startAndStop ++ [.bookBuilder 0, .main])) := by
    refine ⟨rfl, rfl, rfl, Or.inl rfl, ⟨rfl, ?_⟩, ⟨rfl, ?_⟩, ⟨rfl, ?_⟩⟩
    · decide
    · decide
    · decide
  intro safe
  exact safe [.bookBuilder 0, .main] .recording (resting_stuck silentParser {} resting)

end TradingCore.Proofs.Shutdown
