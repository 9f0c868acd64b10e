import TradingCore.Foundation.Fairness
import TradingCore.Proofs.ApplicationOutcome

/-! The application gets everything done. Once the caller has started it, each
turn of a thread that has something to do brings the work down, and all other
turns leave it as it is, so that a schedule that forgets no thread leads to
where every thread is at rest. -/

universe u

namespace TradingCore.Proofs.ApplicationLiveness
open Application Shutdown WorkerChannels ApplicationFlow PipelineFlow MarketDataMessageHandler

/-- Whose thread has the turn. -/
def runs {Message : Type u} : Turn Message → Option ApplicationModule
  | .start | .stop | .main | .receive _ => none
  | .source => some .marketData
  | .bookBuilder _ => some .bookBuilder
  | .strategy => some .strategy
  | .execution => some .execution
  | .recording => some .recording
  | .trade => some .trade
  | .executionReport => some .executionReport

/-- The threads that are to come to rest. -/
def busy (app : Application) : ApplicationModule → Prop
  | .marketData => app.deliveries ≠ []
  | .bookBuilder => ¬ (app.bookBuilderWorker.thread = some .ended ∨ asleep app .bookBuilder)
  | .strategy => ¬ asleep app .strategy
  | .execution => ¬ asleep app .execution
  | .recording => ¬ asleep app .recording
  | .trade => ¬ asleep app .trade
  | .executionReport => False

/-- The caller has started every module. -/
def Started (app : Application) : Prop := app.running = true ∧ ∀ modules, app.mainThread ≠ .starting modules

/-- The queue of the trades is open, and their thread in its loop. -/
structure TradesOpen (app : Application) : Prop where
  queue : app.tradeQueue.closed = false
  thread : app.tradeWorker.thread ≠ some .ended

structure Live (app : Application) : Prop where
  sound : Sound app
  started : Started app
  trades : TradesOpen app

/-- The work that is left, whatever the caller does. -/
def drain (app : Application) : (Nat × Nat × Nat × Nat × Nat × Nat) × Nat :=
  ((work app).2, loopWork app.tradeWorker app.tradeQueue)

def Falls (app other : Application) : Prop := WellFoundedRelation.rel (drain app) (drain other)

variable {app other : Application}

theorem Live.thread (live : Live app) (module : ApplicationModule) : hasThread app module := by
  have called := live.sound.called
  obtain ⟨running, started⟩ := live.started
  cases main : app.mainThread with
  | idle =>
    rw [main] at called
    exact called running module
  | starting modules => exact absurd main (started modules)
  | stopping modules =>
    rw [main] at called
    exact called.1 module

theorem falls_of_less (less : Less other app) (main : other.mainThread = app.mainThread) : Falls other app := by
  rcases Prod.lex_def.mp less with fewer | ⟨_, rest⟩
  · have same : (work other).1 = (work app).1 := congrArg mainWork main
    rw [same] at fewer
    exact absurd fewer (Nat.lt_irrefl _)
  · exact .left _ _ rest

theorem trade_falls (live : Live app) (awake : busy app .trade) : Falls app.tradeStep app := by
  rw [tradeStep]
  obtain waiting | ⟨trade, handling⟩ := Worker.loop_cases (live.thread .trade) live.trades.thread
  · have ready : app.tradeQueue.ready := not_not.mp fun empty => awake ⟨waiting, empty⟩
    have fewer := pop_less live.trades.queue ready waiting
    rw [waiting]
    exact .right _ fewer
  · have fewer : loopWork _ app.tradeQueue < _ := handle_less handling
    rw [handling]
    exact .right _ fewer

/-- What a step leaves to the threads when it does none of their work. -/
structure Still (app other : Application) : Prop where
  deliveries : other.deliveries = app.deliveries
  bookUpdates : other.bookUpdateQueue = app.bookUpdateQueue
  bookBuilder : other.bookBuilderWorker = app.bookBuilderWorker
  events : other.strategyEventQueue = app.strategyEventQueue
  strategy : other.strategyWorker = app.strategyWorker
  workItems : other.executionQueue = app.executionQueue
  execution : other.executionWorker = app.executionWorker
  recordings : other.recordingEventQueue = app.recordingEventQueue
  recording : other.recordingWorker = app.recordingWorker
  trades : other.tradeQueue = app.tradeQueue
  trade : other.tradeWorker = app.tradeWorker

theorem still (app : Application) : Still app app := ⟨rfl, rfl, rfl, rfl, rfl, rfl, rfl, rfl, rfl, rfl, rfl⟩

theorem Still.busy (still : Still app other) (module : ApplicationModule) :
    busy other module ↔ ApplicationLiveness.busy app module := by
  cases module <;>
    simp only [ApplicationLiveness.busy, asleep, Sleeps, still.deliveries, still.bookUpdates, still.bookBuilder,
      still.events, still.strategy, still.workItems, still.execution, still.recordings, still.recording, still.trades,
      still.trade]

theorem Still.drain (still : Still app other) : drain other = ApplicationLiveness.drain app := by
  simp only [ApplicationLiveness.drain, work, still.deliveries, still.bookUpdates, still.bookBuilder, still.events,
    still.strategy, still.workItems, still.execution, still.recordings, still.recording, still.trades, still.trade]

section
variable {T : Type} {worker : Worker (LoopThread T)} {queue : ConditionVariableQueue T}

/-- A turn of a thread that sleeps in its loop. -/
theorem sleeps_still (sleeps : Sleeps worker queue) :
    (LoopThread.pop queue).2 = queue ∧ worker.proceed (LoopThread.pop queue).1 = worker := by
  obtain ⟨waiting, empty⟩ := sleeps
  rw [LoopThread.pop_waits empty, Worker.proceed, ← waiting]
  exact ⟨rfl, rfl⟩

theorem start_still {Thread : Type} {worker : Worker Thread} (running : worker.running) (first : Thread) :
    worker.start first = worker := if_pos running

end

theorem start_module_still (threads : ∀ module, hasThread app module) (next : ApplicationModule) :
    Still app (app.startModule next) := by
  cases next with
  | marketData => exact { still app with }
  | strategy => exact { still app with strategy := start_still (threads .strategy) _ }
  | bookBuilder => exact { still app with bookBuilder := start_still (threads .bookBuilder) _ }
  | execution => exact { still app with execution := start_still (threads .execution) _ }
  | executionReport => exact { still app with }
  | trade => exact { still app with trade := start_still (threads .trade) _ }
  | recording => exact { still app with recording := start_still (threads .recording) _ }

theorem main_still (live : Live app) : Still app app.mainStep := by
  have called := live.sound.called
  rw [mainStep]
  split
  next => exact still app
  next => exact { still app with }
  next next modules _ => exact { start_module_still live.thread next with }
  next => exact { still app with }
  next next modules main =>
    rw [main] at called
    obtain ⟨threads, all | ⟨all, _⟩⟩ := called
    · cases all
      exact { still app with }
    · cases all
      rw [recorder_blocks live.sound (threads .recording)]
      exact still app

theorem bookBuilder_still (resting : ¬ busy app .bookBuilder) (snapshot : Snapshot) (now : Timestamp) :
    app.bookBuilderStep snapshot now = app := by
  rw [bookBuilderStep]
  rcases not_not.mp resting with ended | ⟨waiting, empty⟩
  · rw [ended]
  · rw [waiting]
    exact if_neg empty

section
variable {Message : Type u} (parser : IMarketDataParser Message) (snapshot : Snapshot)

/-- A turn that is not that of a busy thread. -/
theorem step_still (live : Live app) (turn : Turn Message) (nothing : taken app turn = [])
    (idle : ∀ module, runs turn = some module → ¬ busy app module) : Still app (step parser snapshot app turn) := by
  cases turn with
  | start =>
    rw [step, start]
    split <;> exact { still app with }
  | stop =>
    rw [step, stop]
    split <;> exact { still app with }
  | main => exact main_still live
  | receive message =>
    rw [step, receive]
    rw [taken] at nothing
    split at nothing
    next refused =>
      rw [if_pos refused]
      exact still app
    next => cases nothing
  | source =>
    have delivered : app.deliveries = [] := not_not.mp (idle .marketData rfl)
    rw [step, sourceStep, delivered]
    exact still app
  | bookBuilder now =>
    rw [step, bookBuilder_still (idle .bookBuilder rfl)]
    exact still app
  | strategy =>
    have sleeps : asleep app .strategy := not_not.mp (idle .strategy rfl)
    obtain ⟨queue, worker⟩ := sleeps_still sleeps
    rw [step, strategyStep, sleeps.1]
    exact { still app with events := queue, strategy := worker }
  | execution =>
    have sleeps : asleep app .execution := not_not.mp (idle .execution rfl)
    obtain ⟨queue, worker⟩ := sleeps_still sleeps
    rw [step, executionStep, sleeps.1]
    exact { still app with workItems := queue, execution := worker }
  | recording =>
    have sleeps : asleep app .recording := not_not.mp (idle .recording rfl)
    obtain ⟨queue, worker⟩ := sleeps_still sleeps
    rw [step, recordingStep, sleeps.1]
    exact { still app with recordings := queue, recording := worker }
  | trade =>
    have sleeps : asleep app .trade := not_not.mp (idle .trade rfl)
    obtain ⟨queue, worker⟩ := sleeps_still sleeps
    rw [step, tradeStep, sleeps.1]
    exact { still app with trades := queue, trade := worker }
  | executionReport =>
    rw [step, executionReportStep]
    split <;> exact { still app with }

/-- A thread's turn leaves alone where the caller is. -/
theorem thread_main (app : Application) (turn : Turn Message) (threads : runs turn ≠ none) :
    (step parser snapshot app turn).running = app.running ∧
    (step parser snapshot app turn).mainThread = app.mainThread := by
  cases turn with
  | start => exact absurd rfl threads
  | stop => exact absurd rfl threads
  | main => exact absurd rfl threads
  | receive message => exact absurd rfl threads
  | source =>
    rw [step, sourceStep]
    split <;> exact ⟨rfl, rfl⟩
  | bookBuilder now =>
    rw [step, bookBuilderStep]
    split
    next => exact ⟨rfl, rfl⟩
    next => split <;> exact ⟨rfl, rfl⟩
    next => exact ⟨rfl, rfl⟩
    next => exact ⟨rfl, rfl⟩
    next first pushes _ => cases first <;> exact ⟨rfl, rfl⟩
    next => exact ⟨rfl, rfl⟩
  | strategy =>
    rw [step, strategyStep]
    split <;> exact ⟨rfl, rfl⟩
  | execution =>
    rw [step, executionStep]
    split <;> exact ⟨rfl, rfl⟩
  | recording =>
    rw [step, recordingStep]
    split <;> exact ⟨rfl, rfl⟩
  | trade =>
    rw [step, tradeStep]
    split <;> exact ⟨rfl, rfl⟩
  | executionReport =>
    rw [step, executionReportStep]
    split <;> exact ⟨rfl, rfl⟩

/-- The turn of a busy thread. -/
theorem step_falls (live : Live app) (turn : Turn Message) {module : ApplicationModule}
    (running : runs turn = some module) (awake : busy app module) : Falls (step parser snapshot app turn) app := by
  have main := (thread_main parser snapshot app turn (running ▸ nofun)).2
  cases turn with
  | start => cases running
  | stop => cases running
  | main => cases running
  | receive message => cases running
  | source =>
    cases running
    exact falls_of_less (source_less awake) main
  | bookBuilder now =>
    cases running
    exact falls_of_less (bookBuilder_less live.sound (live.thread _) snapshot now awake) main
  | strategy =>
    cases running
    exact falls_of_less (strategy_less live.sound (live.thread _) awake) main
  | execution =>
    cases running
    exact falls_of_less (execution_less live.sound (live.thread _) awake) main
  | recording =>
    cases running
    exact falls_of_less (recording_less live.sound (live.thread _) awake) main
  | trade =>
    cases running
    exact trade_falls live awake
  | executionReport =>
    cases running
    exact awake.elim

theorem caller_started (live : Live app) (turn : Turn Message) : Started (step parser snapshot app turn) := by
  obtain ⟨running, started⟩ := live.started
  have called := live.sound.called
  by_cases threads : runs turn = none
  · cases turn with
    | start =>
      rw [step, start, if_pos (Or.inr running)]
      exact ⟨running, started⟩
    | stop =>
      rw [step, stop]
      split
      next => exact ⟨running, started⟩
      next => exact ⟨running, fun _ same => by cases same⟩
    | main =>
      rw [step, mainStep]
      split
      next => exact ⟨running, started⟩
      next main => exact absurd main (started _)
      next main => exact absurd main (started _)
      next main =>
        rw [main] at called
        obtain ⟨_, all | ⟨all, _⟩⟩ := called
        · cases all
        · cases all
      next next modules main =>
        rw [main] at called
        obtain ⟨threads, all | ⟨all, _⟩⟩ := called
        · cases all
          exact ⟨running, fun _ same => by cases same⟩
        · cases all
          rw [recorder_blocks live.sound (threads .recording)]
          exact ⟨running, started⟩
    | receive message =>
      rw [step, receive]
      split <;> exact ⟨running, started⟩
    | source => cases threads
    | bookBuilder now => cases threads
    | strategy => cases threads
    | execution => cases threads
    | recording => cases threads
    | trade => cases threads
    | executionReport => cases threads
  · obtain ⟨sameRunning, sameMain⟩ := thread_main parser snapshot app turn threads
    rw [Started, sameRunning, sameMain]
    exact ⟨running, started⟩

theorem start_module_open (kept : TradesOpen app) (next : ApplicationModule) (main : MainThread) :
    TradesOpen { app.startModule next with mainThread := main } := by
  cases next with
  | trade => exact ⟨kept.queue, start_not_ended _ kept.thread nofun⟩
  | marketData => exact { kept with }
  | strategy => exact { kept with }
  | bookBuilder => exact { kept with }
  | execution => exact { kept with }
  | executionReport => exact { kept with }
  | recording => exact { kept with }

theorem step_open (sound : Sound app) (kept : TradesOpen app) (turn : Turn Message) :
    TradesOpen (step parser snapshot app turn) := by
  have called := sound.called
  cases turn with
  | start =>
    rw [step, start]
    split <;> exact { kept with }
  | stop =>
    rw [step, stop]
    split <;> exact { kept with }
  | main =>
    rw [step, mainStep]
    split
    next => exact kept
    next => exact { kept with }
    next next modules _ => exact start_module_open kept next _
    next => exact { kept with }
    next next modules main =>
      rw [main] at called
      obtain ⟨threads, all | ⟨all, _⟩⟩ := called
      · cases all
        exact { kept with }
      · cases all
        rw [recorder_blocks sound (threads .recording)]
        exact kept
  | receive message =>
    rw [step, receive]
    split <;> exact { kept with }
  | source =>
    rw [step, sourceStep]
    split
    next => exact kept
    next => exact { kept with }
    next => exact ⟨(app.tradeQueue.push_closed _).trans kept.queue, kept.thread⟩
  | bookBuilder now =>
    rw [step, bookBuilderStep]
    split
    next => exact { kept with }
    next => split <;> exact { kept with }
    next => exact { kept with }
    next => exact { kept with }
    next first pushes _ => cases first <;> exact { kept with }
    next => exact kept
  | strategy =>
    rw [step, strategyStep]
    split <;> exact { kept with }
  | execution =>
    rw [step, executionStep]
    split <;> exact { kept with }
  | recording =>
    rw [step, recordingStep]
    split <;> exact { kept with }
  | trade =>
    rw [step, tradeStep]
    split
    next =>
      have alive := LoopThread.pop_not_ended kept.queue
      exact ⟨(LoopThread.pop_closed app.tradeQueue).trans kept.queue, fun ended => alive (Option.some.inj ended)⟩
    next => exact ⟨kept.queue, fun same => by cases same⟩
    next => exact kept
  | executionReport =>
    rw [step, executionReportStep]
    split <;> exact { kept with }

theorem step_live (live : Live app) (turn : Turn Message) : Live (step parser snapshot app turn) where
  sound := (step_advances parser snapshot app turn live.sound).1
  started := caller_started parser snapshot live turn
  trades := step_open parser snapshot live.sound live.trades turn

theorem draining :
    Fairness.Draining (step parser snapshot) Live (fun app turn => taken app turn = []) runs busy drain where
  preserved := fun _ turn live _ => step_live parser snapshot live turn
  moves := fun _ turn _ live running awake => step_falls parser snapshot live turn running awake
  idles := fun _ turn live nothing idle =>
    have unmoved := step_still parser snapshot live turn nothing idle
    ⟨unmoved.busy, unmoved.drain⟩

theorem reached_live (config : Config) (turns : List (Turn Message))
    (started : Started (reached parser snapshot config turns)) : Live (reached parser snapshot config turns) := by
  have preserved : ∀ (app : Application) (turn : Turn Message), Sound app ∧ TradesOpen app →
      Sound (step parser snapshot app turn) ∧ TradesOpen (step parser snapshot app turn) := by
    rintro app turn ⟨sound, kept⟩
    exact ⟨(step_advances parser snapshot app turn sound).1, step_open parser snapshot sound kept turn⟩
  have constructed : Sound (construct config) ∧ TradesOpen (construct config) := ⟨construct_sound config, rfl, nofun⟩
  obtain ⟨sound, kept⟩ := Runs.invariant preserved constructed turns
  exact ⟨sound, started, kept⟩

theorem atRest_of_idle (idle : ∀ module, ¬ busy app module) : AtRest app where
  deliveries := not_not.mp (idle .marketData)
  bookBuilder := not_not.mp (idle .bookBuilder)
  strategy := not_not.mp (idle .strategy)
  execution := not_not.mp (idle .execution)
  recording := not_not.mp (idle .recording)
  trade := not_not.mp (idle .trade)

/-- Turns that take no message receive nothing. -/
theorem received_quietly (config : Config) (turns : List (Turn Message)) (schedule : Nat → Turn Message)
    (quietly : ∀ n, taken (Fairness.reach (step parser snapshot) (reached parser snapshot config turns) schedule n)
      (schedule n) = []) (n : Nat) :
    received parser config snapshot (turns ++ (List.range n).map schedule) =
      received parser config snapshot turns := by
  induction n with
  | zero => exact congrArg _ (List.append_nil turns)
  | succ n ih =>
    rw [List.range_succ, List.map_append, ← List.append_assoc, received, Runs.emitted_append, ← received, ih,
      Runs.after_append, ← Fairness.reach_prefix, ← reached, List.map_singleton, Runs.emitted_cons, quietly]
    exact List.append_nil _

/-- From wherever the caller has started the application, every endless schedule
that gives each thread turn after turn, and in which no more messages come, gets
to where all that has been received is done, with the outcome of one thread that
does everything in turn. There the application stays. -/
theorem application_finishes (config : Config) (turns : List (Turn Message)) (schedule : Nat → Turn Message)
    (started : Started (reached parser snapshot config turns)) (fair : Fairness.Fair runs schedule)
    (quietly : ∀ n, taken (Fairness.reach (step parser snapshot) (reached parser snapshot config turns) schedule n)
      (schedule n) = [])
    (timed : List (Timestamp × BookUpdate))
    (handed : timed.map Prod.snd =
      (Runs.after (onMessage parser) {} (received parser config snapshot turns)).bookUpdateQueue) :
    ∃ n, ∀ later, n ≤ later →
      outcome (Fairness.reach (step parser snapshot) (reached parser snapshot config turns) schedule later) =
        sequential config snapshot timed
          (Runs.after (onMessage parser) {} (received parser config snapshot turns)).tradeQueue := by
  have live := reached_live parser snapshot config turns started
  obtain ⟨n, resting⟩ := (draining parser snapshot).comes_to_rest live quietly fair
  refine ⟨n, ?_⟩
  intro later after
  have rest := atRest_of_idle (resting later after)
  have same := received_quietly parser snapshot config turns schedule quietly later
  rw [← same] at handed ⊢
  rw [Fairness.reach_prefix, reached, ← Runs.after_append] at rest ⊢
  exact (application_confluent parser config snapshot _ timed handed).2 rest

end

def roundRobin (n : Nat) : Turn MarketDataItem :=
  match n % 7 with
  | 0 => .source
  | 1 => .bookBuilder 5
  | 2 => .strategy
  | 3 => .execution
  | 4 => .recording
  | 5 => .trade
  | _ => .executionReport

def position : ApplicationModule → Nat
  | .marketData => 0
  | .bookBuilder => 1
  | .strategy => 2
  | .execution => 3
  | .recording => 4
  | .trade => 5
  | .executionReport => 6

theorem roundRobin_fair : Fairness.Fair runs roundRobin := by
  intro module n
  refine ⟨7 * n + position module, by omega, ?_⟩
  rw [roundRobin, Nat.mul_add_mod]
  cases module <;> rfl

theorem roundRobin_quiet (app : Application) (n : Nat) : taken app (roundRobin n) = [] := by
  rw [roundRobin]
  split <;> rfl

/-- The second message comes while the first one is still with the source. -/
def startAndReceive : List (Turn MarketDataItem) :=
  .start :: List.replicate 8 .main ++
    [.receive (.bookUpdate grownBid), .receive (.trades []), .source, .receive (.trades [oneTrade])]

theorem application_finishes_round_robin :
    ∃ n, ∀ later, n ≤ later →
      outcome (Fairness.reach (step itemParser evenBook)
        (reached itemParser evenBook { instrument := 1 } startAndReceive) roundRobin later) =
        sequential { instrument := 1 } evenBook [(0, grownBid)] [oneTrade] :=
  application_finishes itemParser evenBook { instrument := 1 } startAndReceive roundRobin ⟨rfl, nofun⟩ roundRobin_fair
    (fun n => roundRobin_quiet _ n) [(0, grownBid)] rfl

end TradingCore.Proofs.ApplicationLiveness
