import TradingCore.Pipeline
import TradingCore.Proofs.BookResync
import TradingCore.Proofs.PublishedEvents

/-! What flows through the pipeline. Wherever its threads are, every update is
fed, queued, in the builder's hand or handled, and every published event is
about to be pushed, queued, in the strategy's hand or seen. Nothing is lost,
doubled or reordered, so the requests do not depend on who runs when. -/

namespace TradingCore.Proofs.PipelineFlow
open BookBuilder BookUpdates BookResync PublishedEvents Pipeline

/-- What the strategy pushes for one event. -/
def ordered (module : StrategyModule) (event : MarketEvent) : List ExecutionWorkItem :=
  match module.strategy.evaluate event with
  | .none => []
  | .buy => [.request {
      instrument := event.instrument, side := .buy, type := .limit, price := event.bestAsk,
      quantity := module.executor.orderQuantity }]
  | .sell => [.request {
      instrument := event.instrument, side := .sell, type := .limit, price := event.bestBid,
      quantity := module.executor.orderQuantity }]

theorem onEvent_ordered (module : StrategyModule) (event : MarketEvent) :
    (module.onEvent event).executor.executionQueue = module.executor.executionQueue ++ ordered module event ∧
    ordered (module.onEvent event) = ordered module := by
  rw [StrategyModule.onEvent, ordered]
  cases decided : module.strategy.evaluate event with
  | none => exact ⟨(List.append_nil _).symm, rfl⟩
  | buy => exact ⟨rfl, rfl⟩
  | sell => exact ⟨rfl, rfl⟩

theorem run_ordered (module : StrategyModule) (events : List MarketEvent) :
    (module.run events).executor.executionQueue =
      module.executor.executionQueue ++ events.flatMap (ordered module) := by
  induction events generalizing module with
  | nil => exact (List.append_nil _).symm
  | cons event rest ih =>
    obtain ⟨pushed, same⟩ := onEvent_ordered module event
    rw [StrategyModule.run, Runs.after_cons, ← StrategyModule.run, ih, pushed, same, List.flatMap_cons,
      List.append_assoc]

/-- The clock of the builder is not looked at. -/
theorem ordered_timeless (module : StrategyModule) (events : List MarketEvent) :
    (events.map timeless).flatMap (ordered module) = events.flatMap (ordered module) := by
  rw [List.flatMap_map]
  rfl

theorem publication_alike {builder other : BookBuilder} (alike : Alike builder other) (now : Timestamp)
    (update : BookUpdate) : publication builder now update = publication other now update := by
  cases builder with
  | mk instrument book dispatcher =>
    cases other with
    | mk instrument' book' dispatcher' =>
      obtain ⟨rfl, rfl⟩ := alike
      rfl

/-- What the builder publishes is, but for its clock, decided by the updates. -/
theorem publications_alike {builder other : BookBuilder} (alike : Alike builder other)
    {timed timed' : List (Timestamp × BookUpdate)} (same : timed.map Prod.snd = timed'.map Prod.snd) :
    (publications builder timed).map timeless = (publications other timed').map timeless := by
  induction timed generalizing builder other timed' with
  | nil =>
    obtain rfl := List.map_eq_nil_iff.mp same.symm
    rfl
  | cons first rest ih =>
    obtain ⟨now, update⟩ := first
    cases timed' with
    | nil => cases same
    | cons first' rest' =>
      obtain ⟨later, update'⟩ := first'
      obtain ⟨rfl, remaining⟩ := List.cons.inj same
      have next : Alike (builder.onTimed (now, update)) (other.onTimed (later, update)) :=
        (alike.onBookUpdate now later update).1
      rw [publications_cons, publications_cons, List.map_append, List.map_append, ih next remaining]
      apply congrArg (· ++ _)
      dsimp only
      rw [publication_alike alike, publication, publication]
      split <;> rfl

theorem orders_alike (module : StrategyModule) (builder : BookBuilder) {timed timed' : List (Timestamp × BookUpdate)}
    (same : timed.map Prod.snd = timed'.map Prod.snd) :
    (publications builder timed).flatMap (ordered module) = (publications builder timed').flatMap (ordered module) := by
  rw [← ordered_timeless, publications_alike ⟨rfl, rfl⟩ same, ordered_timeless]

def heldUpdate : BuilderThread → List BookUpdate
  | .handling update => [update]
  | _ => []

def strategyPush : EventPush → Option MarketEvent
  | .strategy event => some event
  | .recording _ => none

def unpushedEvents : BuilderThread → List MarketEvent
  | .pushing pushes => pushes.filterMap strategyPush
  | _ => []

def heldEvent : StrategyThread → List MarketEvent
  | .handling event => [event]
  | _ => []

/-- Where the updates are, with those that the builder has handled so far. -/
structure Fed (updates handled feed : List BookUpdate) (queue : ConditionVariableQueue BookUpdate)
    (thread : BuilderThread) : Prop where
  all : handled ++ heldUpdate thread ++ queue.values ++ feed = updates
  closed : queue.closed = true → feed = []
  drained : thread = .ended → queue.values = [] ∧ feed = []

section
variable {updates handled feed : List BookUpdate} {update : BookUpdate} {queue : ConditionVariableQueue BookUpdate}
  {thread next : BuilderThread}

theorem Fed.close (fed : Fed updates handled [] queue thread) : Fed updates handled [] queue.close thread :=
  ⟨fed.all, fun _ => rfl, fed.drained⟩

theorem Fed.push (fed : Fed updates handled (update :: feed) queue thread) :
    Fed updates handled feed (queue.push update) thread := by
  have opened : ¬ queue.closed = true := by
    intro closed
    cases fed.closed closed
  rw [ConditionVariableQueue.push_open opened]
  refine ⟨?_, fun closed => absurd closed opened, ?_⟩
  · rw [← fed.all]
    simp
  · intro ended
    cases (fed.drained ended).2

theorem Fed.pop (fed : Fed updates handled feed queue .waiting) (ready : queue.ready) :
    Fed updates handled feed queue.waitPop.2 (queue.waitPop.1.elim .ended .handling) := by
  have taken : heldUpdate (queue.waitPop.1.elim .ended .handling) = queue.waitPop.1.toList := by
    cases queue.waitPop.1 <;> rfl
  refine ⟨?_, ?_, ?_⟩
  · rw [taken, ← fed.all, ← queue.waitPop_values]
    simp [heldUpdate]
  · rw [ConditionVariableQueue.waitPop_closed]
    exact fed.closed
  · intro ended
    cases popped : queue.waitPop.1 with
    | some update =>
      rw [popped] at ended
      cases ended
    | none =>
      obtain ⟨shut, drained⟩ := ConditionVariableQueue.waitPop_none ready popped
      exact ⟨drained, fed.closed shut⟩

theorem Fed.handle {pushes : List EventPush} (fed : Fed updates handled feed queue (.handling update)) :
    Fed updates (handled ++ [update]) feed queue (.pushing pushes) := by
  refine ⟨?_, fed.closed, fun ended => by cases ended⟩
  rw [← fed.all]
  simp [heldUpdate]

/-- A step of the builder that takes and gives back no update. -/
theorem Fed.idle (fed : Fed updates handled feed queue thread) (same : heldUpdate next = heldUpdate thread)
    (running : next ≠ .ended) : Fed updates handled feed queue next :=
  ⟨same ▸ fed.all, fed.closed, fun ended => absurd ended running⟩

end

/-- Where the events are, with those that the strategy has seen so far. -/
structure Published (events seen : List MarketEvent) (queue : ConditionVariableQueue MarketEvent)
    (builderThread : BuilderThread) (strategyThread : StrategyThread) : Prop where
  all : seen ++ heldEvent strategyThread ++ queue.values ++ unpushedEvents builderThread = events
  closed : queue.closed = true → builderThread = .ended
  drained : strategyThread = .ended → queue.closed = true ∧ queue.values = []

section
variable {events seen more : List MarketEvent} {event : MarketEvent} {queue : ConditionVariableQueue MarketEvent}
  {builderThread next : BuilderThread} {strategyThread : StrategyThread} {pushes : List EventPush}

theorem Published.close (published : Published events seen queue .ended strategyThread) :
    Published events seen queue.close .ended strategyThread :=
  ⟨published.all, fun _ => rfl, fun ended => ⟨rfl, (published.drained ended).2⟩⟩

theorem Published.push (published : Published events seen queue (.pushing (.strategy event :: pushes)) strategyThread) :
    Published events seen (queue.push event) (.pushing pushes) strategyThread := by
  have opened : ¬ queue.closed = true := by
    intro closed
    cases published.closed closed
  rw [ConditionVariableQueue.push_open opened]
  refine ⟨?_, fun closed => absurd closed opened, fun ended => absurd (published.drained ended).1 opened⟩
  rw [← published.all]
  simp [unpushedEvents, strategyPush]

theorem Published.pop (published : Published events seen queue builderThread .waiting) (ready : queue.ready) :
    Published events seen queue.waitPop.2 builderThread (queue.waitPop.1.elim .ended .handling) := by
  have taken : heldEvent (queue.waitPop.1.elim .ended .handling) = queue.waitPop.1.toList := by
    cases queue.waitPop.1 <;> rfl
  refine ⟨?_, ?_, ?_⟩
  · rw [taken, ← published.all, ← queue.waitPop_values]
    simp [heldEvent]
  · rw [ConditionVariableQueue.waitPop_closed]
    exact published.closed
  · intro ended
    cases popped : queue.waitPop.1 with
    | some event =>
      rw [popped] at ended
      cases ended
    | none =>
      obtain ⟨shut, drained⟩ := ConditionVariableQueue.waitPop_none ready popped
      exact ⟨(ConditionVariableQueue.waitPop_closed queue).trans shut, drained⟩

theorem Published.see (published : Published events seen queue builderThread (.handling event)) :
    Published events (seen ++ [event]) queue builderThread .waiting := by
  refine ⟨?_, published.closed, fun ended => by cases ended⟩
  rw [← published.all]
  simp [heldEvent]

/-- A step of the builder after which more events are to be pushed. -/
theorem Published.grow (published : Published events seen queue builderThread strategyThread)
    (grown : unpushedEvents next = unpushedEvents builderThread ++ more) (running : builderThread ≠ .ended) :
    Published (events ++ more) seen queue next strategyThread := by
  refine ⟨?_, fun closed => absurd (published.closed closed) running, published.drained⟩
  rw [grown, ← published.all]
  simp

theorem Published.idle (published : Published events seen queue builderThread strategyThread)
    (same : unpushedEvents next = unpushedEvents builderThread) (running : builderThread ≠ .ended) :
    Published events seen queue next strategyThread := by
  have kept := published.grow (same.trans (List.append_nil _).symm) running
  rwa [List.append_nil] at kept

end

/-- Where the builder stands, with the clock it read for each handled update. -/
structure Built (config : Config) (snapshot : Snapshot) (handled : List (Timestamp × BookUpdate))
    (thread : BuilderThread) (module : BookBuilderModule) : Prop where
  starting : thread = .starting → handled = [] ∧ module = .construct config
  running : thread ≠ .starting →
    Alike module.bookBuilder (Runs.after onTimed (started (.construct config) snapshot) handled)

/-- The invariant of every run of the pipeline. -/
structure Flow (config : Config) (snapshot : Snapshot) (updates : List BookUpdate) (pipeline : Pipeline)
    (handled : List (Timestamp × BookUpdate)) (seen : List MarketEvent) : Prop where
  fed : Fed updates (handled.map Prod.snd) pipeline.feed pipeline.bookUpdateQueue pipeline.builderThread
  built : Built config snapshot handled pipeline.builderThread pipeline.bookBuilderModule
  published : Published (publications (started (.construct config) snapshot) handled) seen pipeline.strategyEventQueue
    pipeline.builderThread pipeline.strategyThread
  strategy : pipeline.strategyModule = (StrategyModule.construct config.strategy).run seen

variable {config : Config} {snapshot : Snapshot} {updates : List BookUpdate} {pipeline : Pipeline}
  {handled : List (Timestamp × BookUpdate)} {seen : List MarketEvent}

theorem Flow.start (config : Config) (snapshot : Snapshot) (updates : List BookUpdate) :
    Flow config snapshot updates (.construct config updates) [] [] := by
  refine ⟨⟨rfl, ?_, ?_⟩, ⟨fun _ => ⟨rfl, rfl⟩, fun started => absurd rfl started⟩, ⟨rfl, ?_, ?_⟩, rfl⟩
  · exact fun closed => by cases closed
  · exact fun ended => by cases ended
  · exact fun closed => by cases closed
  · exact fun ended => by cases ended

theorem Flow.feeder (flow : Flow config snapshot updates pipeline handled seen) :
    Flow config snapshot updates pipeline.feederStep handled seen := by
  obtain ⟨fed, built, published, strategy⟩ := flow
  rw [feederStep]
  cases feed : pipeline.feed with
  | nil =>
    rw [feed] at fed
    exact ⟨fed.close, built, published, strategy⟩
  | cons update rest =>
    rw [feed] at fed
    exact ⟨fed.push, built, published, strategy⟩

theorem Flow.closer (flow : Flow config snapshot updates pipeline handled seen) :
    Flow config snapshot updates pipeline.closerStep handled seen := by
  rw [closerStep]
  split
  next ended =>
    obtain ⟨fed, built, published, strategy⟩ := flow
    rw [ended] at published
    exact ⟨fed, built, ended ▸ published.close, strategy⟩
  next => exact flow

theorem Flow.strategyStep (flow : Flow config snapshot updates pipeline handled seen) :
    ∃ seen, Flow config snapshot updates pipeline.strategyStep handled seen := by
  obtain ⟨fed, built, published, strategy⟩ := flow
  rw [Pipeline.strategyStep]
  cases thread : pipeline.strategyThread with
  | waiting =>
    rw [thread] at published
    dsimp only
    split
    next ready => exact ⟨seen, fed, built, published.pop ready, strategy⟩
    next => exact ⟨seen, fed, built, thread ▸ published, strategy⟩
  | handling event =>
    rw [thread] at published
    refine ⟨seen ++ [event], fed, built, published.see, ?_⟩
    dsimp only
    rw [strategy, StrategyModule.run, StrategyModule.run, Runs.after_append]
    rfl
  | ended => exact ⟨seen, fed, built, published, strategy⟩

/-- What the pushes of one call carry to the strategy. -/
theorem unpushed_all (events : List MarketEvent) :
    unpushedEvents (.pushing (events.flatMap fun event => [.strategy event, .recording event])) = events := by
  induction events with
  | nil => rfl
  | cons event rest ih =>
    rw [unpushedEvents] at ih
    rw [unpushedEvents, List.flatMap_cons, List.filterMap_append, ih]
    rfl

/-- The builder takes the snapshot. -/
def Accepted (config : Config) (snapshot : Snapshot) : Prop :=
  ((BookBuilderModule.construct config).bookBuilder.applySnapshot snapshot).1 = true

instance (config : Config) (snapshot : Snapshot) : Decidable (Accepted config snapshot) :=
  inferInstanceAs (Decidable (_ = _))

theorem Built.loaded (accepted : Accepted config snapshot) :
    Built config snapshot [] .waiting ((BookBuilderModule.construct config).run snapshot []) := by
  refine ⟨fun waiting => (by cases waiting), fun _ => ?_⟩
  rw [run_started (own_of_accepted accepted)]
  exact ⟨rfl, rfl⟩

theorem Built.move {thread next : BuilderThread} {module : BookBuilderModule}
    (built : Built config snapshot handled thread module) (running : thread ≠ .starting) (moved : next ≠ .starting) :
    Built config snapshot handled next module :=
  ⟨fun starting => absurd starting moved, fun _ => built.running running⟩

/-- The published events of a call are decided by the updates so far, and the
builder is left as after those updates and this one. -/
theorem Built.handle {module : BookBuilderModule} {update : BookUpdate} {pushes : List EventPush}
    (built : Built config snapshot handled (.handling update) module) (now : Timestamp) :
    let fresh : BookBuilder := { module.bookBuilder with eventDispatcher := {} }
    Built config snapshot (handled ++ [(now, update)]) (.pushing pushes)
      { module with bookBuilder := fresh.onBookUpdate now update } ∧
    publications (started (.construct config) snapshot) (handled ++ [(now, update)]) =
      publications (started (.construct config) snapshot) handled ++
        (fresh.onBookUpdate now update).eventDispatcher.strategyQueue := by
  intro fresh
  obtain ⟨instrument, book⟩ := built.running (fun handling => by cases handling)
  have alike : Alike fresh (Runs.after onTimed (started (.construct config) snapshot) handled) := ⟨instrument, book⟩
  constructor
  · refine ⟨fun pushing => (by cases pushing), fun _ => ?_⟩
    rw [Runs.after_append]
    exact (alike.onBookUpdate now now update).1
  · rw [publications_append, publications_cons, onBookUpdate_dispatched, publication_alike alike]
    exact congrArg (_ ++ ·) (List.append_nil _)

theorem Flow.applySnapshot (flow : Flow config snapshot updates pipeline handled seen)
    (accepted : Accepted config snapshot) (starting : pipeline.builderThread = .starting) :
    Flow config snapshot updates (pipeline.applySnapshot snapshot) handled seen := by
  obtain ⟨fed, built, published, strategy⟩ := flow
  rw [starting] at fed built published
  obtain ⟨rfl, constructed⟩ := built.starting rfl
  have taken := Built.loaded accepted
  rw [Accepted] at accepted
  rw [Pipeline.applySnapshot, constructed, accepted]
  refine ⟨fed.idle rfl (fun waiting => by cases waiting), taken, ?_, strategy⟩
  exact published.idle rfl (fun starting => by cases starting)

theorem Flow.builderStep (flow : Flow config snapshot updates pipeline handled seen)
    (accepted : Accepted config snapshot) (now : Timestamp) :
    ∃ handled, Flow config snapshot updates (pipeline.builderStep snapshot now) handled seen := by
  rw [Pipeline.builderStep]
  cases thread : pipeline.builderThread with
  | starting => exact ⟨handled, flow.applySnapshot accepted thread⟩
  | ended => exact ⟨handled, flow⟩
  | waiting =>
    dsimp only
    split
    next ready =>
      obtain ⟨fed, built, published, strategy⟩ := flow
      rw [thread] at fed built published
      have moved : pipeline.bookUpdateQueue.waitPop.1.elim .ended .handling ≠ BuilderThread.starting := by
        cases pipeline.bookUpdateQueue.waitPop.1 <;> intro starting <;> cases starting
      have unpushed : unpushedEvents (pipeline.bookUpdateQueue.waitPop.1.elim .ended .handling) = [] := by
        cases pipeline.bookUpdateQueue.waitPop.1 <;> rfl
      refine ⟨handled, fed.pop ready, ?_, ?_, strategy⟩
      · exact built.move (fun waiting => by cases waiting) moved
      · exact published.idle unpushed (fun waiting => by cases waiting)
    next => exact ⟨handled, flow⟩
  | handling update =>
    obtain ⟨fed, built, published, strategy⟩ := flow
    rw [thread] at fed built published
    obtain ⟨handles, publishes⟩ := built.handle now
    refine ⟨handled ++ [(now, update)], ?_, handles, ?_, strategy⟩
    · rw [List.map_append]
      exact fed.handle
    · rw [publishes]
      exact published.grow (unpushed_all _) (fun handling => by cases handling)
  | pushing pushes =>
    obtain ⟨fed, built, published, strategy⟩ := flow
    rw [thread] at fed built published
    have running : BuilderThread.pushing pushes ≠ .starting := fun pushing => by cases pushing
    refine ⟨handled, ?_⟩
    cases pushes with
    | nil =>
      refine ⟨fed.idle rfl (fun waiting => by cases waiting), ?_, ?_, strategy⟩
      · exact built.move running (fun waiting => by cases waiting)
      · exact published.idle rfl (fun pushing => by cases pushing)
    | cons first pushes =>
      have further : BuilderThread.pushing pushes ≠ .starting := fun pushing => by cases pushing
      cases first with
      | strategy event =>
        exact ⟨fed.idle rfl (fun pushing => by cases pushing), built.move running further, published.push, strategy⟩
      | recording event =>
        refine ⟨fed.idle rfl (fun pushing => by cases pushing), built.move running further, ?_, strategy⟩
        exact published.idle rfl (fun pushing => by cases pushing)

theorem Flow.step (flow : Flow config snapshot updates pipeline handled seen) (accepted : Accepted config snapshot)
    (turn : Turn) : ∃ handled seen, Flow config snapshot updates (pipeline.step snapshot turn) handled seen := by
  cases turn with
  | feeder => exact ⟨handled, seen, flow.feeder⟩
  | builder now =>
    obtain ⟨handled, moved⟩ := flow.builderStep accepted now
    exact ⟨handled, seen, moved⟩
  | closer => exact ⟨handled, seen, flow.closer⟩
  | strategy =>
    obtain ⟨seen, moved⟩ := flow.strategyStep
    exact ⟨handled, seen, moved⟩

theorem flow_run (accepted : Accepted config snapshot) (updates : List BookUpdate) (schedule : List Turn) :
    ∃ handled seen,
      Flow config snapshot updates (Runs.after (Pipeline.step snapshot) (.construct config updates) schedule)
        handled seen := by
  have preserved : ∀ pipeline turn, (∃ handled seen, Flow config snapshot updates pipeline handled seen) →
      ∃ handled seen, Flow config snapshot updates (pipeline.step snapshot turn) handled seen := by
    intro pipeline turn ⟨handled, seen, flow⟩
    exact flow.step accepted turn
  exact Runs.invariant preserved ⟨[], [], Flow.start config snapshot updates⟩ schedule

/-- What is pushed when one thread does everything: the book is built from all
updates, and the strategy then sees all events. -/
def sequentialRequests (config : Config) (snapshot : Snapshot) (timed : List (Timestamp × BookUpdate)) :
    List ExecutionWorkItem :=
  let events := ((BookBuilderModule.construct config).run snapshot timed).bookBuilder.eventDispatcher.strategyQueue
  ((StrategyModule.construct config.strategy).run events).executor.executionQueue

theorem sequential_ordered (accepted : Accepted config snapshot) (timed : List (Timestamp × BookUpdate)) :
    sequentialRequests config snapshot timed =
      (publications (started (.construct config) snapshot) timed).flatMap
        (ordered (.construct config.strategy)) := by
  rw [sequentialRequests, run_started (own_of_accepted accepted), run_dispatched, run_ordered]
  rfl

/-- Whatever the updates, the order of the threads' steps and their clocks,
the strategy pushes what one thread would push, and never anything else on the
way there. -/
theorem requests_confluent (config : Config) {snapshot : Snapshot} (accepted : Accepted config snapshot)
    (timed : List (Timestamp × BookUpdate)) (schedule : List Turn) :
    let pipeline := Runs.after (Pipeline.step snapshot) (.construct config (timed.map Prod.snd)) schedule
    pipeline.executionQueue <+: sequentialRequests config snapshot timed ∧
    (pipeline.ended → pipeline.executionQueue = sequentialRequests config snapshot timed) := by
  intro pipeline
  obtain ⟨handled, seen, fed, built, published, strategy⟩ := flow_run accepted (timed.map Prod.snd) schedule
  have pushed : pipeline.executionQueue = seen.flatMap (ordered (.construct config.strategy)) := by
    rw [Pipeline.executionQueue, strategy, run_ordered]
    rfl
  rw [pushed, sequential_ordered accepted]
  -- the updates handled so far, with the clock of the single thread
  have fedUpdates := fed.all
  rw [List.append_assoc, List.append_assoc] at fedUpdates
  obtain ⟨first, rest, rfl, same, remaining⟩ := List.map_eq_append_iff.mp fedUpdates.symm
  rw [publications_append, List.flatMap_append, ← orders_alike _ _ same.symm, ← published.all]
  constructor
  · simp only [List.flatMap_append, List.append_assoc]
    exact List.prefix_append _ _
  · rintro ⟨builderEnded, strategyEnded⟩
    obtain ⟨popped, fedAll⟩ := fed.drained builderEnded
    obtain ⟨_, drained⟩ := published.drained strategyEnded
    rw [builderEnded, popped, fedAll] at remaining
    obtain rfl : rest = [] := List.map_eq_nil_iff.mp remaining
    rw [builderEnded, strategyEnded, drained]
    simp [heldEvent, unpushedEvents, publications]

def evenBook : Snapshot where
  instrument := 1
  sequence := 100
  bids := [⟨⟨500⟩, ⟨3⟩⟩]
  asks := [⟨⟨501⟩, ⟨3⟩⟩]

/-- The bid grows, an update is out of sequence, and the ask grows. -/
def swingingStream : List (Timestamp × BookUpdate) :=
  [(0, { instrument := 1, sequenceRange := ⟨101, 101⟩, updates := [⟨.buy, ⟨500⟩, ⟨40⟩⟩] }),
    (0, { instrument := 1, sequenceRange := ⟨105, 105⟩ }),
    (0, { instrument := 1, sequenceRange := ⟨102, 102⟩, updates := [⟨.buy, ⟨500⟩, ⟨3⟩⟩, ⟨.sell, ⟨501⟩, ⟨90⟩⟩] })]

/-- The first update is queued before the snapshot is applied, and the strategy
sees its event while the next update is in the builder's hand. -/
def interleavedSchedule : List Turn :=
  [.feeder, .strategy, .builder 5, .builder 6, .builder 7, .builder 8, .builder 9, .closer, .feeder, .builder 10,
    .builder 11, .strategy, .strategy, .builder 12, .feeder, .feeder, .builder 13, .builder 14, .builder 15,
    .builder 16, .builder 17, .builder 18, .builder 19, .strategy, .strategy, .closer, .strategy]

theorem requests_confluent_interleaved :
    let config : Config := { instrument := 1 }
    let pipeline := Runs.after (Pipeline.step evenBook) (.construct config (swingingStream.map Prod.snd))
      interleavedSchedule
    pipeline.executionQueue = sequentialRequests config evenBook swingingStream ∧
    pipeline.executionQueue.length = 2 :=
  ⟨(requests_confluent { instrument := 1 } (by decide) swingingStream interleavedSchedule).2 ⟨by decide, by decide⟩,
    by decide⟩

end TradingCore.Proofs.PipelineFlow
