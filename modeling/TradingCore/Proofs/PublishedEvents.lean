import Mathlib.Data.List.Chain
import TradingCore.Foundation.MapViews
import TradingCore.Proofs.BookUpdates

/-! The events a builder publishes: what each of them says about the book it
was published from, and how their sequence numbers follow one another. -/

namespace TradingCore.Proofs.PublishedEvents
open Std BookBuilder BookLevels BookUpdates MapViews

section
variable {order : Price → Price → Ordering} [TransCmp order] {better : Price → Price → Prop}

/-- The side has the level, and no price of the side is better. -/
def Best (better : Price → Price → Prop) (levels : Levels order) (price : Price) (quantity : Quantity) : Prop :=
  levels[price]? = some quantity ∧ ∀ other ∈ levels, better price other

/-- What an event says about one side of the book. -/
structure Reports (better : Price → Price → Prop) (levels : Levels order) (price : Price) (quantity : Quantity) :
    Prop where
  best : levels ≠ ∅ → Best better levels price quantity
  zero : price.isZero ∧ quantity.isZero ↔ levels = ∅ ∨ Best better levels {} {}

variable [LawfulEqCmp order]

theorem best_iff_head (agrees : ∀ first second, (order first second).isLE ↔ better first second) (levels : Levels order)
    (price : Price) (quantity : Quantity) :
    Best better levels price quantity ↔ levels.toList.head? = some (price, quantity) := by
  rw [head_iff, Best, AtTop]
  simp only [agrees]

theorem reports_best (agrees : ∀ first second, (order first second).isLE ↔ better first second)
    (levels : Levels order) :
    Reports better levels ((getBestPrice levels).elim {} (·.price)) ((getBestPrice levels).elim {} (·.quantity)) := by
  have best := best_iff_head agrees levels
  rw [getBestPrice]
  cases head : levels.toList.head? with
  | none =>
    have empty : levels = ∅ := ExtTreeMap.toList_eq_nil_iff.mp (List.head?_eq_none_iff.mp head)
    exact ⟨fun nonempty => absurd empty nonempty, iff_of_true ⟨rfl, rfl⟩ (Or.inl empty)⟩
  | some first =>
    have held : Best better levels first.1 first.2 := (best first.1 first.2).mpr head
    have nonempty : levels ≠ ∅ := by
      rintro rfl
      cases held.1.symm.trans ExtTreeMap.getElem?_empty
    refine ⟨fun _ => held, ?_⟩
    rw [or_iff_right nonempty, best, head]
    simp [Prod.ext_iff, ScaledValue.ext_iff]

end

theorem isLE_greater (first second : Price) : (greater first second).isLE ↔ second ≤ first := by
  show (compare second.raw first.raw).isLE ↔ second.raw ≤ first.raw
  exact Int.isLE_compare

theorem isLE_less (first second : Price) : (less first second).isLE ↔ first ≤ second := by
  show (compare first.raw second.raw).isLE ↔ first.raw ≤ second.raw
  exact Int.isLE_compare

instance (builder : BookBuilder) (update : BookUpdate) : Decidable (InSequence builder update) :=
  inferInstanceAs (Decidable (_ ∧ _))

/-- The events one update publishes: one when it is in sequence and every level
of it can be applied, and none otherwise. -/
def publication (builder : BookBuilder) (now : Timestamp) (update : BookUpdate) : List MarketEvent :=
  if InSequence builder update ∧ LevelsApplicable builder update then
    [topOfBook builder.instrument (updatedBook builder.orderBook update) now update]
  else []

def publications (builder : BookBuilder) (timed : List (Timestamp × BookUpdate)) : List MarketEvent :=
  Runs.emitted onTimed (fun builder timed => publication builder timed.1 timed.2) builder timed

theorem publications_cons (builder : BookBuilder) (first : Timestamp × BookUpdate)
    (rest : List (Timestamp × BookUpdate)) :
    publications builder (first :: rest) =
      publication builder first.1 first.2 ++ publications (builder.onTimed first) rest := rfl

theorem publications_append (builder : BookBuilder) (first rest : List (Timestamp × BookUpdate)) :
    publications builder (first ++ rest) =
      publications builder first ++ publications (Runs.after onTimed builder first) rest :=
  Runs.emitted_append ..

def dispatched (dispatcher : MarketEventDispatcher) (events : List MarketEvent) : MarketEventDispatcher where
  strategyQueue := dispatcher.strategyQueue ++ events
  recordingEventQueue := dispatcher.recordingEventQueue ++ events.map .marketEvent

theorem dispatched_nil (dispatcher : MarketEventDispatcher) : dispatched dispatcher [] = dispatcher := by
  rw [dispatched, List.map_nil, List.append_nil, List.append_nil]

theorem dispatched_append (dispatcher : MarketEventDispatcher) (first rest : List MarketEvent) :
    dispatched (dispatched dispatcher first) rest = dispatched dispatcher (first ++ rest) := by
  simp only [dispatched, List.map_append, List.append_assoc]

theorem onBookUpdate_dispatched (builder : BookBuilder) (now : Timestamp) (update : BookUpdate) :
    (builder.onBookUpdate now update).eventDispatcher =
      dispatched builder.eventDispatcher (publication builder now update) := by
  rw [publication]
  split
  next applied =>
    rw [onBookUpdate_applied now applied.1 applied.2]
    rfl
  next stopped =>
    rw [dispatched_nil]
    by_cases inSequence : InSequence builder update
    · rw [onBookUpdate_refused now inSequence fun applicable => stopped ⟨inSequence, applicable⟩]
    · rw [onBookUpdate_ignored now inSequence]

/-- What each step dispatches is dispatched one after the other. -/
theorem dispatched_run {α : Type} {step : BookBuilder → α → BookBuilder} {emits : BookBuilder → α → List MarketEvent}
    (each : ∀ builder input, (step builder input).eventDispatcher =
      dispatched builder.eventDispatcher (emits builder input)) (builder : BookBuilder) (inputs : List α) :
    (Runs.after step builder inputs).eventDispatcher =
      dispatched builder.eventDispatcher (Runs.emitted step emits builder inputs) := by
  induction inputs generalizing builder with
  | nil => exact (dispatched_nil _).symm
  | cons input rest ih => rw [Runs.after_cons, ih, each, dispatched_append, Runs.emitted_cons]

theorem run_dispatched (builder : BookBuilder) (timed : List (Timestamp × BookUpdate)) :
    (Runs.after onTimed builder timed).eventDispatcher =
      dispatched builder.eventDispatcher (publications builder timed) := by
  apply dispatched_run
  exact fun builder timed => onBookUpdate_dispatched builder timed.1 timed.2

/-- An event against the update it was published for and the book after it. -/
structure Faithful (instrument : InstrumentId) (update : BookUpdate) (book : OrderBook) (event : MarketEvent) :
    Prop where
  instrument : event.instrument = instrument
  exchangeTimestamp : event.exchangeTimestamp = update.exchangeTimestamp
  sequence : event.sequence = update.sequenceRange.last
  current : book.sequence = update.sequenceRange.last
  bid : Reports (fun price other => other ≤ price) book.bids event.bestBid event.bestBidQuantity
  ask : Reports (fun price other => price ≤ other) book.asks event.bestAsk event.bestAskQuantity

/-- Only an update that is in sequence and applied to its last level publishes:
one faithful event, once on each queue. -/
def PublishesFaithfully (instrument : InstrumentId) (builder : BookBuilder) : BookBuilder.Call → Prop
  | .applySnapshot snapshot => (builder.applySnapshot snapshot).2.eventDispatcher = builder.eventDispatcher
  | .onBookUpdate now update =>
    let next := builder.onBookUpdate now update
    if InSequence builder update ∧ LevelsApplicable builder update then
      ∃ event, next.eventDispatcher = dispatched builder.eventDispatcher [event] ∧
        Faithful instrument update next.orderBook event
    else next.eventDispatcher = builder.eventDispatcher

def callPublication (builder : BookBuilder) : BookBuilder.Call → List MarketEvent
  | .applySnapshot _ => []
  | .onBookUpdate now update => publication builder now update

theorem step_instrument (builder : BookBuilder) (call : BookBuilder.Call) :
    (builder.step call).instrument = builder.instrument := by
  cases call with
  | applySnapshot snapshot =>
    rw [BookBuilder.step, BookBuilder.applySnapshot]
    split <;> rfl
  | onBookUpdate now update => exact (onBookUpdate_frame now builder update).1

theorem applySnapshot_silent (builder : BookBuilder) (snapshot : Snapshot) :
    (builder.applySnapshot snapshot).2.eventDispatcher = builder.eventDispatcher := by
  rw [BookBuilder.applySnapshot]
  split <;> rfl

theorem publishes_faithfully (builder : BookBuilder) (call : BookBuilder.Call) :
    PublishesFaithfully builder.instrument builder call := by
  cases call with
  | applySnapshot snapshot => exact applySnapshot_silent builder snapshot
  | onBookUpdate now update =>
    rw [PublishesFaithfully]
    have published := onBookUpdate_dispatched builder now update
    rw [publication] at published
    split
    next applied =>
      rw [if_pos applied] at published
      refine ⟨_, published, ?_⟩
      rw [onBookUpdate_applied now applied.1 applied.2]
      refine ⟨rfl, rfl, rfl, rfl, ?_, ?_⟩
      · exact reports_best isLE_greater _
      · exact reports_best isLE_less _
    next stopped =>
      rw [if_neg stopped, dispatched_nil] at published
      exact published

theorem step_dispatched (builder : BookBuilder) (call : BookBuilder.Call) :
    (builder.step call).eventDispatcher = dispatched builder.eventDispatcher (callPublication builder call) := by
  cases call with
  | applySnapshot snapshot =>
    rw [callPublication, dispatched_nil]
    exact applySnapshot_silent builder snapshot
  | onBookUpdate now update => exact onBookUpdate_dispatched builder now update

/-- Along every run an update publishes exactly when it is in sequence and applied:
one event, which tells the top of the book after the call. Both queues have
received these events and no others, in the order of the calls. -/
theorem events_faithful (builder : BookBuilder) (calls : List BookBuilder.Call) :
    Runs.Along BookBuilder.step (PublishesFaithfully builder.instrument) builder calls ∧
    (Runs.after BookBuilder.step builder calls).eventDispatcher =
      dispatched builder.eventDispatcher (Runs.emitted BookBuilder.step callPublication builder calls) := by
  constructor
  · have preserved : ∀ (state : BookBuilder) call, state.instrument = builder.instrument →
        (state.step call).instrument = builder.instrument :=
      fun state call same => (step_instrument state call).trans same
    apply Runs.along_of_invariant preserved
    · intro state call same
      exact same ▸ publishes_faithfully state call
    · rfl
  · exact dispatched_run step_dispatched builder calls

/-- The range of an update that is applied starts after zero, which only a
wrapped sequence does not, and does not end before it starts. -/
def AscendingRange (builder : BookBuilder) (timed : Timestamp × BookUpdate) : Prop :=
  InSequence builder timed.2 → LevelsApplicable builder timed.2 →
    0 < timed.2.sequenceRange.first ∧ timed.2.sequenceRange.first ≤ timed.2.sequenceRange.last

theorem advances_iff {sequence : SequenceNumber} {range : SequenceRange} (next : range.first = sequence + 1) :
    sequence < range.last ↔ 0 < range.first ∧ range.first ≤ range.last := by
  have small := sequence.toNat_lt
  have last := range.last.toNat_lt
  have first := congrArg UInt64.toNat next
  rw [UInt64.toNat_add, UInt64.toNat_one] at first
  rw [UInt64.lt_iff_toNat_lt, UInt64.lt_iff_toNat_lt, UInt64.le_iff_toNat_le, UInt64.toNat_zero]
  omega

theorem sequence_kept {builder : BookBuilder} {update : BookUpdate} (now : Timestamp)
    (stopped : ¬ (InSequence builder update ∧ LevelsApplicable builder update)) :
    (builder.onBookUpdate now update).orderBook.sequence = builder.orderBook.sequence := by
  by_cases inSequence : InSequence builder update
  · rw [onBookUpdate_refused now inSequence fun applicable => stopped ⟨inSequence, applicable⟩]
    exact (applyLevels_frame _ _).1
  · rw [onBookUpdate_ignored now inSequence]

/-- The book's sequence followed by those of the events of a run. -/
theorem increasing_iff (builder : BookBuilder) (timed : List (Timestamp × BookUpdate)) :
    (builder.orderBook.sequence :: (publications builder timed).map (·.sequence)).IsChain (· < ·) ↔
      Runs.Along onTimed AscendingRange builder timed := by
  induction timed generalizing builder with
  | nil => simp [publications]
  | cons first rest ih =>
    obtain ⟨now, update⟩ := first
    rw [Runs.along_cons, ← ih, publications_cons, publication]
    by_cases applied : InSequence builder update ∧ LevelsApplicable builder update
    · have advances := advances_iff applied.1.2
      have reached : (builder.onTimed (now, update)).orderBook.sequence = update.sequenceRange.last := by
        rw [onTimed, onBookUpdate_applied now applied.1 applied.2]
        rfl
      have ascends : AscendingRange builder (now, update) ↔
          0 < update.sequenceRange.first ∧ update.sequenceRange.first ≤ update.sequenceRange.last :=
        ⟨fun ascends => ascends applied.1 applied.2, fun ascends _ _ => ascends⟩
      rw [if_pos applied, List.singleton_append, List.map_cons, List.isChain_cons_cons, reached, ascends, ← advances]
      rfl
    · have unpublished : AscendingRange builder (now, update) := fun inSequence applicable =>
        absurd ⟨inSequence, applicable⟩ applied
      rw [if_neg applied, List.nil_append, and_iff_right unpublished, onTimed, sequence_kept now applied]

/-- After a snapshot the published sequence numbers increase strictly and stay
above that of the snapshot exactly when every update that is applied has a
range that ascends. -/
theorem published_increase_iff (builder : BookBuilder) {snapshot : Snapshot}
    (accepted : (builder.applySnapshot snapshot).1 = true) (timed : List (Timestamp × BookUpdate)) :
    let started := (builder.applySnapshot snapshot).2
    ∃ events : List MarketEvent,
      (Runs.after onTimed started timed).eventDispatcher.strategyQueue =
        started.eventDispatcher.strategyQueue ++ events ∧
      ((snapshot.sequence :: events.map (·.sequence)).Pairwise (· < ·) ↔
        Runs.Along onTimed AscendingRange started timed) := by
  intro started
  have covered : started.orderBook.sequence = snapshot.sequence := by
    simp only [started, applySnapshot_own (own_of_accepted accepted)]
    rfl
  refine ⟨publications started timed, ?_, ?_⟩
  · rw [run_dispatched]
    rfl
  · rw [← increasing_iff, covered]
    exact List.isChain_iff_pairwise.symm

/-- A range that ends before it starts takes the book back to sequence 50. -/
def descendingRange : List (Timestamp × BookUpdate) :=
  [(0, { instrument := 1, sequenceRange := { first := 101, last := 50 },
         updates := [{ price := ⟨500⟩, quantity := ⟨4⟩ }] })]

theorem descending_range_published :
    let builder := (emptyBuilder.applySnapshot oneBid).2
    let events := (Runs.after onTimed builder descendingRange).eventDispatcher.strategyQueue
    (emptyBuilder.applySnapshot oneBid).1 = true ∧ events.map (·.sequence) = [50] ∧
    ¬ (oneBid.sequence :: events.map (·.sequence)).Pairwise (· < ·) := by
  decide

theorem published_increase_iff_held :
    let started := (emptyBuilder.applySnapshot oneBid).2
    ∃ events : List MarketEvent,
      (Runs.after onTimed started heldStream).eventDispatcher.strategyQueue =
        started.eventDispatcher.strategyQueue ++ events ∧
      ((oneBid.sequence :: events.map (·.sequence)).Pairwise (· < ·) ↔
        Runs.Along onTimed AscendingRange started heldStream) :=
  published_increase_iff emptyBuilder (by decide) heldStream

end TradingCore.Proofs.PublishedEvents
