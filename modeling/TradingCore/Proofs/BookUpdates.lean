import TradingCore.Proofs.BookLevels

/-! What a book update does to the builder: it is ignored, it is applied as a
whole and published, or it stops at a level the book refuses and leaves the
levels before that one applied. -/

namespace TradingCore.Proofs.BookUpdates
open BookBuilder BookLevels

def LevelsApplicable (builder : BookBuilder) (update : BookUpdate) : Prop :=
  Runs.Along applyLevel LevelApplicable builder.orderBook update.updates

instance (builder : BookBuilder) (update : BookUpdate) : Decidable (LevelsApplicable builder update) :=
  inferInstanceAs (Decidable (Runs.Along _ _ _ _))

def InSequence (builder : BookBuilder) (update : BookUpdate) : Prop :=
  update.instrument = builder.instrument ∧ builder.isSequenceValid update

variable {builder : BookBuilder} {update : BookUpdate} (now : Timestamp)

def topOfBook (instrument : InstrumentId) (book : OrderBook) (now : Timestamp) (update : BookUpdate) : MarketEvent where
  instrument
  sequence := update.sequenceRange.last
  exchangeTimestamp := update.exchangeTimestamp
  receiveTimestamp := now
  bestBid := book.bestBid.elim {} (·.price)
  bestBidQuantity := book.bestBid.elim {} (·.quantity)
  bestAsk := book.bestAsk.elim {} (·.price)
  bestAskQuantity := book.bestAsk.elim {} (·.quantity)

def updatedBook (book : OrderBook) (update : BookUpdate) : OrderBook :=
  (Runs.after applyLevel book update.updates).setSequence update.sequenceRange.last

theorem own_of_accepted {snapshot : Snapshot} (accepted : (builder.applySnapshot snapshot).1 = true) :
    snapshot.instrument = builder.instrument := by
  by_cases own : snapshot.instrument = builder.instrument
  · exact own
  · rw [BookBuilder.applySnapshot, if_pos own] at accepted
    cases accepted

theorem applySnapshot_own {snapshot : Snapshot} (own : snapshot.instrument = builder.instrument) :
    builder.applySnapshot snapshot = (true, { builder with
      orderBook := builder.orderBook.setState snapshot.sequence snapshot.bids snapshot.asks }) :=
  if_neg (not_not_intro own)

theorem onBookUpdate_ignored (ignored : ¬ InSequence builder update) : builder.onBookUpdate now update = builder := by
  unfold onBookUpdate
  split
  next => rfl
  next own =>
    split
    next => rfl
    next valid => exact absurd ⟨not_not.mp own, not_not.mp valid⟩ ignored

theorem onBookUpdate_refused (inSequence : InSequence builder update) (refused : ¬ LevelsApplicable builder update) :
    builder.onBookUpdate now update =
      { builder with
        orderBook := Runs.after applyLevel builder.orderBook (acceptedLevels builder.orderBook update.updates) } := by
  have rejected := mt (allOf_iff builder.orderBook update.updates).mp refused
  have left := allOf_book builder.orderBook update.updates
  cases answered : allOf OrderBook.applyUpdate builder.orderBook update.updates with
  | mk applied book =>
    rw [answered] at rejected left
    obtain rfl : applied = false := Bool.eq_false_iff.mpr rejected
    rw [onBookUpdate, if_neg (not_not_intro inSequence.1), if_neg (not_not_intro inSequence.2),
      BookBuilder.applyBookUpdate, answered, ← left]
    rfl

theorem onBookUpdate_applied (inSequence : InSequence builder update) (applicable : LevelsApplicable builder update) :
    builder.onBookUpdate now update =
      { builder with
        orderBook := updatedBook builder.orderBook update
        eventDispatcher := builder.eventDispatcher.onMarketEvent
          (topOfBook builder.instrument (updatedBook builder.orderBook update) now update) } := by
  have accepted := (allOf_iff builder.orderBook update.updates).mpr applicable
  have left := allOf_book builder.orderBook update.updates
  rw [acceptedLevels, Runs.upTo_of_along applicable] at left
  cases answered : allOf OrderBook.applyUpdate builder.orderBook update.updates with
  | mk applied book =>
    rw [answered] at accepted left
    obtain rfl : applied = true := accepted
    obtain rfl : book = Runs.after applyLevel builder.orderBook update.updates := left
    rw [onBookUpdate, if_neg (not_not_intro inSequence.1), if_neg (not_not_intro inSequence.2),
      BookBuilder.applyBookUpdate, answered]
    rfl

/-- An update never changes whose book it is nor how deep. -/
theorem onBookUpdate_frame (builder : BookBuilder) (update : BookUpdate) :
    (builder.onBookUpdate now update).instrument = builder.instrument ∧
    (builder.onBookUpdate now update).orderBook.depthValue = builder.orderBook.depthValue := by
  by_cases inSequence : InSequence builder update
  · by_cases applicable : LevelsApplicable builder update
    · rw [onBookUpdate_applied now inSequence applicable]
      exact ⟨rfl, (applyLevels_frame _ _).2⟩
    · rw [onBookUpdate_refused now inSequence applicable]
      exact ⟨rfl, (applyLevels_frame _ _).2⟩
  · rw [onBookUpdate_ignored now inSequence]
    exact ⟨rfl, rfl⟩

theorem dispatched_ne (dispatcher : MarketEventDispatcher) (event : MarketEvent) :
    dispatcher.onMarketEvent event ≠ dispatcher := by
  intro same
  have grown := congrArg (·.strategyQueue.length) same
  simp [MarketEventDispatcher.onMarketEvent] at grown

def Silent (builder : BookBuilder) (now : Timestamp) (update : BookUpdate) : Prop :=
  (builder.onBookUpdate now update).eventDispatcher = builder.eventDispatcher

structure BookKept (builder next : BookBuilder) : Prop where
  bids : next.orderBook.bids = builder.orderBook.bids
  asks : next.orderBook.asks = builder.orderBook.asks
  sequence : next.orderBook.sequence = builder.orderBook.sequence

/-- Every price that the levels before the first refused one set, remove or
push out of a full side is given back by its last change what it had before. -/
structure CancelsOut (book : OrderBook) (updates : List PriceLevelUpdate) : Prop where
  bids : MapEdits.Restores book.bids (changesAlong bidChanges book (acceptedLevels book updates))
  asks : MapEdits.Restores book.asks (changesAlong askChanges book (acceptedLevels book updates))

theorem cancelsOut_iff (book : OrderBook) (updates : List PriceLevelUpdate) :
    CancelsOut book updates ↔
      (Runs.after applyLevel book (acceptedLevels book updates)).bids = book.bids ∧
      (Runs.after applyLevel book (acceptedLevels book updates)).asks = book.asks := by
  obtain ⟨bids, asks⟩ := applyLevels_changes (Runs.along_upTo book updates)
  rw [acceptedLevels, bids, asks, MapEdits.edits_unchanged_iff, MapEdits.edits_unchanged_iff]
  exact ⟨fun restored => ⟨restored.bids, restored.asks⟩, fun same => ⟨same.1, same.2⟩⟩

/-- A silent update keeps the book unless it is in sequence and some level is
refused after others whose changes remain. -/
theorem silent_keeps_book_iff (builder : BookBuilder) (update : BookUpdate) :
    (Silent builder now update → BookKept builder (builder.onBookUpdate now update)) ↔
      ¬ InSequence builder update ∨ LevelsApplicable builder update ∨
        CancelsOut builder.orderBook update.updates := by
  by_cases inSequence : InSequence builder update
  · by_cases applicable : LevelsApplicable builder update
    · refine iff_of_true ?_ (Or.inr (Or.inl applicable))
      intro silent
      rw [Silent, onBookUpdate_applied now inSequence applicable] at silent
      exact absurd silent (dispatched_ne _ _)
    · rw [Silent, onBookUpdate_refused now inSequence applicable]
      have frame := applyLevels_frame builder.orderBook (acceptedLevels builder.orderBook update.updates)
      constructor
      · intro kept
        have same := kept rfl
        exact Or.inr (Or.inr ((cancelsOut_iff _ _).mpr ⟨same.bids, same.asks⟩))
      · rintro (ignored | applied | cancelled) _
        · exact absurd inSequence ignored
        · exact absurd applied applicable
        · obtain ⟨bids, asks⟩ := (cancelsOut_iff _ _).mp cancelled
          exact ⟨bids, asks, frame.1⟩
  · rw [onBookUpdate_ignored now inSequence]
    exact iff_of_true (fun _ => ⟨rfl, rfl, rfl⟩) (Or.inl inSequence)

def emptyBuilder : BookBuilder where
  instrument := 1
  orderBook := { depthValue := 2 }

def oneBid : Snapshot where
  instrument := 1
  sequence := 100
  bids := [⟨⟨500⟩, ⟨3⟩⟩]

def halfApplied : BookUpdate where
  instrument := 1
  sequenceRange := { first := 101, last := 101 }
  updates := [{ side := .buy, price := ⟨500⟩, quantity := ⟨7⟩ }, { side := .buy, price := ⟨499⟩ }]

theorem half_applied_changes_book :
    let builder := (emptyBuilder.applySnapshot oneBid).2
    Silent builder 0 halfApplied ∧ ¬ BookKept builder (builder.onBookUpdate 0 halfApplied) := by
  intro builder
  constructor
  · show (builder.onBookUpdate 0 halfApplied).eventDispatcher = builder.eventDispatcher
    decide
  · intro kept
    have same := congrArg (getVolume · ⟨500⟩) kept.bids
    revert same
    decide

/-- The ranges of a stream follow one another without a gap, counted without
wrapping around. -/
def Contiguous : SequenceNumber → List BookUpdate → Prop
  | _, [] => True
  | sequence, update :: rest =>
    update.sequenceRange.first.toNat = sequence.toNat + 1 ∧
    update.sequenceRange.first ≤ update.sequenceRange.last ∧
    Contiguous update.sequenceRange.last rest

/-- The book has moved to the end of the update's range and one event has been
published on each queue. -/
def Delivered (builder : BookBuilder) (timed : Timestamp × BookUpdate) : Prop :=
  (builder.onTimed timed).orderBook.sequence = timed.2.sequenceRange.last ∧
  ∃ event,
    (builder.onTimed timed).eventDispatcher.strategyQueue = builder.eventDispatcher.strategyQueue ++ [event] ∧
    (builder.onTimed timed).eventDispatcher.recordingEventQueue =
      builder.eventDispatcher.recordingEventQueue ++ [.marketEvent event]

theorem isSequenceValid_of_next (next : update.sequenceRange.first.toNat = builder.orderBook.sequence.toNat + 1) :
    builder.isSequenceValid update := by
  have small := update.sequenceRange.first.toNat_lt
  refine UInt64.toNat_inj.mp ?_
  rw [UInt64.toNat_add, UInt64.toNat_one, ← next]
  exact (Nat.mod_eq_of_lt small).symm

theorem delivered_iff (inSequence : InSequence builder update) :
    Delivered builder (now, update) ↔ LevelsApplicable builder update := by
  by_cases applicable : LevelsApplicable builder update
  · refine iff_of_true ?_ applicable
    rw [Delivered, onTimed, onBookUpdate_applied now inSequence applicable]
    exact ⟨rfl, _, rfl, rfl⟩
  · refine iff_of_false ?_ applicable
    rw [Delivered, onTimed, onBookUpdate_refused now inSequence applicable]
    rintro ⟨_, _, grown, _⟩
    simp at grown

/-- Along a contiguous stream every update is delivered exactly when every
level of it can be applied at its turn. -/
theorem delivered_run_iff {builder : BookBuilder} {timed : List (Timestamp × BookUpdate)}
    (own : ∀ update ∈ timed.map Prod.snd, update.instrument = builder.instrument)
    (contiguous : Contiguous builder.orderBook.sequence (timed.map Prod.snd)) :
    Runs.Along onTimed Delivered builder timed ↔
      Runs.Along onTimed (fun builder timed => LevelsApplicable builder timed.2) builder timed := by
  induction timed generalizing builder with
  | nil => exact Iff.rfl
  | cons first rest ih =>
    obtain ⟨now, update⟩ := first
    obtain ⟨next, _, following⟩ := contiguous
    have inSequence : InSequence builder update := ⟨own update List.mem_cons_self, isSequenceValid_of_next next⟩
    rw [Runs.along_cons, Runs.along_cons, delivered_iff now inSequence]
    refine and_congr_right fun applicable => ih ?_ ?_
    · intro other member
      rw [onTimed, onBookUpdate_applied now inSequence applicable]
      exact own other (List.mem_cons_of_mem update member)
    · rw [onTimed, onBookUpdate_applied now inSequence applicable]
      exact following

theorem stream_delivered_iff (builder : BookBuilder) {snapshot : Snapshot} {timed : List (Timestamp × BookUpdate)}
    (accepted : (builder.applySnapshot snapshot).1 = true)
    (own : ∀ update ∈ timed.map Prod.snd, update.instrument = builder.instrument)
    (contiguous : Contiguous snapshot.sequence (timed.map Prod.snd)) :
    Runs.Along onTimed Delivered (builder.applySnapshot snapshot).2 timed ↔
      Runs.Along onTimed (fun builder timed => LevelsApplicable builder timed.2)
        (builder.applySnapshot snapshot).2 timed := by
  rw [applySnapshot_own (own_of_accepted accepted)]
  exact delivered_run_iff own contiguous

def heldStream : List (Timestamp × BookUpdate) :=
  [(1, { instrument := 1, sequenceRange := { first := 101, last := 102 },
         updates := [{ price := ⟨500⟩, quantity := ⟨4⟩ }, { price := ⟨499⟩, quantity := ⟨1⟩ }] }),
    (2, { instrument := 1, sequenceRange := { first := 103, last := 103 }, updates := [{ price := ⟨500⟩ }] })]

theorem stream_delivered_iff_held :
    Runs.Along onTimed Delivered (emptyBuilder.applySnapshot oneBid).2 heldStream :=
  (@stream_delivered_iff emptyBuilder oneBid heldStream (by decide) (by decide)
    ⟨by decide, by decide, by decide, by decide, trivial⟩).mpr (by decide)

/-- The removal of a price that is not held, and the update after it. -/
def unheldStream : List (Timestamp × BookUpdate) :=
  [(1, { instrument := 1, sequenceRange := { first := 101, last := 101 }, updates := [{ price := ⟨499⟩ }] }),
    (2, { instrument := 1, sequenceRange := { first := 102, last := 103 },
          updates := [{ price := ⟨500⟩, quantity := ⟨4⟩ }] })]

theorem unheld_removal_blocks_stream :
    (emptyBuilder.applySnapshot oneBid).1 = true ∧
    Contiguous oneBid.sequence (unheldStream.map Prod.snd) ∧
    ¬ Runs.Along onTimed Delivered (emptyBuilder.applySnapshot oneBid).2 unheldStream := by
  refine ⟨by decide, ⟨by decide, by decide, by decide, by decide, trivial⟩, ?_⟩
  intro delivered
  have advanced := delivered.1.1
  revert advanced
  decide

end TradingCore.Proofs.BookUpdates
