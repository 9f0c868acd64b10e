import TradingCore.Foundation.MapImages
import TradingCore.Proofs.ImbalanceDecision
import TradingCore.Proofs.PipelineFlow
import TradingCore.Proofs.UnrealizedMark

/-! A run next to its mirror image, in which bids are asks and prices are negated.
The two sides of the book have orders of their own and are read by branches of
their own, from the snapshot to the request, and yet treat levels alike. -/

namespace TradingCore.Proofs.MirroredBook
open Std MapImages BookBuilder PipelineFlow ImbalanceDecision UnrealizedMark

def negated (price : Price) : Price := ⟨-price.raw⟩

theorem negated_onto : Function.Surjective negated := by
  intro price
  exact ⟨⟨-price.raw⟩, ScaledValue.ext (Int.neg_neg price.raw)⟩

theorem compare_negated (first second : Price) : compare (negated first) (negated second) = compare second first := by
  show compare (-first.raw) (-second.raw) = compare second.raw first.raw
  rcases Int.lt_trichotomy first.raw second.raw with less | same | greater
  · rw [compare_gt_iff_gt.mpr less, compare_gt_iff_gt.mpr (by omega)]
  · simp [same]
  · rw [compare_lt_iff_lt.mpr greater, compare_lt_iff_lt.mpr (by omega)]

theorem bids_to_asks : Renaming greater less negated where
  order := compare_negated
  onto := negated_onto

theorem asks_to_bids : Renaming less greater negated where
  order := fun first second => compare_negated second first
  onto := negated_onto

def mirroredLevel (level : BookLevel) : BookLevel := { level with price := negated level.price }

def mirroredSnapshot (snapshot : Snapshot) : Snapshot :=
  { snapshot with bids := snapshot.asks.map mirroredLevel, asks := snapshot.bids.map mirroredLevel }

def mirroredLevelUpdate (update : PriceLevelUpdate) : PriceLevelUpdate :=
  { update with side := opposite update.side, price := negated update.price }

def mirroredUpdate (update : BookUpdate) : BookUpdate :=
  { update with updates := update.updates.map mirroredLevelUpdate }

def mirroredEvent (event : MarketEvent) : MarketEvent :=
  { event with
    bestBid := negated event.bestAsk
    bestBidQuantity := event.bestAskQuantity
    bestAsk := negated event.bestBid
    bestAskQuantity := event.bestBidQuantity }

def mirroredItem : ExecutionWorkItem → ExecutionWorkItem
  | .request request => .request { request with side := opposite request.side, price := negated request.price }
  | .report report => .report report

section
variable {order order' : Price → Price → Ordering} [TransCmp order] [TransCmp order']
  {levels : Levels order} {image : Levels order'}

theorem emplaceAll_image (names : Renaming order order' negated) (listed : List BookLevel) :
    Image negated (emplaceAll listed : Levels order) (emplaceAll (listed.map mirroredLevel) : Levels order') := by
  rw [emplaceAll, emplaceAll, List.foldl_map]
  have each : ∀ (listed : List BookLevel) (levels : Levels order) (image : Levels order'), Image negated levels image →
      Image negated (listed.foldl (fun side level => side.insertIfNew level.price level.quantity) levels)
        (listed.foldl (fun side level => side.insertIfNew (mirroredLevel level).price (mirroredLevel level).quantity)
          image) := by
    intro listed
    induction listed with
    | nil => exact fun _ _ held => held
    | cons level rest ih => exact fun _ _ held => ih _ _ (held.insertIfNew names level.price level.quantity)
  exact each listed ∅ ∅ image_empty

variable [LawfulEqCmp order] [LawfulEqCmp order']

/-- A level is taken or refused on both sides, and the same level makes room. -/
theorem applyBookUpdate_image (names : Renaming order order' negated) (held : Image negated levels image)
    (update : PriceLevelUpdate) (depth : Nat) :
    (applyBookUpdate image (mirroredLevelUpdate update) depth).1 = (applyBookUpdate levels update depth).1 ∧
    Image negated (applyBookUpdate levels update depth).2
      (applyBookUpdate image (mirroredLevelUpdate update) depth).2 := by
  have member : (mirroredLevelUpdate update).price ∈ image ↔ update.price ∈ levels := held.mem update.price
  have contained : image.contains (mirroredLevelUpdate update).price = levels.contains update.price := by
    rw [Bool.eq_iff_iff, ExtTreeMap.contains_iff_mem, ExtTreeMap.contains_iff_mem, member]
  have inserted := held.insert names update.price update.quantity
  have quantity : (mirroredLevelUpdate update).quantity = update.quantity := rfl
  rw [applyBookUpdate, applyBookUpdate, quantity, held.size names]
  by_cases zero : update.quantity.isZero
  · rw [if_pos zero, if_pos zero]
    exact ⟨contained, held.erase names update.price⟩
  · rw [if_neg zero, if_neg zero]
    by_cases present : update.price ∈ levels
    · rw [if_pos present, if_pos (member.mpr present)]
      exact ⟨rfl, inserted⟩
    · rw [if_neg present, if_neg (mt member.mp present)]
      by_cases room : levels.size < depth
      · rw [if_pos room, if_pos room]
        exact ⟨rfl, inserted⟩
      · rw [if_neg room, if_neg room, held.last names]
        cases levels.toList.getLast? with
        | none => exact ⟨rfl, held⟩
        | some worst =>
          dsimp only [Option.map_some]
          have better : order' (mirroredLevelUpdate update).price (negated worst.1) = order update.price worst.1 :=
            names.order update.price worst.1
          rw [better]
          by_cases replaces : order update.price worst.1 = .lt
          · rw [if_pos replaces, if_pos replaces]
            exact ⟨rfl, (held.erase names worst.1).insert names update.price update.quantity⟩
          · rw [if_neg replaces, if_neg replaces]
            exact ⟨rfl, held⟩

theorem getBestPrice_image (names : Renaming order order' negated) (held : Image negated levels image) :
    getBestPrice image = (getBestPrice levels).map mirroredLevel := by
  rw [getBestPrice, getBestPrice, held.head names, Option.map_map, Option.map_map]
  rfl

end

structure Mirrors (book mirror : OrderBook) : Prop where
  depth : mirror.depthValue = book.depthValue
  sequence : mirror.sequenceNumber = book.sequenceNumber
  bids : Image negated book.bids mirror.asks
  asks : Image negated book.asks mirror.bids

variable {book mirror : OrderBook}

theorem Mirrors.applyUpdate (mirrors : Mirrors book mirror) (update : PriceLevelUpdate) :
    (mirror.applyUpdate (mirroredLevelUpdate update)).1 = (book.applyUpdate update).1 ∧
    Mirrors (book.applyUpdate update).2 (mirror.applyUpdate (mirroredLevelUpdate update)).2 := by
  have bid := applyBookUpdate_image bids_to_asks mirrors.bids update book.depthValue
  have ask := applyBookUpdate_image asks_to_bids mirrors.asks update book.depthValue
  cases side : update.side with
  | buy =>
    have opposed : (mirroredLevelUpdate update).side = .sell := congrArg opposite side
    rw [OrderBook.applyUpdate, opposed, OrderBook.applyUpdate, side, mirrors.depth]
    exact ⟨bid.1, rfl, mirrors.sequence, bid.2, mirrors.asks⟩
  | sell =>
    have opposed : (mirroredLevelUpdate update).side = .buy := congrArg opposite side
    rw [OrderBook.applyUpdate, opposed, OrderBook.applyUpdate, side, mirrors.depth]
    exact ⟨ask.1, rfl, mirrors.sequence, mirrors.bids, ask.2⟩

theorem Mirrors.allOf (mirrors : Mirrors book mirror) (updates : List PriceLevelUpdate) :
    (TradingCore.allOf OrderBook.applyUpdate mirror (updates.map mirroredLevelUpdate)).1 =
      (TradingCore.allOf OrderBook.applyUpdate book updates).1 ∧
    Mirrors (TradingCore.allOf OrderBook.applyUpdate book updates).2
      (TradingCore.allOf OrderBook.applyUpdate mirror (updates.map mirroredLevelUpdate)).2 := by
  induction updates generalizing book mirror with
  | nil => exact ⟨rfl, mirrors⟩
  | cons update rest ih =>
    obtain ⟨answer, next⟩ := mirrors.applyUpdate update
    rw [List.map_cons, TradingCore.allOf, TradingCore.allOf]
    cases left : book.applyUpdate update with
    | mk applied book' =>
      cases right : mirror.applyUpdate (mirroredLevelUpdate update) with
      | mk applied' mirror' =>
        rw [left, right] at answer next
        obtain rfl : applied' = applied := answer
        cases applied' with
        | true => exact ih next
        | false => exact ⟨rfl, next⟩

theorem Mirrors.best (mirrors : Mirrors book mirror) :
    mirror.bestBid = book.bestAsk.map mirroredLevel ∧ mirror.bestAsk = book.bestBid.map mirroredLevel :=
  ⟨getBestPrice_image asks_to_bids mirrors.asks, getBestPrice_image bids_to_asks mirrors.bids⟩

theorem best_mirrored (best : Option BookLevel) :
    (best.map mirroredLevel).elim {} (·.price) = negated (best.elim {} (·.price)) ∧
    (best.map mirroredLevel).elim {} (·.quantity) = best.elim {} (·.quantity) := by
  cases best with
  | none => exact ⟨rfl, rfl⟩
  | some level => exact ⟨rfl, rfl⟩

/-- The builders of a run and of its mirror image, with what they have published. -/
structure BuilderMirrors (builder other : BookBuilder) : Prop where
  instrument : other.instrument = builder.instrument
  book : Mirrors builder.orderBook other.orderBook
  events : other.eventDispatcher.strategyQueue = builder.eventDispatcher.strategyQueue.map mirroredEvent

variable {builder other : BookBuilder}

theorem BuilderMirrors.applySnapshot (mirrors : BuilderMirrors builder other) (snapshot : Snapshot) :
    (other.applySnapshot (mirroredSnapshot snapshot)).1 = (builder.applySnapshot snapshot).1 ∧
    BuilderMirrors (builder.applySnapshot snapshot).2 (other.applySnapshot (mirroredSnapshot snapshot)).2 := by
  have same : (mirroredSnapshot snapshot).instrument = snapshot.instrument := rfl
  rw [BookBuilder.applySnapshot, BookBuilder.applySnapshot, same, mirrors.instrument]
  split
  next => exact ⟨rfl, mirrors⟩
  next =>
    refine ⟨rfl, rfl, ?_, mirrors.events⟩
    exact ⟨mirrors.book.depth, rfl, emplaceAll_image bids_to_asks snapshot.bids,
      emplaceAll_image asks_to_bids snapshot.asks⟩

theorem BuilderMirrors.publish (mirrors : BuilderMirrors builder other) (now : Timestamp) (sequence : SequenceNumber)
    (exchangeTimestamp : Timestamp) :
    BuilderMirrors (builder.publishMarketEvent now sequence exchangeTimestamp)
      (other.publishMarketEvent now sequence exchangeTimestamp) := by
  obtain ⟨bid, ask⟩ := mirrors.book.best
  refine ⟨mirrors.instrument, mirrors.book, ?_⟩
  rw [publishMarketEvent, publishMarketEvent, bid, ask]
  dsimp only [MarketEventDispatcher.onMarketEvent]
  rw [mirrors.events, List.map_append, List.map_singleton, mirrors.instrument, (best_mirrored _).1, (best_mirrored _).2,
    (best_mirrored _).1, (best_mirrored _).2]
  rfl

theorem BuilderMirrors.applyBookUpdate (mirrors : BuilderMirrors builder other) (update : BookUpdate) :
    (other.applyBookUpdate (mirroredUpdate update)).1 = (builder.applyBookUpdate update).1 ∧
    BuilderMirrors (builder.applyBookUpdate update).2 (other.applyBookUpdate (mirroredUpdate update)).2 := by
  obtain ⟨answer, next⟩ := mirrors.book.allOf update.updates
  exact ⟨answer, mirrors.instrument, next, mirrors.events⟩

theorem BuilderMirrors.onBookUpdate (mirrors : BuilderMirrors builder other) (now : Timestamp) (update : BookUpdate) :
    BuilderMirrors (builder.onBookUpdate now update) (other.onBookUpdate now (mirroredUpdate update)) := by
  have foreign : (mirroredUpdate update).instrument ≠ other.instrument ↔ update.instrument ≠ builder.instrument := by
    rw [mirrors.instrument]
    rfl
  have valid : other.isSequenceValid (mirroredUpdate update) ↔ builder.isSequenceValid update := by
    rw [isSequenceValid, OrderBook.sequence, mirrors.book.sequence]
    rfl
  obtain ⟨answer, next⟩ := mirrors.applyBookUpdate update
  rw [BookBuilder.onBookUpdate, BookBuilder.onBookUpdate, if_congr foreign rfl rfl]
  split
  next => exact mirrors
  next =>
    rw [if_congr (not_congr valid) rfl rfl]
    split
    next => exact mirrors
    next =>
      cases left : builder.applyBookUpdate update with
      | mk applied builder' =>
        cases right : other.applyBookUpdate (mirroredUpdate update) with
        | mk applied' other' =>
          rw [left, right] at answer next
          obtain rfl : applied' = applied := answer
          cases applied' with
          | false => exact next
          | true =>
            have moved : BuilderMirrors
                { builder' with orderBook := builder'.orderBook.setSequence update.sequenceRange.last }
                { other' with orderBook := other'.orderBook.setSequence update.sequenceRange.last } :=
              ⟨next.instrument, ⟨next.book.depth, rfl, next.book.bids, next.book.asks⟩, next.events⟩
            exact moved.publish now update.sequenceRange.last update.exchangeTimestamp

def mirroredTimed (timed : Timestamp × BookUpdate) : Timestamp × BookUpdate := (timed.1, mirroredUpdate timed.2)

theorem BuilderMirrors.run (mirrors : BuilderMirrors builder other) (timed : List (Timestamp × BookUpdate)) :
    BuilderMirrors (Runs.after onTimed builder timed) (Runs.after onTimed other (timed.map mirroredTimed)) := by
  induction timed generalizing builder other with
  | nil => exact mirrors
  | cons first rest ih => exact ih (mirrors.onBookUpdate first.1 first.2)

theorem construct_mirrors (config : Config) :
    BuilderMirrors (BookBuilderModule.construct config).bookBuilder
      (BookBuilderModule.construct config).bookBuilder where
  instrument := rfl
  book := ⟨rfl, rfl, image_empty, image_empty⟩
  events := rfl

theorem module_mirrors (config : Config) (snapshot : Snapshot) (timed : List (Timestamp × BookUpdate)) :
    BuilderMirrors ((BookBuilderModule.construct config).run snapshot timed).bookBuilder
      ((BookBuilderModule.construct config).run (mirroredSnapshot snapshot) (timed.map mirroredTimed)).bookBuilder := by
  obtain ⟨answer, next⟩ := (construct_mirrors config).applySnapshot snapshot
  rw [BookBuilderModule.run, BookBuilderModule.run]
  dsimp only
  rw [answer]
  split
  next => exact next
  next => exact next.run timed

theorem evaluate_mirrored (strategy : ImbalanceStrategy) (event : MarketEvent) :
    strategy.evaluate (mirroredEvent event) = reversed (strategy.evaluate event) := by
  have total : event.bestAskQuantity.raw + event.bestBidQuantity.raw =
      event.bestBidQuantity.raw + event.bestAskQuantity.raw := Int.add_comm ..
  have flipped : event.bestAskQuantity.raw - event.bestBidQuantity.raw =
      -(event.bestBidQuantity.raw - event.bestAskQuantity.raw) := by omega
  simp only [ImbalanceStrategy.evaluate, mirroredEvent, total, flipped, Int.neg_neg]
  by_cases nothing : event.bestBidQuantity.raw + event.bestAskQuantity.raw ≤ 0
  · rw [if_pos nothing, if_pos nothing]
    rfl
  · rw [if_neg nothing, if_neg nothing]
    generalize event.bestBidQuantity.raw - event.bestAskQuantity.raw = difference
    rcases Int.lt_trichotomy difference 0 with negative | zero | positive
    · rw [if_pos (show 0 < -difference by omega), if_neg (show ¬ 0 < difference by omega), if_pos negative]
      split <;> rfl
    · rw [zero]
      rfl
    · rw [if_neg (show ¬ 0 < -difference by omega), if_pos (show -difference < 0 by omega), if_pos positive]
      split <;> rfl

theorem ordered_mirrored (module : StrategyModule) (event : MarketEvent) :
    ordered module (mirroredEvent event) = (ordered module event).map mirroredItem := by
  rw [ordered, evaluate_mirrored, ordered]
  cases module.strategy.evaluate event with
  | none => rfl
  | buy => rfl
  | sell => rfl

/-- The mirrored snapshot and the mirrored updates lead to the mirrored book, and to
mirrored events and requests in the same order. -/
theorem run_mirrored (config : Config) (snapshot : Snapshot) (timed : List (Timestamp × BookUpdate)) :
    let builder := ((BookBuilderModule.construct config).run snapshot timed).bookBuilder
    let other :=
      ((BookBuilderModule.construct config).run (mirroredSnapshot snapshot) (timed.map mirroredTimed)).bookBuilder
    let mirror := fun entry : Price × Quantity => (negated entry.1, entry.2)
    other.orderBook.bids.toList = builder.orderBook.asks.toList.map mirror ∧
    other.orderBook.asks.toList = builder.orderBook.bids.toList.map mirror ∧
    other.orderBook.sequence = builder.orderBook.sequence ∧
    other.eventDispatcher.strategyQueue = builder.eventDispatcher.strategyQueue.map mirroredEvent ∧
    sequentialRequests config (mirroredSnapshot snapshot) (timed.map mirroredTimed) =
      (sequentialRequests config snapshot timed).map mirroredItem := by
  intro builder other mirror
  have mirrors := module_mirrors config snapshot timed
  refine ⟨mirrors.book.asks.toList asks_to_bids, mirrors.book.bids.toList bids_to_asks, mirrors.book.sequence,
    mirrors.events, ?_⟩
  rw [sequentialRequests, sequentialRequests, run_ordered, run_ordered, mirrors.events, List.map_append,
    List.flatMap_map, List.map_flatMap]
  simp only [ordered_mirrored]
  rfl

end TradingCore.Proofs.MirroredBook
