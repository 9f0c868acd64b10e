import TradingCore.Foundation.Arrivals
import TradingCore.Proofs.ApplicationOutcome

/-! A stream of updates that arrive in any order and any number of times, among
updates for other instruments. The builder takes each at its turn only, so the
application does what it would do with the part of the stream that arrives in
order. -/

universe u

namespace TradingCore.Proofs.UpdateArrivals
open Application BookBuilder BookLevels BookUpdates BookResync MessageDelivery MarketDataMessageHandler
open Arrivals ApplicationFlow PipelineFlow Shutdown

/-- The part of the stream before `awaited` is in the book, and each update after
it will find its levels applicable. -/
structure Awaits (instrument : InstrumentId) (stream : List BookUpdate) (builder : BookBuilder)
    (awaited : List BookUpdate) : Prop where
  instrument : builder.instrument = instrument
  covered : ∃ taken, stream = taken ++ awaited ∧ ∀ update ∈ taken, Covered builder.orderBook.sequence update
  contiguous : Contiguous builder.orderBook.sequence awaited
  applicable : AllApplicable builder.orderBook awaited

def Possible (instrument : InstrumentId) (stream : List BookUpdate) (update : BookUpdate) : Prop :=
  update.instrument ≠ instrument ∨ update ∈ stream

/-- The clock of the builder is left out. -/
def onUntimed (builder : BookBuilder) (update : BookUpdate) : BookBuilder := builder.onBookUpdate 0 update

def untimed (updates : List BookUpdate) : List (Timestamp × BookUpdate) := updates.map ((0, ·))

variable {instrument : InstrumentId} {stream awaited : List BookUpdate} {builder : BookBuilder} {update : BookUpdate}

theorem next_toNat (inSequence : InSequence builder update) (positive : 0 < update.sequenceRange.first.toNat) :
    update.sequenceRange.first.toNat = builder.orderBook.sequence.toNat + 1 := by
  have small := builder.orderBook.sequence.toNat_lt
  have same := congrArg UInt64.toNat inSequence.2
  rw [UInt64.toNat_add, UInt64.toNat_one] at same
  omega

theorem Awaits.takes {later : List BookUpdate} (own : ∀ update ∈ stream, update.instrument = instrument)
    (awaits : Awaits instrument stream builder (update :: later)) :
    Awaits instrument stream (onUntimed builder update) later := by
  obtain ⟨next, ordered, following⟩ := awaits.contiguous
  obtain ⟨taken, split, covered⟩ := awaits.covered
  obtain ⟨applicable, remaining⟩ := awaits.applicable
  have member : update ∈ stream := split ▸ List.mem_append_right taken List.mem_cons_self
  have inSequence : InSequence builder update :=
    ⟨(own update member).trans awaits.instrument.symm, isSequenceValid_of_next next⟩
  have ordered : update.sequenceRange.first.toNat ≤ update.sequenceRange.last.toNat := ordered
  rw [onUntimed, onBookUpdate_applied 0 inSequence applicable]
  refine ⟨awaits.instrument, ⟨taken ++ [update], ?_, ?_⟩, following, remaining⟩
  · rw [split, List.append_assoc, List.singleton_append]
  · intro other inside
    show Covered update.sequenceRange.last other
    rcases List.mem_append.mp inside with earlier | same
    · obtain ⟨positive, bounded⟩ := covered other earlier
      exact ⟨positive, by omega⟩
    · obtain rfl := List.mem_singleton.mp same
      exact ⟨by omega, ordered⟩

/-- What is not awaited next is of another instrument, in the book already or
beyond a gap. -/
theorem Awaits.ignores (awaits : Awaits instrument stream builder awaited)
    (possible : Possible instrument stream update) (unawaited : awaited.head? ≠ some update) :
    onUntimed builder update = builder := by
  apply onBookUpdate_ignored
  intro inSequence
  obtain ⟨taken, split, covered⟩ := awaits.covered
  rcases possible with foreign | member
  · exact foreign (inSequence.1.trans awaits.instrument)
  · rw [split, List.mem_append] at member
    rcases member with earlier | later
    · obtain ⟨positive, bounded⟩ := covered update earlier
      have next := next_toNat inSequence positive
      omega
    · have contiguous := awaits.contiguous
      cases awaited with
      | nil => cases later
      | cons want rest =>
        rcases List.mem_cons.mp later with same | beyond
        · exact unawaited (congrArg some same.symm)
        · obtain ⟨wanted, ordered, following⟩ := contiguous
          have ordered : want.sequenceRange.first.toNat ≤ want.sequenceRange.last.toNat := ordered
          have ahead := (contiguous_ahead following).2 update beyond
          have next := next_toNat inSequence (Nat.zero_lt_of_lt ahead)
          omega

theorem after_untimed (builder : BookBuilder) (updates : List BookUpdate) :
    Runs.after onTimed builder (untimed updates) = Runs.after onUntimed builder updates := by
  rw [Runs.after, untimed, List.foldl_map]
  rfl

/-- A builder gets as far as the part of the stream that arrives in order. -/
theorem Awaits.run (own : ∀ update ∈ stream, update.instrument = instrument)
    (awaits : Awaits instrument stream builder awaited) {fed : List BookUpdate}
    (each : ∀ update ∈ fed, Possible instrument stream update) :
    Runs.after onTimed builder (untimed fed) = Runs.after onTimed builder (untimed (inOrder awaited fed)) := by
  rw [after_untimed, after_untimed]
  apply after_arrivals
  · exact fun _ _ _ awaits => Awaits.takes own awaits
  · exact fun _ _ _ awaits possible unawaited => Awaits.ignores awaits possible unawaited
  · exact awaits
  · exact each

theorem started_awaits (config : Config) {snapshot : Snapshot} (contiguous : Contiguous snapshot.sequence stream)
    (applicable : AllApplicable (started (.construct config) snapshot).orderBook stream) :
    Awaits config.instrument stream (started (.construct config) snapshot) stream where
  instrument := rfl
  covered := ⟨[], rfl, nofun⟩
  contiguous := contiguous
  applicable := applicable

theorem sequential_congr {config : Config} {snapshot : Snapshot} {timed timed' : List (Timestamp × BookUpdate)}
    (trades : List Trade)
    (same : ((BookBuilderModule.construct config).run snapshot timed).bookBuilder =
      ((BookBuilderModule.construct config).run snapshot timed').bookBuilder) :
    sequential config snapshot timed trades = sequential config snapshot timed' trades := by
  rw [sequential, sequential, sequentialRequests, sequentialRequests, same]

theorem sequential_inOrder (config : Config) {snapshot : Snapshot} (trades : List Trade)
    (own : ∀ update ∈ stream, update.instrument = config.instrument)
    (contiguous : Contiguous snapshot.sequence stream)
    (applicable : AllApplicable (started (.construct config) snapshot).orderBook stream) {fed : List BookUpdate}
    (each : ∀ update ∈ fed, Possible config.instrument stream update) :
    sequential config snapshot (untimed fed) trades =
      sequential config snapshot (untimed (inOrder stream fed)) trades := by
  apply sequential_congr
  by_cases accepted : Accepted config snapshot
  · rw [run_started (own_of_accepted accepted), run_started (own_of_accepted accepted)]
    exact (started_awaits config contiguous applicable).run own each
  · rw [refused_unchanged accepted, refused_unchanged accepted]

theorem untimed_updates (updates : List BookUpdate) : (untimed updates).map Prod.snd = updates := by
  rw [untimed, List.map_map]
  exact List.map_id updates

section
variable {Message : Type u} (parser : IMarketDataParser Message)

/-- Updates may come too early and more than once, and be mixed with those of other
instruments: at rest the application is where the longest part of the stream that
arrives in order leads to. -/
theorem arrivals_harmless (config : Config) (snapshot : Snapshot) (turns : List (Turn Message))
    (stream : List BookUpdate) (own : ∀ update ∈ stream, update.instrument = config.instrument)
    (contiguous : Contiguous snapshot.sequence stream)
    (applicable : AllApplicable (started (.construct config) snapshot).orderBook stream)
    (each : ∀ update ∈ (Runs.after (onMessage parser) {} (received parser config snapshot turns)).bookUpdateQueue,
      update.instrument ≠ config.instrument ∨ update ∈ stream)
    (rest : AtRest (reached parser snapshot config turns)) :
    let handler := Runs.after (onMessage parser) {} (received parser config snapshot turns)
    ∃ taken : List BookUpdate, taken <+: stream ∧ taken.Sublist handler.bookUpdateQueue ∧
      (∀ longer, longer <+: stream → longer.Sublist handler.bookUpdateQueue → longer <+: taken) ∧
      outcome (reached parser snapshot config turns) =
        sequential config snapshot (taken.map ((0, ·))) handler.tradeQueue := by
  intro handler
  refine ⟨inOrder stream handler.bookUpdateQueue, inOrder_within .., inOrder_sublist .., ?_, ?_⟩
  · exact fun longer inside arrived => inOrder_longest inside arrived
  · have complete := (application_confluent parser config snapshot turns (untimed handler.bookUpdateQueue)
      (untimed_updates _)).2 rest
    exact complete.trans (sequential_inOrder config handler.tradeQueue own contiguous applicable each)

end

/-- The bid is gone. -/
def removedBid : BookUpdate := { instrument := 1, sequenceRange := ⟨102, 103⟩, updates := [⟨.buy, ⟨500⟩, ⟨0⟩⟩] }

def foreignUpdate : BookUpdate := { removedBid with instrument := 2 }

/-- The second update comes before the first, which is repeated. -/
def shuffledUpdates : List BookUpdate := [removedBid, grownBid, foreignUpdate, grownBid, removedBid]

def shuffledTurns : List (Turn MarketDataItem) :=
  .start :: List.replicate 8 .main ++
    shuffledUpdates.flatMap (fun update => [.receive (.bookUpdate update), .source]) ++
    List.replicate 20 (.bookBuilder 1) ++ List.replicate 5 .strategy ++ List.replicate 5 .execution ++
    List.replicate 9 .recording ++ [.trade]

theorem arrivals_harmless_shuffled :
    outcome (reached itemParser evenBook { instrument := 1 } shuffledTurns) =
      sequential { instrument := 1 } evenBook [(0, grownBid), (0, removedBid)] [] := by
  have rest : AtRest (reached itemParser evenBook { instrument := 1 } shuffledTurns) :=
    ⟨by decide +kernel, Or.inr ⟨by decide +kernel, by decide +kernel⟩, ⟨by decide +kernel, by decide +kernel⟩,
      ⟨by decide +kernel, by decide +kernel⟩, ⟨by decide +kernel, by decide +kernel⟩,
      ⟨by decide +kernel, by decide +kernel⟩⟩
  have applicable : AllApplicable (started (.construct { instrument := 1 }) evenBook).orderBook
      [grownBid, removedBid] := by
    unfold AllApplicable
    decide
  obtain ⟨taken, inside, _, longest, complete⟩ := arrivals_harmless itemParser { instrument := 1 } evenBook
    shuffledTurns [grownBid, removedBid] (by decide) ⟨by decide, by decide, by decide, by decide, trivial⟩ applicable
    (by decide) rest
  have all : taken = [grownBid, removedBid] :=
    inside.eq_of_length_le (longest [grownBid, removedBid] List.prefix_rfl (by decide)).length_le
  rw [all] at complete
  exact complete

end TradingCore.Proofs.UpdateArrivals
