import Mathlib.Data.List.Perm.Basic
import TradingCore.Proofs.BookUpdates

/-! A book started from a snapshot in the middle of a stream. The updates the
snapshot already covers are ignored, and from there on the book is the one a
replay of the whole stream has. -/

namespace TradingCore.Proofs.BookResync
open Std BookBuilder BookLevels BookUpdates

section
variable {order : Price → Price → Ordering} [TransCmp order] [LawfulEqCmp order]

def levelsOf (levels : Levels order) : List BookLevel :=
  levels.toList.map fun (price, quantity) => { price, quantity }

/-- Any listing of the levels of a side builds that side. -/
theorem emplaceAll_listing {levels : Levels order} {listed : List BookLevel} (listing : listed.Perm (levelsOf levels)) :
    emplaceAll listed = levels := by
  have member : ∀ level : BookLevel, level ∈ listed ↔ levels[level.price]? = some level.quantity := by
    intro level
    rw [listing.mem_iff, levelsOf, List.mem_map, ← ExtTreeMap.mem_toList_iff_getElem?_eq_some]
    constructor
    · rintro ⟨⟨price, quantity⟩, held, rfl⟩
      exact held
    · intro held
      exact ⟨(level.price, level.quantity), held, rfl⟩
  apply ExtTreeMap.ext_getElem?
  intro price
  rw [getElem?_emplaceAll]
  cases found : listed.find? (·.price = price) with
  | none =>
    cases held : levels[price]? with
    | none => rfl
    | some quantity =>
      have absent := List.find?_eq_none.mp found ⟨price, quantity⟩ ((member _).mpr held)
      simp at absent
  | some level =>
    have listedLevel := (member level).mp (List.mem_of_find?_eq_some found)
    have same := List.find?_some found
    simp only [decide_eq_true_eq] at same
    rw [← same]
    exact listedLevel.symm

end

structure SnapshotOf (builder : BookBuilder) (snapshot : Snapshot) : Prop where
  instrument : snapshot.instrument = builder.instrument
  sequence : snapshot.sequence = builder.orderBook.sequence
  bids : snapshot.bids.Perm (levelsOf builder.orderBook.bids)
  asks : snapshot.asks.Perm (levelsOf builder.orderBook.asks)

variable {builder other : BookBuilder}

theorem onTimed_run_frame (builder : BookBuilder) (timed : List (Timestamp × BookUpdate)) :
    (Runs.after onTimed builder timed).instrument = builder.instrument ∧
    (Runs.after onTimed builder timed).orderBook.depthValue = builder.orderBook.depthValue := by
  have preserved : ∀ (state : BookBuilder) timed,
      state.instrument = builder.instrument ∧ state.orderBook.depthValue = builder.orderBook.depthValue →
      (state.onTimed timed).instrument = builder.instrument ∧
        (state.onTimed timed).orderBook.depthValue = builder.orderBook.depthValue := by
    intro state timed ⟨instrument, depth⟩
    obtain ⟨sameInstrument, sameDepth⟩ := onBookUpdate_frame timed.1 state timed.2
    exact ⟨sameInstrument.trans instrument, sameDepth.trans depth⟩
  exact Runs.invariant preserved ⟨rfl, rfl⟩ timed

def Covered (sequence : SequenceNumber) (update : BookUpdate) : Prop :=
  0 < update.sequenceRange.first.toNat ∧ update.sequenceRange.first.toNat ≤ sequence.toNat

/-- A replay ends at a sequence that covers all it has replayed. -/
theorem covered_of_replay {timed : List (Timestamp × BookUpdate)}
    (own : ∀ update ∈ timed.map Prod.snd, update.instrument = builder.instrument)
    (contiguous : Contiguous builder.orderBook.sequence (timed.map Prod.snd))
    (applicable : Runs.Along onTimed (fun builder timed => LevelsApplicable builder timed.2) builder timed) :
    builder.orderBook.sequence.toNat ≤ (Runs.after onTimed builder timed).orderBook.sequence.toNat ∧
    ∀ update ∈ timed.map Prod.snd, Covered (Runs.after onTimed builder timed).orderBook.sequence update := by
  induction timed generalizing builder with
  | nil => exact ⟨Nat.le_refl _, by simp⟩
  | cons first rest ih =>
    obtain ⟨now, update⟩ := first
    obtain ⟨next, ordered, following⟩ : update.sequenceRange.first.toNat = builder.orderBook.sequence.toNat + 1 ∧
      update.sequenceRange.first ≤ update.sequenceRange.last ∧
      Contiguous update.sequenceRange.last (rest.map Prod.snd) := contiguous
    obtain ⟨applied, applicable⟩ := applicable
    have inSequence : InSequence builder update := ⟨own update List.mem_cons_self, isSequenceValid_of_next next⟩
    have reached : (builder.onTimed (now, update)).orderBook.sequence = update.sequenceRange.last := by
      rw [onTimed, onBookUpdate_applied now inSequence applied]
      rfl
    have instrument : (builder.onTimed (now, update)).instrument = builder.instrument :=
      (onBookUpdate_frame now builder update).1
    obtain ⟨grown, covered⟩ := ih
      (fun other member => (own other (List.mem_cons_of_mem update member)).trans instrument.symm)
      (reached ▸ following) applicable
    rw [UInt64.le_iff_toNat_le] at ordered
    rw [reached] at grown
    refine ⟨show _ ≤ (Runs.after onTimed _ rest).orderBook.sequence.toNat by omega, ?_⟩
    intro other member
    rcases List.mem_cons.mp member with same | later
    · rw [same]
      exact ⟨show 0 < update.sequenceRange.first.toNat by omega,
        show update.sequenceRange.first.toNat ≤ (Runs.after onTimed _ rest).orderBook.sequence.toNat by omega⟩
    · exact covered other later

theorem covered_ignored {timed : List (Timestamp × BookUpdate)}
    (covered : ∀ update ∈ timed.map Prod.snd, Covered builder.orderBook.sequence update) :
    Runs.after onTimed builder timed = builder := by
  induction timed with
  | nil => rfl
  | cons first rest ih =>
    obtain ⟨positive, bounded⟩ := covered first.2 List.mem_cons_self
    have stale : ¬ InSequence builder first.2 := by
      rintro ⟨_, valid⟩
      have small := builder.orderBook.sequence.toNat_lt
      have same := congrArg UInt64.toNat valid
      rw [UInt64.toNat_add, UInt64.toNat_one] at same
      omega
    rw [Runs.after_cons, onTimed, onBookUpdate_ignored first.1 stale]
    exact ih fun update member => covered update (List.mem_cons_of_mem first.2 member)

def timeless (event : MarketEvent) : MarketEvent := { event with receiveTimestamp := 0 }

def PublishedAlike (first first' second second' : BookBuilder) : Prop :=
  ∃ events events' : List MarketEvent,
    first'.eventDispatcher = Runs.after MarketEventDispatcher.onMarketEvent first.eventDispatcher events ∧
    second'.eventDispatcher = Runs.after MarketEventDispatcher.onMarketEvent second.eventDispatcher events' ∧
    events.map timeless = events'.map timeless

theorem PublishedAlike.trans {first middle last other middle' last' : BookBuilder}
    (earlier : PublishedAlike first middle other middle') (later : PublishedAlike middle last middle' last') :
    PublishedAlike first last other last' := by
  obtain ⟨events, events', published, published', same⟩ := earlier
  obtain ⟨more, more', publishedMore, publishedMore', sameMore⟩ := later
  refine ⟨events ++ more, events' ++ more', ?_, ?_, ?_⟩
  · rw [publishedMore, published, Runs.after_append]
  · rw [publishedMore', published', Runs.after_append]
  · rw [List.map_append, List.map_append, same, sameMore]

structure Alike (first second : BookBuilder) : Prop where
  instrument : first.instrument = second.instrument
  book : first.orderBook = second.orderBook

theorem Alike.onBookUpdate (alike : Alike builder other) (now later : Timestamp) (update : BookUpdate) :
    Alike (builder.onBookUpdate now update) (other.onBookUpdate later update) ∧
    PublishedAlike builder (builder.onBookUpdate now update) other (other.onBookUpdate later update) := by
  obtain ⟨instrument, book⟩ := alike
  have sequences : InSequence builder update ↔ InSequence other update := by
    rw [InSequence, InSequence, isSequenceValid, isSequenceValid, instrument, book]
  have levels : LevelsApplicable builder update ↔ LevelsApplicable other update := by
    rw [LevelsApplicable, LevelsApplicable, book]
  by_cases inSequence : InSequence builder update
  · have inSequence' := sequences.mp inSequence
    by_cases applicable : LevelsApplicable builder update
    · rw [onBookUpdate_applied now inSequence applicable,
        onBookUpdate_applied later inSequence' (levels.mp applicable)]
      refine ⟨⟨instrument, congrArg (updatedBook · update) book⟩, ?_⟩
      refine ⟨[topOfBook builder.instrument (updatedBook builder.orderBook update) now update],
        [topOfBook other.instrument (updatedBook other.orderBook update) later update], rfl, rfl, ?_⟩
      rw [instrument, book]
      rfl
    · rw [onBookUpdate_refused now inSequence applicable,
        onBookUpdate_refused later inSequence' (mt levels.mpr applicable)]
      refine ⟨⟨instrument, ?_⟩, [], [], rfl, rfl, rfl⟩
      rw [book]
  · rw [onBookUpdate_ignored now inSequence, onBookUpdate_ignored later (mt sequences.mpr inSequence)]
    exact ⟨⟨instrument, book⟩, [], [], rfl, rfl, rfl⟩

/-- Two builders that start alike stay alike on the same updates, whatever
their clocks show. -/
theorem Alike.run (alike : Alike builder other) {timed timed' : List (Timestamp × BookUpdate)}
    (same : timed.map Prod.snd = timed'.map Prod.snd) :
    Alike (Runs.after onTimed builder timed) (Runs.after onTimed other timed') ∧
    PublishedAlike builder (Runs.after onTimed builder timed) other (Runs.after onTimed other timed') := by
  induction timed generalizing builder other timed' with
  | nil =>
    obtain rfl := List.map_eq_nil_iff.mp same.symm
    exact ⟨alike, [], [], rfl, rfl, rfl⟩
  | cons first rest ih =>
    obtain ⟨now, update⟩ := first
    cases timed' with
    | nil => cases same
    | cons first' rest' =>
      obtain ⟨later, update'⟩ := first'
      obtain ⟨rfl, remaining⟩ := List.cons.inj same
      obtain ⟨next, published⟩ := alike.onBookUpdate now later update
      obtain ⟨final, publishedMore⟩ := ih next remaining
      exact ⟨final, published.trans publishedMore⟩

theorem contiguous_take {sequence : SequenceNumber} {updates : List BookUpdate}
    (contiguous : Contiguous sequence updates) (k : Nat) : Contiguous sequence (updates.take k) := by
  induction updates generalizing sequence k with
  | nil => simpa using contiguous
  | cons update rest ih =>
    cases k with
    | zero => exact trivial
    | succ k =>
      obtain ⟨next, ordered, following⟩ := contiguous
      exact ⟨next, ordered, ih following k⟩

def started (module : BookBuilderModule) (snapshot : Snapshot) : BookBuilder :=
  { module.bookBuilder with
    orderBook := module.bookBuilder.orderBook.setState snapshot.sequence snapshot.bids snapshot.asks }

theorem run_started {module : BookBuilderModule} {snapshot : Snapshot}
    (own : snapshot.instrument = module.bookBuilder.instrument) (fed : List (Timestamp × BookUpdate)) :
    (module.run snapshot fed).bookBuilder = Runs.after onTimed (started module snapshot) fed := by
  rw [BookBuilderModule.run, applySnapshot_own own]
  rfl

theorem started_alike {module : BookBuilderModule} {snapshot : Snapshot} (cut : SnapshotOf builder snapshot)
    (instrument : module.bookBuilder.instrument = builder.instrument)
    (depth : module.bookBuilder.orderBook.depthValue = builder.orderBook.depthValue) :
    Alike (started module snapshot) builder := by
  refine ⟨instrument, ?_⟩
  rw [started, OrderBook.setState, depth, cut.sequence, emplaceAll_listing cut.bids, emplaceAll_listing cut.asks]
  rfl

/-- A book started from a snapshot of the replay and fed the whole stream ends
where the replay ends, and publishes what the replay publishes after the
snapshot. -/
theorem resync_equals_replay {builder : BookBuilder} {replayed fed : List (Timestamp × BookUpdate)}
    {module : BookBuilderModule} {snapshot : Snapshot} (k : Nat)
    (own : ∀ update ∈ replayed.map Prod.snd, update.instrument = builder.instrument)
    (contiguous : Contiguous builder.orderBook.sequence (replayed.map Prod.snd))
    (applicable : Runs.Along onTimed (fun builder timed => LevelsApplicable builder timed.2) builder replayed)
    (instrument : module.bookBuilder.instrument = builder.instrument)
    (depth : module.bookBuilder.orderBook.depthValue = builder.orderBook.depthValue)
    (cut : SnapshotOf (Runs.after onTimed builder (replayed.take k)) snapshot)
    (same : fed.map Prod.snd = replayed.map Prod.snd) :
    let resynced := (module.run snapshot fed).bookBuilder
    let replay := Runs.after onTimed builder replayed
    resynced.orderBook.bids = replay.orderBook.bids ∧
    resynced.orderBook.asks = replay.orderBook.asks ∧
    resynced.orderBook.sequence = replay.orderBook.sequence ∧
    PublishedAlike module.bookBuilder resynced (Runs.after onTimed builder (replayed.take k)) replay := by
  intro resynced replay
  obtain ⟨sameInstrument, sameDepth⟩ := onTimed_run_frame builder (replayed.take k)
  have alike := started_alike cut (instrument.trans sameInstrument.symm) (depth.trans sameDepth.symm)
  -- what the snapshot covers is ignored
  have covered : ∀ update ∈ (fed.take k).map Prod.snd,
      Covered (started module snapshot).orderBook.sequence update := by
    rw [List.map_take, same, ← List.map_take, alike.book]
    refine (covered_of_replay ?_ ?_ ?_).2
    · intro update member
      rw [List.map_take] at member
      exact own update (List.mem_of_mem_take member)
    · rw [List.map_take]
      exact contiguous_take contiguous k
    · rw [← List.take_append_drop k replayed, Runs.along_append] at applicable
      exact applicable.1
  have ignored := covered_ignored covered
  -- from the snapshot on both runs see the same updates
  have remaining : (fed.drop k).map Prod.snd = (replayed.drop k).map Prod.snd := by
    rw [List.map_drop, List.map_drop, same]
  obtain ⟨final, published⟩ := alike.run remaining
  have resumed : resynced = Runs.after onTimed (started module snapshot) (fed.drop k) := by
    show (module.run snapshot fed).bookBuilder = _
    rw [run_started (cut.instrument.trans (sameInstrument.trans instrument.symm))]
    conv => lhs; rw [← List.take_append_drop k fed, Runs.after_append, ignored]
  have resumed' : replay = Runs.after onTimed (Runs.after onTimed builder (replayed.take k)) (replayed.drop k) := by
    rw [← Runs.after_append, List.take_append_drop]
  rw [resumed, resumed']
  refine ⟨congrArg OrderBook.bids final.book, congrArg OrderBook.asks final.book,
    congrArg OrderBook.sequence final.book, published⟩

def startBuilder : BookBuilder where
  instrument := 1
  orderBook := { depthValue := 2, sequenceNumber := 100 }

def stream : List BookUpdate :=
  [{ instrument := 1, sequenceRange := { first := 101, last := 102 },
     updates := [{ price := ⟨500⟩, quantity := ⟨4⟩ }, { price := ⟨499⟩, quantity := ⟨1⟩ }] },
    { instrument := 1, sequenceRange := { first := 103, last := 103 }, updates := [{ price := ⟨500⟩ }] }]

def streamSnapshot : Snapshot where
  instrument := 1
  sequence := 102
  bids := [⟨⟨499⟩, ⟨1⟩⟩, ⟨⟨500⟩, ⟨4⟩⟩]

theorem resync_equals_replay_stream :
    let resynced := (BookBuilderModule.run { bookBuilder := { instrument := 1, orderBook := { depthValue := 2 } } }
      streamSnapshot (stream.map fun update => (7, update))).bookBuilder
    let replay := Runs.after onTimed startBuilder (stream.map fun update => (9, update))
    resynced.orderBook.bids = replay.orderBook.bids ∧ resynced.orderBook.sequence = replay.orderBook.sequence := by
  have cut : SnapshotOf (Runs.after onTimed startBuilder ((stream.map fun update => (9, update)).take 1))
      streamSnapshot :=
    ⟨by decide, by decide, by decide, by decide⟩
  have resync := @resync_equals_replay startBuilder (stream.map fun update => (9, update))
    (stream.map fun update => (7, update)) { bookBuilder := { instrument := 1, orderBook := { depthValue := 2 } } }
    streamSnapshot 1 (by decide) ⟨by decide, by decide, by decide, by decide, trivial⟩ (by decide) rfl rfl cut rfl
  exact ⟨resync.1, resync.2.2.1⟩

end TradingCore.Proofs.BookResync
