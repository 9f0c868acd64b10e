import TradingCore.MarketData.MarketDataMessageHandler
import TradingCore.Proofs.BookUpdates

/-! From raw messages to the book. The handler queues no update that has no
levels, the builder takes no update that leaves out a sequence number, so a
message without levels is where a stream ends. -/

universe u

namespace TradingCore.Proofs.MessageDelivery
open BookBuilder BookLevels BookUpdates MarketDataMessageHandler

def queuedUpdates : ParseResult × MarketDataItem → List BookUpdate
  | (.success, .bookUpdate update) => if update.empty then [] else [update]
  | _ => []

section
variable {Message : Type u} (parser : IMarketDataParser Message)

theorem onMessage_queue (handler : MarketDataMessageHandler) (message : Message) :
    (onMessage parser handler message).bookUpdateQueue =
      handler.bookUpdateQueue ++ queuedUpdates (parser message .monostate) := by
  rw [onMessage]
  cases parsed : parser message .monostate with
  | mk result item =>
    dsimp only
    by_cases success : result = .success
    · subst success
      rw [if_neg (not_not_intro rfl)]
      cases item with
      | monostate => exact (List.append_nil _).symm
      | trades trades => exact (List.append_nil _).symm
      | bookUpdate update =>
        rw [deliver, queuedUpdates]
        dsimp only [MarketDataMessageHandler.increment]
        by_cases empty : update.empty
        · rw [if_neg (not_not_intro empty), if_pos empty, List.append_nil]
        · rw [if_pos empty, if_neg empty]
    · rw [if_pos success, queuedUpdates]
      · exact (List.append_nil _).symm
      · intro update same
        exact success (congrArg Prod.fst same)

/-- What a run of messages queues depends on each message alone. -/
theorem messages_queue (handler : MarketDataMessageHandler) (messages : List Message) :
    (Runs.after (onMessage parser) handler messages).bookUpdateQueue =
      handler.bookUpdateQueue ++ (messages.map (parser · .monostate)).flatMap queuedUpdates := by
  rw [List.flatMap_map]
  exact Runs.logged (onMessage_queue parser) handler messages

end

theorem queued_parsed (updates : List BookUpdate) :
    (updates.map fun update => (ParseResult.success, MarketDataItem.bookUpdate update)).flatMap queuedUpdates =
      updates.filter fun update => ¬ update.empty := by
  induction updates with
  | nil => rfl
  | cons update rest ih =>
    rw [List.map_cons, List.flatMap_cons, ih, queuedUpdates]
    by_cases empty : update.empty
    · rw [if_pos empty, List.filter_cons_of_neg (by simpa using empty), List.nil_append]
    · rw [if_neg empty, List.filter_cons_of_pos (by simpa using empty), List.singleton_append]

def lastSequence : SequenceNumber → List BookUpdate → SequenceNumber
  | sequence, [] => sequence
  | _, update :: rest => lastSequence update.sequenceRange.last rest

/-- Each update finds a book in which all of its levels can be applied, when
all the updates before it have been. -/
def AllApplicable (book : OrderBook) (updates : List BookUpdate) : Prop :=
  Runs.Along updatedBook (fun book update => Runs.Along applyLevel LevelApplicable book update.updates) book updates

theorem contiguous_ahead {sequence : SequenceNumber} {updates : List BookUpdate}
    (contiguous : Contiguous sequence updates) :
    sequence.toNat ≤ (lastSequence sequence updates).toNat ∧
    ∀ update ∈ updates, sequence.toNat < update.sequenceRange.first.toNat := by
  induction updates generalizing sequence with
  | nil => exact ⟨Nat.le_refl _, fun _ member => nomatch member⟩
  | cons update rest ih =>
    obtain ⟨next, ordered, following⟩ := contiguous
    obtain ⟨last, later⟩ := ih following
    have ordered : update.sequenceRange.first.toNat ≤ update.sequenceRange.last.toNat := ordered
    rw [lastSequence]
    refine ⟨by omega, ?_⟩
    intro other member
    rcases List.mem_cons.mp member with rfl | member
    · omega
    · have after := later other member
      omega

/-- A builder that has fallen behind ignores all that follows. -/
theorem behind_unchanged {builder : BookBuilder} {timed : List (Timestamp × BookUpdate)}
    (behind : ∀ item ∈ timed, builder.orderBook.sequence.toNat + 1 < item.2.sequenceRange.first.toNat) :
    Runs.after onTimed builder timed = builder := by
  induction timed with
  | nil => rfl
  | cons item rest ih =>
    have ignored : ¬ InSequence builder item.2 := by
      intro ⟨_, next⟩
      have gap := behind item List.mem_cons_self
      rw [next, UInt64.toNat_add] at gap
      have wraps := Nat.mod_le (builder.orderBook.sequence.toNat + UInt64.toNat 1) (2 ^ 64)
      rw [UInt64.toNat_one] at gap wraps
      omega
    rw [Runs.after_cons, onTimed, onBookUpdate_ignored item.1 ignored]
    exact ih fun other member => behind other (List.mem_cons_of_mem item member)

/-- Once one update of a contiguous stream is missing, the end of the stream
is not reached. -/
theorem behind_lost {builder : BookBuilder} {sequence : SequenceNumber} {updates : List BookUpdate}
    {timed : List (Timestamp × BookUpdate)} (contiguous : Contiguous sequence updates)
    (queued : timed.map Prod.snd = updates.filter fun update => ¬ update.empty)
    (behind : builder.orderBook.sequence.toNat < sequence.toNat) :
    (Runs.after onTimed builder timed).orderBook.sequence ≠ lastSequence sequence updates := by
  obtain ⟨last, later⟩ := contiguous_ahead contiguous
  rw [behind_unchanged]
  · intro same
    rw [same] at behind
    omega
  · intro item member
    have listed : item.2 ∈ updates.filter fun update => ¬ update.empty := queued ▸ List.mem_map_of_mem member
    have after := later item.2 (List.mem_filter.mp listed).1
    omega

theorem filtered_stream_iff {builder : BookBuilder} {updates : List BookUpdate}
    {timed : List (Timestamp × BookUpdate)}
    (own : ∀ update ∈ updates, update.instrument = builder.instrument)
    (contiguous : Contiguous builder.orderBook.sequence updates)
    (applicable : AllApplicable builder.orderBook updates)
    (queued : timed.map Prod.snd = updates.filter fun update => ¬ update.empty) :
    (Runs.after onTimed builder timed).orderBook.sequence = lastSequence builder.orderBook.sequence updates ↔
      ∀ update ∈ updates, ¬ update.empty := by
  induction updates generalizing builder timed with
  | nil =>
    obtain rfl : timed = [] := List.map_eq_nil_iff.mp queued
    exact iff_of_true rfl fun _ member => nomatch member
  | cons update rest ih =>
    obtain ⟨next, ordered, following⟩ := contiguous
    obtain ⟨levels, laterLevels⟩ := applicable
    rw [lastSequence, List.forall_mem_cons]
    by_cases empty : update.empty
    · refine iff_of_false ?_ fun all => all.1 empty
      have ordered : update.sequenceRange.first.toNat ≤ update.sequenceRange.last.toNat := ordered
      rw [List.filter_cons_of_neg (by simpa using empty)] at queued
      exact behind_lost following queued (by omega)
    · rw [List.filter_cons_of_pos (by simpa using empty)] at queued
      obtain ⟨item, later, rfl, rfl, remaining⟩ := List.map_eq_cons_iff.mp queued
      have inSequence : InSequence builder item.2 := ⟨own item.2 List.mem_cons_self, isSequenceValid_of_next next⟩
      rw [and_iff_right empty, Runs.after_cons, onTimed, onBookUpdate_applied item.1 inSequence levels]
      refine ih ?_ ?_ ?_ remaining
      · exact fun other member => own other (List.mem_cons_of_mem item.2 member)
      · exact following
      · exact laterLevels

/-- A stream of messages ends at the last sequence number of its last message
exactly when no message of it comes without levels. -/
theorem messages_delivered_iff {Message : Type u} (parser : IMarketDataParser Message) (builder : BookBuilder)
    {snapshot : Snapshot} {messages : List Message} {updates : List BookUpdate}
    {timed : List (Timestamp × BookUpdate)}
    (accepted : (builder.applySnapshot snapshot).1 = true)
    (parsed : messages.map (parser · .monostate) = updates.map fun update => (.success, .bookUpdate update))
    (own : ∀ update ∈ updates, update.instrument = builder.instrument)
    (contiguous : Contiguous snapshot.sequence updates)
    (applicable : AllApplicable (builder.applySnapshot snapshot).2.orderBook updates)
    (queued : timed.map Prod.snd = (Runs.after (onMessage parser) {} messages).bookUpdateQueue) :
    (Runs.after onTimed (builder.applySnapshot snapshot).2 timed).orderBook.sequence =
        lastSequence snapshot.sequence updates ↔
      ∀ update ∈ updates, ¬ update.empty := by
  have taken : timed.map Prod.snd = updates.filter fun update => ¬ update.empty := by
    rw [queued, messages_queue, parsed]
    exact queued_parsed updates
  rw [applySnapshot_own (own_of_accepted accepted)] at applicable ⊢
  exact filtered_stream_iff own contiguous applicable taken

/-- What a parser of comma-separated fields makes of a few messages: the
instrument, the range and the timestamp, then side, price and quantity of each
level. -/
def fieldParser (message : String) (_ : MarketDataItem) : ParseResult × MarketDataItem :=
  match message with
  | "1,101,101,5" => (.success, .bookUpdate { instrument := 1, sequenceRange := ⟨101, 101⟩, exchangeTimestamp := 5 })
  | "1,101,101,5,Buy,500,7" =>
    (.success, .bookUpdate {
      instrument := 1, sequenceRange := ⟨101, 101⟩, exchangeTimestamp := 5, updates := [⟨.buy, ⟨500⟩, ⟨7⟩⟩] })
  | "1,102,103,6,Buy,500,4" =>
    (.success, .bookUpdate {
      instrument := 1, sequenceRange := ⟨102, 103⟩, exchangeTimestamp := 6, updates := [⟨.buy, ⟨500⟩, ⟨4⟩⟩] })
  | "" => (.emptyMessage, .monostate)
  | _ => (.invalidMessage, .monostate)

def parsedUpdate (message : String) : BookUpdate :=
  match (fieldParser message .monostate).2 with
  | .bookUpdate update => update
  | _ => {}

def fullMessages : List String := ["1,101,101,5,Buy,500,7", "1,102,103,6,Buy,500,4"]

def bareMessages : List String := ["1,101,101,5", "1,102,103,6,Buy,500,4"]

theorem full_messages_delivered :
    (Runs.after onTimed (emptyBuilder.applySnapshot oneBid).2
      ((fullMessages.map parsedUpdate).map (Prod.mk 9))).orderBook.sequence = 103 := by
  apply (@messages_delivered_iff _ fieldParser emptyBuilder oneBid fullMessages (fullMessages.map parsedUpdate)
    ((fullMessages.map parsedUpdate).map (Prod.mk 9)) (by decide) (by decide) (by decide)
    ⟨by decide, by decide, by decide, by decide, trivial⟩ ⟨by decide, by decide, trivial⟩ (by decide)).mpr
  decide

/-- The message without levels never reaches the builder, which then takes the
next one for a gap. -/
theorem bare_message_ends_stream :
    let timed := (Runs.after (onMessage fieldParser) {} bareMessages).bookUpdateQueue.map (Prod.mk 9)
    (emptyBuilder.applySnapshot oneBid).1 = true ∧
    bareMessages.map (fieldParser · .monostate) =
      (bareMessages.map parsedUpdate).map (fun update => (.success, .bookUpdate update)) ∧
    Contiguous oneBid.sequence (bareMessages.map parsedUpdate) ∧
    AllApplicable (emptyBuilder.applySnapshot oneBid).2.orderBook (bareMessages.map parsedUpdate) ∧
    (Runs.after onTimed (emptyBuilder.applySnapshot oneBid).2 timed).orderBook.sequence = 100 ∧
    lastSequence oneBid.sequence (bareMessages.map parsedUpdate) = 103 := by
  refine ⟨by decide, by decide, ⟨by decide, by decide, by decide, by decide, trivial⟩, ?_, by decide, by decide⟩
  exact ⟨by decide, by decide, trivial⟩

end TradingCore.Proofs.MessageDelivery
