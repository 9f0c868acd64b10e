import TradingCore.Proofs.ApplicationOutcome
import TradingCore.Proofs.MarketDataText

/-! Book updates written as texts. What is written is read back, texts that
describe no update change no book, and an application that is fed with texts does
what it does with the updates they describe. -/

universe u

namespace TradingCore.Proofs.TextFeed
open Utilities TestMarketDataParser MarketDataText Application MarketDataMessageHandler MessageDelivery
open MessageIndependence ApplicationFlow Shutdown PipelineFlow

def numeral (value : Int) : StdString :=
  if value < 0 then '-' :: Nat.toDigits 10 value.natAbs else Nat.toDigits 10 value.natAbs

def levelTexts (level : PriceLevelUpdate) : List StdString :=
  [sideText level.side, numeral level.price.raw, numeral level.quantity.raw]

/-- A time of more than 63 bits is written as the negative number it wraps from. -/
def textsOf (update : BookUpdate) : List StdString :=
  numeral update.instrument.toNat :: numeral update.sequenceRange.first.toNat ::
    numeral update.sequenceRange.last.toNat :: numeral (toInt64 update.exchangeTimestamp.toNat) ::
    update.updates.flatMap levelTexts

def write (update : BookUpdate) : StdString := [','].intercalate (textsOf update)

/-- The values of the levels are within their type. -/
def LevelsFit (update : BookUpdate) : Prop :=
  ∀ level ∈ update.updates, FitsInt64 level.price.raw ∧ FitsInt64 level.quantity.raw

theorem numeral_literal {type : IntegerType} {value : Int} (within : type.lowest ≤ value ∧ value ≤ type.highest)
    (signed : value < 0 → type.signed = true) : Literal type (numeral value) value := by
  refine ⟨within, Nat.toDigits 10 value.natAbs, Nat.toDigits_ne_nil, ?_, ?_⟩
  · exact fun ch member => Nat.isDigit_of_mem_toDigits (by decide) (by decide) member
  · rw [numeral, Nat.ofDigitChars_ten_toDigits]
    by_cases negative : value < 0
    · rw [if_pos negative]
      exact Or.inr ⟨signed negative, rfl, by omega⟩
    · rw [if_neg negative]
      exact Or.inl ⟨rfl, by omega⟩

theorem uint32_literal (value : UInt32) : Literal .uint32 (numeral value.toNat) value.toNat := by
  have small := value.toNat_lt
  apply numeral_literal
  · simp only [IntegerType.uint32]
    omega
  · omega

theorem uint64_literal (value : UInt64) : Literal .uint64 (numeral value.toNat) value.toNat := by
  have small := value.toNat_lt
  apply numeral_literal
  · simp only [IntegerType.uint64]
    omega
  · omega

theorem int64_literal {value : Int} (fits : FitsInt64 value) : Literal .int64 (numeral value) value := by
  obtain ⟨above, below⟩ := fits
  apply numeral_literal
  · simp only [IntegerType.int64]
    omega
  · exact fun _ => rfl

theorem level_fields {levels : List PriceLevelUpdate}
    (fits : ∀ level ∈ levels, FitsInt64 level.price.raw ∧ FitsInt64 level.quantity.raw) :
    LevelFields (levels.flatMap levelTexts) levels := by
  induction levels with
  | nil => exact .done (Nat.succ_pos 2)
  | cons level rest ih =>
    obtain ⟨price, quantity⟩ := fits level List.mem_cons_self
    exact .level (int64_literal price) (int64_literal quantity)
      (ih fun other member => fits other (List.mem_cons_of_mem level member))

theorem numeral_no_comma (value : Int) : ',' ∉ numeral value := by
  have digits : ',' ∉ Nat.toDigits 10 value.natAbs := by
    intro member
    cases Nat.isDigit_of_mem_toDigits (by decide) (by decide) member
  rw [numeral]
  split
  next => exact fun member => (List.mem_cons.mp member).elim (by decide) digits
  next => exact digits

theorem sideText_no_comma (side : Side) : ',' ∉ sideText side := by
  have letters : ∀ ch ∈ sideText side, ch.isAlpha = true := by
    cases side with
    | buy => exact List.all_eq_true.mp rfl
    | sell => exact List.all_eq_true.mp rfl
  intro member
  cases letters ',' member

theorem texts_no_comma (update : BookUpdate) : ∀ text ∈ textsOf update, ',' ∉ text := by
  have levels : ∀ text ∈ update.updates.flatMap levelTexts, ',' ∉ text := by
    intro text member
    obtain ⟨level, _, inside⟩ := List.mem_flatMap.mp member
    rw [levelTexts, List.mem_cons, List.mem_cons, List.mem_singleton] at inside
    rcases inside with side | price | quantity
    · rw [side]
      exact sideText_no_comma level.side
    · rw [price]
      exact numeral_no_comma level.price.raw
    · rw [quantity]
      exact numeral_no_comma level.quantity.raw
  rw [textsOf, List.forall_mem_cons, List.forall_mem_cons, List.forall_mem_cons, List.forall_mem_cons]
  exact ⟨numeral_no_comma _, numeral_no_comma _, numeral_no_comma _, numeral_no_comma _, levels⟩

theorem uint32_ofInt_toNat (value : UInt32) : UInt32.ofInt value.toNat = value := by
  have small := value.toNat_lt
  have kept : (value.toNat : Int) % 2 ^ 32 = value.toNat := by omega
  apply UInt32.toNat.inj
  rw [UInt32.ofInt, kept, UInt32.toNat_ofNat', Int.toNat_natCast]
  exact Nat.mod_eq_of_lt small

theorem uint64_ofInt_eq {number : Int} {value : UInt64} (congruent : number % 2 ^ 64 = value.toNat) :
    UInt64.ofInt number = value := by
  apply UInt64.toNat.inj
  rw [UInt64.ofInt, congruent, UInt64.toNat_ofNat', Int.toNat_natCast]
  exact Nat.mod_eq_of_lt value.toNat_lt

theorem uint64_ofInt_toNat (value : UInt64) : UInt64.ofInt value.toNat = value := by
  have small := value.toNat_lt
  apply uint64_ofInt_eq
  omega

theorem uint64_ofInt_toInt64 (value : UInt64) : UInt64.ofInt (toInt64 value.toNat) = value := by
  have small := value.toNat_lt
  have congruent : toInt64 value.toNat % (2 ^ 64 : Nat) = (value.toNat : Int) % (2 ^ 64 : Nat) := Int.bmod_emod
  apply uint64_ofInt_eq
  omega

/-- An update is what its text describes. -/
theorem write_describes {update : BookUpdate} (fits : LevelsFit update) : Describes (write update) update := by
  have split : (write update).splitOn ',' = textsOf update :=
    List.splitOn_intercalate ',' (texts_no_comma update) nofun
  have described := Describes.intro split (uint32_literal update.instrument) (uint64_literal update.sequenceRange.first)
    (uint64_literal update.sequenceRange.last) (int64_literal (toInt64_fits update.exchangeTimestamp.toNat))
    (level_fields fits)
  rwa [uint32_ofInt_toNat, uint64_ofInt_toNat, uint64_ofInt_toNat, uint64_ofInt_toInt64] at described

/-- What is written is read, by a parser that has read anything before and into an
item that holds anything. -/
theorem parse_write (parser : TestMarketDataParser) (marketDataItem : MarketDataItem) {update : BookUpdate}
    (fits : LevelsFit update) :
    parser.parse (write update) marketDataItem =
      (.success, .bookUpdate update, { bookUpdatesCached := update }) := by
  rw [TestMarketDataParser.parse, parsed_of_describes (write_describes fits)]
  rfl

/-- A bid as low and an ask as high as there are, at a time that is written as -1. -/
def extremeUpdate : BookUpdate where
  instrument := 7
  sequenceRange := ⟨101, 102⟩
  exchangeTimestamp := 18446744073709551615
  updates := [⟨.buy, ⟨-9223372036854775808⟩, ⟨40⟩⟩, ⟨.sell, ⟨9223372036854775807⟩, ⟨0⟩⟩]

theorem extremeUpdate_fits : LevelsFit extremeUpdate := by
  intro level member
  simp only [extremeUpdate, List.mem_cons, List.not_mem_nil, or_false] at member
  rcases member with rfl | rfl
  · simp [FitsInt64]
  · simp [FitsInt64]

theorem parse_write_extreme :
    TestMarketDataParser.parse {} (write extremeUpdate) .monostate =
      (.success, .bookUpdate extremeUpdate, { bookUpdatesCached := extremeUpdate }) := by
  apply parse_write
  exact extremeUpdate_fits

section
variable (parser : TestMarketDataParser)

/-- What a parser tells the handler. -/
def told : IMarketDataParser StdString := fun message marketDataItem =>
  let (result, marketDataItem, _) := parser.parse message marketDataItem
  (result, marketDataItem)

/-- A parser that has not read anything. -/
def textParser : IMarketDataParser StdString := told {}

/-- The handler and the parser it refers to, which keeps what it has read last. -/
def onText (parts : MarketDataMessageHandler × TestMarketDataParser) (message : StdString) :
    MarketDataMessageHandler × TestMarketDataParser :=
  (onMessage (told parts.2) parts.1 message, (parts.2.parse message .monostate).2.2)

theorem told_described {message : StdString} {update : BookUpdate} (described : Describes message update) :
    told parser message .monostate = (.success, .bookUpdate update) := by
  rw [told, TestMarketDataParser.parse, parsed_of_describes described]
  rfl

/-- What has been read before is never told. -/
theorem told_same : told parser = textParser := by
  funext message marketDataItem
  rw [textParser, told, told, TestMarketDataParser.parse, TestMarketDataParser.parse, parseBookUpdate, parseBookUpdate]
  by_cases empty : message.isEmpty
  · rw [if_pos empty, if_pos empty]
    rfl
  · rw [if_neg empty, if_neg empty]

theorem handled_texts (handler : MarketDataMessageHandler) (texts : List StdString) :
    (Runs.after onText (handler, parser) texts).1 = Runs.after (onMessage textParser) handler texts := by
  have moves : ∀ (parts : MarketDataMessageHandler × TestMarketDataParser) handler message,
      parts.1 = handler → (onText parts message).1 = onMessage textParser handler message := by
    rintro parts _ message rfl
    rw [onText, told_same]
  exact Runs.related moves rfl texts

end

/-- The updates that texts describe. What describes none may stand between them. -/
inductive Carries : List StdString → List BookUpdate → Prop
  | nil : Carries [] []
  | update {text : StdString} {update : BookUpdate} {texts : List StdString} {updates : List BookUpdate}
      (described : Describes text update) (later : Carries texts updates) :
      Carries (text :: texts) (update :: updates)
  | noise {text : StdString} {texts : List StdString} {updates : List BookUpdate}
      (undescribed : ∀ update, ¬ Describes text update) (later : Carries texts updates) :
      Carries (text :: texts) updates

theorem carries_written {updates : List BookUpdate} (fits : ∀ update ∈ updates, LevelsFit update) :
    Carries (updates.map write) updates := by
  induction updates with
  | nil => exact .nil
  | cons update rest ih =>
    apply Carries.update
    · exact write_describes (fits update List.mem_cons_self)
    · exact ih fun other member => fits other (List.mem_cons_of_mem update member)

theorem onMessage_metrics {Message : Type u} (parser : IMarketDataParser Message) (handler : MarketDataMessageHandler)
    (message : Message) :
    (onMessage parser handler message).metrics =
      handler.metrics.increment
        (if (parser message .monostate).1 = .success then .marketDataUpdates else .marketDataParseErrors) := by
  rw [onMessage]
  cases parsed : parser message .monostate with
  | mk result item =>
    dsimp only
    by_cases success : result = .success
    · rw [if_neg (not_not_intro success), if_pos success]
      cases item with
      | monostate => rfl
      | trades trades => rfl
      | bookUpdate update =>
        rw [deliver]
        dsimp only [MarketDataMessageHandler.increment]
        split
        next => rfl
        next => rfl
    · rw [if_pos success, if_neg success]
      rfl

theorem told_undescribed {text : StdString} (undescribed : ∀ update, ¬ Describes text update) :
    (textParser text .monostate).1 ≠ .success :=
  ((parse_exact {} text .monostate {}).2.mp undescribed).1

theorem queued_described {text : StdString} {update : BookUpdate} (described : Describes text update) :
    queuedUpdates (textParser text .monostate) = [update].filter (fun update => ¬ update.empty) ∧
    queuedTrades (textParser text .monostate) = [] := by
  have parsed : textParser text .monostate = (.success, .bookUpdate update) := told_described {} described
  rw [parsed, queuedUpdates]
  refine ⟨?_, rfl⟩
  by_cases empty : update.empty
  · rw [if_pos empty, List.filter_cons_of_neg (by simpa using empty), List.filter_nil]
  · rw [if_neg empty, List.filter_cons_of_pos (by simpa using empty), List.filter_nil]

theorem queued_failed {parsed : ParseResult × MarketDataItem} (failed : parsed.1 ≠ .success) :
    queuedUpdates parsed = [] ∧ queuedTrades parsed = [] := by
  rw [queuedUpdates, queuedTrades]
  · exact ⟨rfl, rfl⟩
  · rintro trades rfl
    exact failed rfl
  · rintro update rfl
    exact failed rfl

theorem Carries.queued {texts : List StdString} {updates : List BookUpdate} (carries : Carries texts updates) :
    texts.flatMap (fun text => queuedUpdates (textParser text .monostate)) =
      updates.filter (fun update => ¬ update.empty) ∧
    texts.flatMap (fun text => queuedTrades (textParser text .monostate)) = [] := by
  induction carries with
  | nil => exact ⟨rfl, rfl⟩
  | update described later ih =>
    obtain ⟨queued, traded⟩ := queued_described described
    rw [List.flatMap_cons, List.flatMap_cons, queued, traded, ih.1, ih.2, ← List.filter_append]
    exact ⟨rfl, rfl⟩
  | noise undescribed later ih =>
    obtain ⟨queued, traded⟩ := queued_failed (told_undescribed undescribed)
    rw [List.flatMap_cons, List.flatMap_cons, queued, traded, ih.1, ih.2]
    exact ⟨rfl, rfl⟩

theorem Carries.counted {texts : List StdString} {updates : List BookUpdate} (carries : Carries texts updates)
    (handler : MarketDataMessageHandler) :
    let handled := Runs.after (onMessage textParser) handler texts
    handled.metrics.value .marketDataUpdates = handler.metrics.value .marketDataUpdates + updates.length ∧
    handled.metrics.value .marketDataParseErrors + updates.length =
      handler.metrics.value .marketDataParseErrors + texts.length := by
  induction carries generalizing handler with
  | nil => exact ⟨rfl, rfl⟩
  | @update text update texts updates described later ih =>
    have parsed : textParser text .monostate = (.success, .bookUpdate update) := told_described {} described
    obtain ⟨read, failed⟩ := ih (onMessage textParser handler text)
    rw [onMessage_metrics, parsed, if_pos rfl, Metrics.value_increment] at read failed
    simp only [reduceCtorEq, if_true, if_false] at read failed
    rw [Runs.after_cons, List.length_cons, List.length_cons]
    omega
  | @noise text texts updates undescribed later ih =>
    obtain ⟨read, failed⟩ := ih (onMessage textParser handler text)
    rw [onMessage_metrics, if_neg (told_undescribed undescribed), Metrics.value_increment] at read failed
    simp only [reduceCtorEq, if_true, if_false] at read failed
    rw [Runs.after_cons, List.length_cons]
    omega

/-- Whatever is told between them, and whatever was told before, the updates come
out of their texts one by one, but for those without levels. -/
theorem texts_delivered (handler : MarketDataMessageHandler) (parser : TestMarketDataParser)
    {texts : List StdString} {updates : List BookUpdate} (carries : Carries texts updates) :
    let handled := (Runs.after onText (handler, parser) texts).1
    handled.bookUpdateQueue = handler.bookUpdateQueue ++ updates.filter (fun update => ¬ update.empty) ∧
    handled.tradeQueue = handler.tradeQueue ∧
    handled.metrics.value .marketDataUpdates = handler.metrics.value .marketDataUpdates + updates.length ∧
    handled.metrics.value .marketDataParseErrors + updates.length =
      handler.metrics.value .marketDataParseErrors + texts.length := by
  obtain ⟨queued, traded⟩ := carries.queued
  have updated := Runs.logged (onMessage_queue textParser) handler texts
  have untraded := Runs.logged (onMessage_trades textParser) handler texts
  intro handled
  have same : handled = Runs.after (onMessage textParser) handler texts := handled_texts parser handler texts
  rw [queued] at updated
  rw [traded, List.append_nil] at untraded
  rw [same]
  exact ⟨updated, untraded, carries.counted handler⟩

/-- One field is too few for an update. -/
def shortText : StdString := ['7']

theorem shortText_undescribed : ∀ update, ¬ Describes shortText update := by
  refine (parse_exact {} shortText .monostate {}).2.mpr ⟨?_, rfl⟩
  exact ParseResult.noConfusion

/-- The parser has read the same update before. -/
theorem texts_delivered_noise :
    let handled := (Runs.after onText ({}, { bookUpdatesCached := extremeUpdate })
      [shortText, write extremeUpdate]).1
    handled.bookUpdateQueue = [extremeUpdate] ∧ handled.metrics.value .marketDataParseErrors = 1 := by
  have carries : Carries [shortText, write extremeUpdate] [extremeUpdate] :=
    .noise shortText_undescribed (carries_written (List.forall_mem_singleton.mpr extremeUpdate_fits))
  obtain ⟨queued, _, _, failed⟩ := texts_delivered {} { bookUpdatesCached := extremeUpdate } carries
  exact ⟨queued, Nat.add_right_cancel failed⟩

/-- An application that is fed with texts comes to where one thread gets with the
updates they describe. -/
theorem application_of_texts (config : Config) (snapshot : Snapshot) (turns : List (Turn StdString))
    {updates : List BookUpdate} (carries : Carries (received textParser config snapshot turns) updates)
    (timed : List (Timestamp × BookUpdate))
    (handed : timed.map Prod.snd = updates.filter fun update => ¬ update.empty)
    (rest : AtRest (reached textParser snapshot config turns)) :
    outcome (reached textParser snapshot config turns) = sequential config snapshot timed [] := by
  obtain ⟨queued, traded, _⟩ := texts_delivered {} {} carries
  rw [handled_texts, List.nil_append] at queued
  rw [handled_texts] at traded
  have complete := (application_confluent textParser config snapshot turns timed (handed.trans queued.symm)).2 rest
  rwa [traded] at complete

/-- A text that is no update arrives before the one that is. -/
def textTurns : List (Turn StdString) :=
  .start :: List.replicate 8 .main ++
    [.receive shortText, .receive (write grownBid), .source, .strategy, .bookBuilder 5, .bookBuilder 6, .bookBuilder 7,
      .bookBuilder 8, .strategy, .bookBuilder 9, .recording, .bookBuilder 10, .strategy, .execution, .recording,
      .execution, .recording, .recording, .trade]

theorem application_of_texts_busy :
    outcome (reached textParser evenBook { instrument := 1 } textTurns) =
      sequential { instrument := 1 } evenBook [(0, grownBid)] [] := by
  have rest : AtRest (reached textParser evenBook { instrument := 1 } textTurns) :=
    ⟨rfl, Or.inr ⟨rfl, by decide⟩, ⟨rfl, by decide⟩, ⟨rfl, by decide⟩, ⟨rfl, by decide⟩, ⟨rfl, by decide⟩⟩
  have described : Describes (write grownBid) grownBid := by
    apply write_describes
    intro level member
    cases List.mem_singleton.mp member
    simp [FitsInt64]
  have carries : Carries (received textParser { instrument := 1 } evenBook textTurns) [grownBid] :=
    .noise shortText_undescribed (.update described .nil)
  exact application_of_texts { instrument := 1 } evenBook textTurns carries [(0, grownBid)] rfl rest

end TradingCore.Proofs.TextFeed
