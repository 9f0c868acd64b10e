import TradingCore.Proofs.ConfigLoading

/-! Which configurations come out of files. Whatever file a configuration is loaded
from, a file that spells it out member by member gives it back. -/

namespace TradingCore.Proofs.ConfigWriting
open JsonConfigLoader JsonLibrary ConfigLoading Outcomes

structure DepthFits (orderBook : OrderBookConfig) : Prop where
  depthValue : orderBook.depthValue < 2 ^ 64

structure StrategyFits (strategy : StrategyConfig) : Prop where
  orderQuantity : FitsInt64 strategy.orderQuantity.raw
  thresholdNumerator : FitsInt64 strategy.thresholdNumerator
  thresholdDenominator : FitsInt64 strategy.thresholdDenominator

structure LimitsFit (limits : RiskLimits) : Prop where
  maxOrderQuantity : FitsInt64 limits.maxOrderQuantity.raw
  maxPositionQuantity : FitsInt64 limits.maxPositionQuantity.raw
  maxNotional : FitsInt64 limits.maxNotional.raw

/-- The values are of their types and pass the checks. -/
structure Loadable (config : LoadedConfig) : Prop where
  deep : config.orderBook.depthValue ≠ 0
  orderBook : DepthFits config.orderBook
  valid : isValidStrategyConfig config.strategy
  strategy : StrategyFits config.strategy
  limits : LimitsFit config.riskLimits

section
variable {Json : Type} [JsonLibrary Json]

structure SpellsExchange (json : Json) (exchange : ExchangeConfig) : Prop where
  name : (find json "name").bind text = some exchange.name
  marketDataEndpoint : (find json "marketDataEndpoint").bind text = some exchange.marketDataEndpoint
  executionEndpoint : (find json "executionEndpoint").bind text = some exchange.executionEndpoint

/-- Every member is there and stores the value of the configuration. -/
structure Spells (json : Json) (config : LoadedConfig) : Prop where
  instrument : (find json "instrument").bind whole = some ↑config.instrument.toNat
  depthValue : (findIn json "orderBook" "depthValue").bind whole = some ↑config.orderBook.depthValue
  orderQuantity : (findIn json "strategy" "orderQuantity").bind whole = some config.strategy.orderQuantity.raw
  thresholdNumerator :
    (findIn json "strategy" "thresholdNumerator").bind whole = some config.strategy.thresholdNumerator
  thresholdDenominator :
    (findIn json "strategy" "thresholdDenominator").bind whole = some config.strategy.thresholdDenominator
  exchanges : List.Forall₂ SpellsExchange (exchangesOf json) config.exchanges
  enabled : (findIn json "recording" "enabled").bind boolean = some config.recording.enabled
  directory : (findIn json "recording" "directory").bind text = some config.recording.directory
  maxOrderQuantity : (findIn json "risk" "maxOrderQuantity").bind whole = some config.riskLimits.maxOrderQuantity.raw
  maxPositionQuantity :
    (findIn json "risk" "maxPositionQuantity").bind whole = some config.riskLimits.maxPositionQuantity.raw
  maxNotional : (findIn json "risk" "maxNotional").bind whole = some config.riskLimits.maxNotional.raw

section
variable {T : Type} {found : Option Json} {json : Json} {key : String}

theorem whole_of_stored {value : Int} (stored : found.bind whole = some value) : Whole found := by
  rintro json rfl
  rw [Option.bind_some] at stored
  rw [stored]
  rfl

theorem number_of_stored {value : Int} (stored : found.bind whole = some value) (absent : Int) :
    number found absent = value := by
  rw [number, stored, Option.getD_some]

theorem getDepth_small {value : Nat} (read : getDepth json = .ok value) : value < 2 ^ 64 := by
  obtain ⟨size, _, same⟩ := bind_eq_ok_iff.mp read
  cases same
  exact size.toNat_lt

theorem getValue_fits {value : Int} (read : getValue json = .ok value) : FitsInt64 value := by
  obtain ⟨number, _, same⟩ := bind_eq_ok_iff.mp read
  cases same
  exact ⟨number.le_toInt, number.toInt_lt⟩

/-- What holds of all that is read from a member and of what stands for one that is
absent. -/
theorem member_holds (holds : T → Prop) {get : Json → Except JsonException T} {absent value : T}
    (each : ∀ {found value}, get found = .ok value → holds value) (otherwise : holds absent)
    (read : member json key get absent = .ok value) : holds value := by
  rw [member] at read
  split at read
  next =>
    obtain ⟨found, _, read⟩ := bind_eq_ok_iff.mp read
    exact each read
  next =>
    cases read
    exact otherwise

theorem member_text [LawfulJson Json] {value absent : String} (stored : (find json key).bind text = some value) :
    member json key getString absent = .ok value := by
  obtain ⟨found, here, written⟩ := Option.bind_eq_some_iff.mp stored
  rw [member_eq, here, Option.elim_some, LawfulJson.getString_text, written]
  rfl

theorem member_boolean [LawfulJson Json] {value absent : Bool} (stored : (find json key).bind boolean = some value) :
    member json key getBool absent = .ok value := by
  obtain ⟨found, here, written⟩ := Option.bind_eq_some_iff.mp stored
  rw [member_eq, here, Option.elim_some, LawfulJson.getBool_boolean, written]
  rfl

end

section
variable {json : Json} {config : LoadedConfig}

theorem readOrderBook_fits {orderBook : OrderBookConfig} (read : readOrderBook json = .ok orderBook) :
    DepthFits orderBook := by
  obtain ⟨depthValue, member, same⟩ := bind_eq_ok_iff.mp read
  cases same
  exact ⟨member_holds (· < 2 ^ 64) getDepth_small (by decide) member⟩

theorem readStrategy_fits {strategy : StrategyConfig} (read : readStrategy json = .ok strategy) :
    StrategyFits strategy := by
  simp only [readStrategy, bind_eq_ok_iff] at read
  obtain ⟨orderQuantity, first, thresholdNumerator, second, thresholdDenominator, third, same⟩ := read
  cases same
  exact {
    orderQuantity := member_holds FitsInt64 getValue_fits (by decide) first
    thresholdNumerator := member_holds FitsInt64 getValue_fits (by decide) second
    thresholdDenominator := member_holds FitsInt64 getValue_fits (by decide) third }

theorem readRisk_fits {limits : RiskLimits} (read : readRisk json = .ok limits) : LimitsFit limits := by
  simp only [readRisk, bind_eq_ok_iff] at read
  obtain ⟨maxOrderQuantity, first, maxPositionQuantity, second, maxNotional, third, same⟩ := read
  cases same
  exact {
    maxOrderQuantity := member_holds FitsInt64 getValue_fits (by decide) first
    maxPositionQuantity := member_holds FitsInt64 getValue_fits (by decide) second
    maxNotional := member_holds FitsInt64 getValue_fits (by decide) third }

theorem loadable_of_load {file : ConfigFile Json} (loaded : load file = .ok config) : Loadable config := by
  simp only [load, bind_eq_ok_iff, caught_eq_ok_iff, refuseIf_eq_ok_iff] at loaded
  obtain ⟨_, _, json, _, _, _, _, _, orderBook, first, _, deep, strategy, second, _, valid, _, _, _, _, limits, third,
    same⟩ := loaded
  cases same
  exact {
    deep := deep
    orderBook := member_holds DepthFits readOrderBook_fits ⟨by decide⟩ first
    valid := not_not.mp valid
    strategy := member_holds StrategyFits readStrategy_fits ⟨by decide, by decide, by decide⟩ second
    limits := member_holds LimitsFit readRisk_fits ⟨by decide, by decide, by decide⟩ third }

theorem Spells.whole (spells : Spells json config) : WholeNumbers json where
  instrument := whole_of_stored spells.instrument
  depthValue := whole_of_stored spells.depthValue
  strategy := by
    intro key member
    simp only [List.mem_cons, List.not_mem_nil, or_false] at member
    rcases member with rfl | rfl | rfl
    · exact whole_of_stored spells.orderQuantity
    · exact whole_of_stored spells.thresholdNumerator
    · exact whole_of_stored spells.thresholdDenominator
  risk := by
    intro key member
    simp only [List.mem_cons, List.not_mem_nil, or_false] at member
    rcases member with rfl | rfl | rfl
    · exact whole_of_stored spells.maxOrderQuantity
    · exact whole_of_stored spells.maxPositionQuantity
    · exact whole_of_stored spells.maxNotional

theorem Spells.converted (spells : Spells json config) (loadable : Loadable config) :
    converted json = config.toConfig := by
  have instrument : Written.instrument json = config.instrument.toNat := number_of_stored spells.instrument _
  have depthValue : Written.depthValue json = config.orderBook.depthValue := number_of_stored spells.depthValue _
  have orderQuantity : Written.orderQuantity json = config.strategy.orderQuantity.raw :=
    number_of_stored spells.orderQuantity _
  have thresholdNumerator : Written.thresholdNumerator json = config.strategy.thresholdNumerator :=
    number_of_stored spells.thresholdNumerator _
  have thresholdDenominator : Written.thresholdDenominator json = config.strategy.thresholdDenominator :=
    number_of_stored spells.thresholdDenominator _
  have maxOrderQuantity : Written.maxOrderQuantity json = config.riskLimits.maxOrderQuantity.raw :=
    number_of_stored spells.maxOrderQuantity _
  have maxPositionQuantity : Written.maxPositionQuantity json = config.riskLimits.maxPositionQuantity.raw :=
    number_of_stored spells.maxPositionQuantity _
  have maxNotional : Written.maxNotional json = config.riskLimits.maxNotional.raw :=
    number_of_stored spells.maxNotional _
  have sameInstrument : UInt32.ofInt config.instrument.toNat = config.instrument := by
    have small := config.instrument.toNat_lt
    apply UInt32.toNat.inj
    exact Int.ofNat_inj.mp ((toUInt32_eq_iff _).mpr (by omega))
  have sameDepth : toSize config.orderBook.depthValue = config.orderBook.depthValue := by
    have small : config.orderBook.depthValue < 2 ^ 64 := loadable.orderBook.depthValue
    rw [toSize_eq]
    omega
  rw [ConfigLoading.converted, instrument, depthValue, orderQuantity, thresholdNumerator, thresholdDenominator,
    maxOrderQuantity, maxPositionQuantity, maxNotional, sameInstrument, sameDepth,
    toInt64_of_fits loadable.strategy.orderQuantity, toInt64_of_fits loadable.strategy.thresholdNumerator,
    toInt64_of_fits loadable.strategy.thresholdDenominator, toInt64_of_fits loadable.limits.maxOrderQuantity,
    toInt64_of_fits loadable.limits.maxPositionQuantity, toInt64_of_fits loadable.limits.maxNotional]

variable [LawfulJson Json]

theorem SpellsExchange.read {exchange : ExchangeConfig} (spells : SpellsExchange json exchange) :
    readExchange json = .ok exchange := by
  rw [readExchange]
  dsimp only
  rw [member_text spells.name, member_text spells.marketDataEndpoint, member_text spells.executionEndpoint]
  rfl

theorem Spells.readExchanges (spells : Spells json config) :
    member json "exchanges" readExchanges [] = .ok config.exchanges := by
  rw [member_exchanges]
  have each := spells.exchanges
  generalize exchangesOf json = elements, config.exchanges = exchanges at each ⊢
  induction each with
  | nil => rfl
  | cons spelled _ ih =>
    rw [List.mapM_cons, spelled.read, ih]
    rfl

theorem Spells.readRecording (spells : Spells json config) :
    member json "recording" readRecording {} = .ok config.recording := by
  have enabled := spells.enabled
  have directory := spells.directory
  rw [member_eq]
  cases found : find json "recording" with
  | none =>
    rw [findIn_none found] at enabled
    cases enabled
  | some inner =>
    rw [findIn_some found] at enabled directory
    rw [Option.elim_some, JsonConfigLoader.readRecording]
    dsimp only
    rw [member_boolean enabled, member_text directory]
    rfl

theorem Spells.load {file : ConfigFile Json} (spells : Spells json config) (holds : Holds file json)
    (loadable : Loadable config) : load file = .ok config := by
  apply (load_eq_ok_iff holds spells.whole).mpr
  rw [spells.converted loadable]
  exact ⟨⟨loadable.deep, loadable.valid⟩, config.exchanges, config.recording, spells.readExchanges,
    spells.readRecording, rfl⟩

/-- Whatever file a configuration comes out of, its values are of their types and
pass the checks; and every file that spells out a configuration of this kind gives
it back. -/
theorem loadable_exact (config : LoadedConfig) :
    (∀ file : ConfigFile Json, load file = .ok config → Loadable config) ∧
    ∀ (file : ConfigFile Json) (json : Json), Holds file json → Spells json config →
      (load file = .ok config ↔ Loadable config) :=
  ⟨fun _ => loadable_of_load, fun _ _ holds spells => ⟨loadable_of_load, spells.load holds⟩⟩

end

end

def writeSize (value : Nat) : JsonValue := .numberUnsigned (UInt64.ofNat value)

def writeInt64 (value : Int) : JsonValue := .numberInteger (Int64.ofInt value)

def writeOrderBook (config : OrderBookConfig) : JsonValue := .object [("depthValue", writeSize config.depthValue)]

def writeStrategy (config : StrategyConfig) : JsonValue :=
  .object [
    ("orderQuantity", writeInt64 config.orderQuantity.raw),
    ("thresholdNumerator", writeInt64 config.thresholdNumerator),
    ("thresholdDenominator", writeInt64 config.thresholdDenominator)]

def writeExchange (exchange : ExchangeConfig) : JsonValue :=
  .object [
    ("name", .string exchange.name),
    ("marketDataEndpoint", .string exchange.marketDataEndpoint),
    ("executionEndpoint", .string exchange.executionEndpoint)]

def writeRecording (config : RecordingConfig) : JsonValue :=
  .object [("enabled", .boolean config.enabled), ("directory", .string config.directory)]

def writeRisk (limits : RiskLimits) : JsonValue :=
  .object [
    ("maxOrderQuantity", writeInt64 limits.maxOrderQuantity.raw),
    ("maxPositionQuantity", writeInt64 limits.maxPositionQuantity.raw),
    ("maxNotional", writeInt64 limits.maxNotional.raw)]

def write (config : LoadedConfig) : JsonValue :=
  .object [
    ("instrument", writeSize config.instrument.toNat),
    ("orderBook", writeOrderBook config.orderBook),
    ("strategy", writeStrategy config.strategy),
    ("exchanges", .array (config.exchanges.map writeExchange)),
    ("recording", writeRecording config.recording),
    ("risk", writeRisk config.riskLimits)]

theorem size_written {value : Nat} (small : value < 2 ^ 64) : whole (writeSize value) = some (value : Int) :=
  congrArg (fun value : Nat => some (value : Int)) (UInt64.toNat_ofNat_of_lt' small)

theorem int64_written {value : Int} (fits : FitsInt64 value) : whole (writeInt64 value) = some value :=
  congrArg some (Int64.toInt_ofInt_of_le fits.1 fits.2)

/-- Such a file can be written for each of them. -/
theorem write_spells {config : LoadedConfig} (loadable : Loadable config) : Spells (write config) config where
  instrument := size_written (Nat.lt_of_lt_of_le config.instrument.toNat_lt (by decide))
  depthValue := size_written loadable.orderBook.depthValue
  orderQuantity := int64_written loadable.strategy.orderQuantity
  thresholdNumerator := int64_written loadable.strategy.thresholdNumerator
  thresholdDenominator := int64_written loadable.strategy.thresholdDenominator
  exchanges := by
    show List.Forall₂ SpellsExchange (config.exchanges.map writeExchange) config.exchanges
    induction config.exchanges with
    | nil => exact .nil
    | cons exchange rest ih => exact .cons ⟨rfl, rfl, rfl⟩ ih
  enabled := rfl
  directory := rfl
  maxOrderQuantity := int64_written loadable.limits.maxOrderQuantity
  maxPositionQuantity := int64_written loadable.limits.maxPositionQuantity
  maxNotional := int64_written loadable.limits.maxNotional

def binanceOnly : LoadedConfig where
  instrument := 42
  exchanges := [{ name := "binance", marketDataEndpoint := "wss://market", executionEndpoint := "wss://orders" }]

theorem loadable_exact_binance : load { parsed := .ok (write binanceOnly) } = .ok binanceOnly := by
  have loadable : Loadable binanceOnly :=
    ⟨by decide, ⟨by decide⟩, by decide, ⟨by decide, by decide, by decide⟩, ⟨by decide, by decide, by decide⟩⟩
  have holds : Holds { parsed := .ok (write binanceOnly) } (write binanceOnly) := ⟨rfl, rfl, Or.inr rfl⟩
  exact ((loadable_exact binanceOnly).2 _ _ holds (write_spells loadable)).mpr loadable

end TradingCore.Proofs.ConfigWriting
