import TradingCore.Config

/-! Loading the configuration from a JSON file. The JSON library is a parameter:
what the loader calls of it, and what is documented of these calls. -/

namespace TradingCore

inductive JsonException where
  | parseError
  | typeError
  | outOfRange
deriving DecidableEq, Repr

/-- What the loader calls of the JSON library, `valueAt` for `at` and a `get` for
each type, and what a value stores if it is a whole number, a text or a boolean. -/
class JsonLibrary (Json : Type) where
  contains : Json → String → Bool
  valueAt : Json → String → Except JsonException Json
  elements : Json → List Json
  getUInt32 : Json → Except JsonException UInt32
  getSize : Json → Except JsonException UInt64
  getInt64 : Json → Except JsonException Int64
  getString : Json → Except JsonException String
  getBool : Json → Except JsonException Bool
  whole : Json → Option Int
  text : Json → Option String
  boolean : Json → Option Bool

/-- Whole numbers are stored in 64 bits, with or without a sign, and `get` is a
`static_cast` of what is stored. -/
class LawfulJson (Json : Type) [library : JsonLibrary Json] : Prop where
  valueAt_contained : ∀ json key, library.contains json key → ∃ value, library.valueAt json key = .ok value
  whole_range : ∀ json value, library.whole json = some value → -2 ^ 63 ≤ value ∧ value < 2 ^ 64
  getUInt32_whole : ∀ json value, library.whole json = some value → library.getUInt32 json = .ok (UInt32.ofInt value)
  getSize_whole : ∀ json value, library.whole json = some value → library.getSize json = .ok (UInt64.ofInt value)
  getInt64_whole : ∀ json value, library.whole json = some value → library.getInt64 json = .ok (Int64.ofInt value)
  getString_text : ∀ json, library.getString json = (library.text json).elim (.error .typeError) .ok
  getBool_boolean : ∀ json, library.getBool json = (library.boolean json).elim (.error .typeError) .ok

inductive Error where
  | fileOpenFailed
  | fileReadFailed
  | invalidFormat
  | invalidConfiguration
deriving DecidableEq, Repr

structure ExchangeConfig where
  name : String := ""
  marketDataEndpoint : String := ""
  executionEndpoint : String := ""
deriving DecidableEq, Repr

structure RecordingConfig where
  enabled : Bool := true
  directory : String := ""
deriving DecidableEq, Repr

/-- The whole configuration, with the parts that only the composition of the
application reads. -/
structure LoadedConfig extends Config where
  exchanges : List ExchangeConfig := []
  recording : RecordingConfig := {}
deriving DecidableEq, Repr

/-- A configuration file: whether it opens, what `json::parse` makes of its
text, and the state of the stream after that. -/
structure ConfigFile (Json : Type) where
  isOpen : Bool := true
  parsed : Except JsonException Json
  good : Bool := false
  eof : Bool := true

namespace JsonConfigLoader
open JsonLibrary

variable {Json : Type} [JsonLibrary Json]

/-- A member that is read if it is there, and otherwise keeps its value. -/
def member {T : Type} (json : Json) (key : String) (get : Json → Except JsonException T) (value : T) :
    Except JsonException T :=
  if contains json key then do get (← valueAt json key) else .ok value

def getDepth (json : Json) : Except JsonException Nat := do return (← getSize json).toNat

/-- The raw value of a price or a quantity, or a plain number. -/
def getValue (json : Json) : Except JsonException Int := do return (← getInt64 json).toInt

def readOrderBook (orderBook : Json) : Except JsonException OrderBookConfig := do
  let config : OrderBookConfig := {}
  let depthValue ← member orderBook "depthValue" getDepth config.depthValue
  return { depthValue }

def readStrategy (strategy : Json) : Except JsonException StrategyConfig := do
  let config : StrategyConfig := {}
  let orderQuantity ← member strategy "orderQuantity" getValue config.orderQuantity.raw
  let thresholdNumerator ← member strategy "thresholdNumerator" getValue config.thresholdNumerator
  let thresholdDenominator ← member strategy "thresholdDenominator" getValue config.thresholdDenominator
  return { orderQuantity := ⟨orderQuantity⟩, thresholdNumerator, thresholdDenominator }

def readExchange (exchangeJson : Json) : Except JsonException ExchangeConfig := do
  let exchange : ExchangeConfig := {}
  let name ← member exchangeJson "name" getString exchange.name
  let marketDataEndpoint ← member exchangeJson "marketDataEndpoint" getString exchange.marketDataEndpoint
  let executionEndpoint ← member exchangeJson "executionEndpoint" getString exchange.executionEndpoint
  return { name, marketDataEndpoint, executionEndpoint }

def readExchanges (exchanges : Json) : Except JsonException (List ExchangeConfig) :=
  (elements exchanges).mapM readExchange

def readRecording (recording : Json) : Except JsonException RecordingConfig := do
  let config : RecordingConfig := {}
  let enabled ← member recording "enabled" getBool config.enabled
  let directory ← member recording "directory" getString config.directory
  return { enabled, directory }

def readRisk (risk : Json) : Except JsonException RiskLimits := do
  let limits : RiskLimits := {}
  let maxOrderQuantity ← member risk "maxOrderQuantity" getValue limits.maxOrderQuantity.raw
  let maxPositionQuantity ← member risk "maxPositionQuantity" getValue limits.maxPositionQuantity.raw
  let maxNotional ← member risk "maxNotional" getValue limits.maxNotional.raw
  return {
    maxOrderQuantity := ⟨maxOrderQuantity⟩
    maxPositionQuantity := ⟨maxPositionQuantity⟩
    maxNotional := ⟨maxNotional⟩ }

/-- The clauses that catch what the library throws. -/
def caught {T : Type} : Except JsonException T → Except Error T
  | .ok value => .ok value
  | .error .parseError => .error .invalidFormat
  | .error .typeError => .error .invalidConfiguration
  | .error .outOfRange => .error .invalidConfiguration

def refuseIf (failed : Prop) [Decidable failed] (error : Error) : Except Error Unit :=
  if failed then .error error else .ok ()

def load (file : ConfigFile Json) : Except Error LoadedConfig := do
  refuseIf (¬ file.isOpen) .fileOpenFailed
  let json ← caught file.parsed
  refuseIf (¬ file.good ∧ ¬ file.eof) .fileReadFailed
  let config : LoadedConfig := {}
  let instrument ← caught (member json "instrument" getUInt32 config.instrument)
  let orderBook ← caught (member json "orderBook" readOrderBook config.orderBook)
  refuseIf (orderBook.depthValue = 0) .invalidConfiguration
  let strategy ← caught (member json "strategy" readStrategy config.strategy)
  refuseIf (¬ isValidStrategyConfig strategy) .invalidConfiguration
  let exchanges ← caught (member json "exchanges" readExchanges config.exchanges)
  let recording ← caught (member json "recording" readRecording config.recording)
  let riskLimits ← caught (member json "risk" readRisk config.riskLimits)
  return { instrument, strategy, orderBook, riskLimits, exchanges, recording }

end JsonConfigLoader

end TradingCore
