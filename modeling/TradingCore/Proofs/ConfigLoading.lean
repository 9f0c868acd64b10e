import TradingCore.Config.JsonValue
import TradingCore.Foundation.Outcomes

/-! The loaded configuration against the numbers in the file. Every number is
converted before anything is checked, and only the thresholds and a depth of
zero are checked; what wraps around elsewhere is accepted. -/

namespace TradingCore.Proofs.ConfigLoading
open JsonConfigLoader JsonLibrary Outcomes

variable {Json : Type} [JsonLibrary Json]

def find (json : Json) (key : String) : Option Json :=
  if contains json key then (valueAt json key).toOption else none

def findIn (json : Json) (part key : String) : Option Json := (find json part).bind (find · key)

/-- What the loop over the exchanges visits. -/
def exchangesOf (json : Json) : List Json := (find json "exchanges").elim [] elements

/-- The number in the file, or what stands for one that is absent. -/
def number (found : Option Json) (absent : Int) : Int := (found.bind whole).getD absent

namespace Written
variable (json : Json)

def instrument : Int := number (find json "instrument") ({} : Config).instrument.toNat
def depthValue : Int := number (findIn json "orderBook" "depthValue") ({} : OrderBookConfig).depthValue
def orderQuantity : Int := number (findIn json "strategy" "orderQuantity") ({} : StrategyConfig).orderQuantity.raw
def thresholdNumerator : Int :=
  number (findIn json "strategy" "thresholdNumerator") ({} : StrategyConfig).thresholdNumerator
def thresholdDenominator : Int :=
  number (findIn json "strategy" "thresholdDenominator") ({} : StrategyConfig).thresholdDenominator
def maxOrderQuantity : Int := number (findIn json "risk" "maxOrderQuantity") ({} : RiskLimits).maxOrderQuantity.raw
def maxPositionQuantity : Int :=
  number (findIn json "risk" "maxPositionQuantity") ({} : RiskLimits).maxPositionQuantity.raw
def maxNotional : Int := number (findIn json "risk" "maxNotional") ({} : RiskLimits).maxNotional.raw

end Written

def Whole (found : Option Json) : Prop := ∀ value, found = some value → (whole value).isSome

/-- The recognised numeric fields hold whole numbers where they are there. -/
structure WholeNumbers (json : Json) : Prop where
  instrument : Whole (find json "instrument")
  depthValue : Whole (findIn json "orderBook" "depthValue")
  strategy : ∀ key ∈ ["orderQuantity", "thresholdNumerator", "thresholdDenominator"],
    Whole (findIn json "strategy" key)
  risk : ∀ key ∈ ["maxOrderQuantity", "maxPositionQuantity", "maxNotional"], Whole (findIn json "risk" key)

/-- The configuration holds the numbers of the file, and sound ones. -/
structure ExactlyLoaded (json : Json) (config : LoadedConfig) : Prop where
  instrument : (config.instrument.toNat : Int) = Written.instrument json
  depthValue : (config.orderBook.depthValue : Int) = Written.depthValue json
  orderQuantity : config.strategy.orderQuantity.raw = Written.orderQuantity json
  thresholdNumerator : config.strategy.thresholdNumerator = Written.thresholdNumerator json
  thresholdDenominator : config.strategy.thresholdDenominator = Written.thresholdDenominator json
  maxOrderQuantity : config.riskLimits.maxOrderQuantity.raw = Written.maxOrderQuantity json
  maxPositionQuantity : config.riskLimits.maxPositionQuantity.raw = Written.maxPositionQuantity json
  maxNotional : config.riskLimits.maxNotional.raw = Written.maxNotional json
  depth : 0 < config.orderBook.depthValue
  threshold : isValidStrategyConfig config.strategy

def Text (found : Option Json) : Prop := ∀ value, found = some value → (text value).isSome

/-- The texts and the switch of the file are of their types. -/
structure Readable (json : Json) : Prop where
  exchanges : ∀ exchange ∈ exchangesOf json, ∀ key ∈ ["name", "marketDataEndpoint", "executionEndpoint"],
    Text (find exchange key)
  enabled : ∀ value, findIn json "recording" "enabled" = some value → (boolean value).isSome
  directory : Text (findIn json "recording" "directory")

/-- What the loader refuses whatever the other numbers are. -/
def Refused (json : Json) : Prop :=
  Written.depthValue json = 0 ∨
  ¬ (0 < Written.thresholdDenominator json ∧ Written.thresholdDenominator json < 2 ^ 63 ∧
    0 ≤ Written.thresholdNumerator json ∧
    Written.thresholdNumerator json ≤ Written.thresholdDenominator json) ∨
  ¬ Readable json

/-- The unchecked numbers are values of the types they are stored in. -/
structure Representable (json : Json) : Prop where
  instrument : 0 ≤ Written.instrument json ∧ Written.instrument json < 2 ^ 32
  depthValue : 0 ≤ Written.depthValue json
  orderQuantity : Written.orderQuantity json < 2 ^ 63
  maxOrderQuantity : Written.maxOrderQuantity json < 2 ^ 63
  maxPositionQuantity : Written.maxPositionQuantity json < 2 ^ 63
  maxNotional : Written.maxNotional json < 2 ^ 63

theorem findIn_none {json : Json} {part : String} (absent : find json part = none) :
    findIn json part = fun _ => none := by
  funext key
  rw [findIn, absent, Option.bind_none]

theorem findIn_some {json inner : Json} {part : String} (found : find json part = some inner) :
    findIn json part = find inner := by
  funext key
  rw [findIn, found, Option.bind_some]

/-- The `static_cast` to `size_t`. -/
def toSize (value : Int) : Nat := (UInt64.ofInt value).toNat

theorem getDepth_whole [LawfulJson Json] (json : Json) (value : Int) (stored : whole json = some value) :
    getDepth json = .ok (toSize value) := by
  rw [getDepth, LawfulJson.getSize_whole json value stored]
  rfl

theorem getValue_whole [LawfulJson Json] (json : Json) (value : Int) (stored : whole json = some value) :
    getValue json = .ok (toInt64 value) := by
  have same : (Int64.ofInt value).toInt = toInt64 value := Int64.toInt_ofInt
  rw [getValue, LawfulJson.getInt64_whole json value stored, ← same]
  rfl

section
variable {T : Type} {found : Option Json} {json : Json} {key : String}

/-- What is stored has 64 bits, with or without a sign. -/
theorem number_range [LawfulJson Json] {absent : Int} (stored : -2 ^ 63 ≤ absent ∧ absent < 2 ^ 64) :
    -2 ^ 63 ≤ number found absent ∧ number found absent < 2 ^ 64 := by
  rw [number]
  cases value : found.bind whole with
  | none => exact stored
  | some number =>
    obtain ⟨json, _, stored⟩ := Option.bind_eq_some_iff.mp value
    exact LawfulJson.whole_range json number stored

variable [LawfulJson Json]

/-- A member is read from what is found under its key. -/
theorem member_eq (json : Json) (key : String) (get : Json → Except JsonException T) (value : T) :
    member json key get value = (find json key).elim (.ok value) get := by
  rw [member, find]
  split
  next contained =>
    obtain ⟨found, held⟩ := LawfulJson.valueAt_contained json key contained
    rw [held]
    rfl
  next => rfl

theorem member_number {get : Json → Except JsonException T} {cast : Int → T}
    (reads : ∀ json value, whole json = some value → get json = .ok (cast value)) (absent : Int) {value : T}
    (kept : cast absent = value) (whole : Whole (find json key)) :
    member json key get value = .ok (cast (number (find json key) absent)) := by
  rw [member_eq, number, ← kept]
  cases found : find json key with
  | none => rfl
  | some json =>
    obtain ⟨number, stored⟩ := Option.isSome_iff_exists.mp (whole json found)
    rw [Option.elim_some, Option.bind_some, stored, Option.getD_some]
    exact reads json number stored

theorem returns_member_iff {get : Json → Except JsonException T} {value : T} :
    Returns (member json key get value) ↔ ∀ found, find json key = some found → Returns (get found) := by
  rw [member_eq]
  cases find json key with
  | none => exact iff_of_true ⟨value, rfl⟩ (fun _ none => by cases none)
  | some found =>
    constructor
    · intro returns other same
      cases same
      exact returns
    · intro returns
      exact returns found rfl

omit [JsonLibrary Json] [LawfulJson Json] in
theorem returns_elim_iff {value : Option T} {error : JsonException} :
    Returns (value.elim (.error error) .ok : Except JsonException T) ↔ value.isSome := by
  cases value with
  | none => exact iff_of_false (fun returns => nomatch returns.choose_spec) nofun
  | some value => exact iff_of_true ⟨value, rfl⟩ rfl

theorem returns_text_iff {value : String} : Returns (member json key getString value) ↔ Text (find json key) := by
  apply returns_member_iff.trans
  apply forall₂_congr
  intro found _
  rw [LawfulJson.getString_text]
  exact returns_elim_iff

theorem returns_boolean_iff {value : Bool} :
    Returns (member json key getBool value) ↔ ∀ found, find json key = some found → (boolean found).isSome := by
  apply returns_member_iff.trans
  apply forall₂_congr
  intro found _
  rw [LawfulJson.getBool_boolean]
  exact returns_elim_iff

theorem caught_eq_ok_iff {result : Except JsonException T} {value : T} :
    caught result = .ok value ↔ result = .ok value := by
  cases result with
  | ok other => rw [caught, Except.ok.injEq, Except.ok.injEq]
  | error exception =>
    cases exception <;> exact iff_of_false (fun same => by cases same) (fun same => by cases same)

theorem refuseIf_eq_ok_iff {failed : Prop} [Decidable failed] {error : Error} {done : Unit} :
    refuseIf failed error = .ok done ↔ ¬ failed := by
  rw [refuseIf]
  split
  next holds => exact iff_of_false (fun same => by cases same) (not_not_intro holds)
  next absent => exact iff_of_true rfl absent

end

variable {json : Json} [LawfulJson Json]

theorem readOrderBook_eq (whole : Whole (find json "depthValue")) :
    readOrderBook json = .ok { depthValue := toSize (number (find json "depthValue") 500) } := by
  apply bind_eq_ok_iff.mpr
  exact ⟨_, member_number getDepth_whole 500 rfl whole, rfl⟩

theorem readStrategy_eq
    (whole : ∀ key ∈ ["orderQuantity", "thresholdNumerator", "thresholdDenominator"], Whole (find json key)) :
    readStrategy json = .ok {
      orderQuantity := ⟨toInt64 (number (find json "orderQuantity") 100000000)⟩
      thresholdNumerator := toInt64 (number (find json "thresholdNumerator") 7)
      thresholdDenominator := toInt64 (number (find json "thresholdDenominator") 10) } := by
  apply bind_eq_ok_iff.mpr
  refine ⟨_, member_number getValue_whole 100000000 rfl (whole "orderQuantity" (by decide)), ?_⟩
  apply bind_eq_ok_iff.mpr
  refine ⟨_, member_number getValue_whole 7 rfl (whole "thresholdNumerator" (by decide)), ?_⟩
  apply bind_eq_ok_iff.mpr
  exact ⟨_, member_number getValue_whole 10 rfl (whole "thresholdDenominator" (by decide)), rfl⟩

theorem readRisk_eq
    (whole : ∀ key ∈ ["maxOrderQuantity", "maxPositionQuantity", "maxNotional"], Whole (find json key)) :
    readRisk json = .ok {
      maxOrderQuantity := ⟨toInt64 (number (find json "maxOrderQuantity") 0)⟩
      maxPositionQuantity := ⟨toInt64 (number (find json "maxPositionQuantity") 0)⟩
      maxNotional := ⟨toInt64 (number (find json "maxNotional") 0)⟩ } := by
  apply bind_eq_ok_iff.mpr
  refine ⟨_, member_number getValue_whole 0 rfl (whole "maxOrderQuantity" (by decide)), ?_⟩
  apply bind_eq_ok_iff.mpr
  refine ⟨_, member_number getValue_whole 0 rfl (whole "maxPositionQuantity" (by decide)), ?_⟩
  apply bind_eq_ok_iff.mpr
  exact ⟨_, member_number getValue_whole 0 rfl (whole "maxNotional" (by decide)), rfl⟩

theorem returns_readExchange_iff :
    Returns (readExchange json) ↔
      ∀ key ∈ ["name", "marketDataEndpoint", "executionEndpoint"], Text (find json key) := by
  apply Iff.trans (returns_bind_iff fun _ => returns_bind_iff fun _ => returns_bind_iff fun _ =>
    iff_of_true ⟨_, rfl⟩ trivial)
  simp [returns_text_iff]

theorem returns_readRecording_iff :
    Returns (readRecording json) ↔
      (∀ value, find json "enabled" = some value → (boolean value).isSome) ∧ Text (find json "directory") := by
  apply Iff.trans (returns_bind_iff fun _ => returns_bind_iff fun _ => iff_of_true ⟨_, rfl⟩ trivial)
  rw [returns_text_iff, and_true, returns_boolean_iff]

theorem member_exchanges (json : Json) :
    member json "exchanges" readExchanges [] = (exchangesOf json).mapM readExchange := by
  rw [member_eq, exchangesOf]
  cases find json "exchanges" with
  | none => rfl
  | some exchanges => rfl

theorem readable_iff :
    Readable json ↔
      Returns (member json "exchanges" readExchanges []) ∧ Returns (member json "recording" readRecording {}) := by
  have recording : Returns (member json "recording" readRecording {}) ↔
      (∀ value, findIn json "recording" "enabled" = some value → (boolean value).isSome) ∧
        Text (findIn json "recording" "directory") := by
    rw [returns_member_iff, findIn, findIn]
    cases find json "recording" with
    | none => exact iff_of_true nofun ⟨nofun, nofun⟩
    | some inner =>
      rw [Option.bind_some, Option.bind_some, ← returns_readRecording_iff]
      exact ⟨fun returns => returns inner rfl, fun returns found same => Option.some.inj same ▸ returns⟩
  rw [member_exchanges, returns_mapM_iff, recording]
  constructor
  · intro readable
    exact ⟨fun exchange member => returns_readExchange_iff.mpr (readable.exchanges exchange member),
      readable.enabled, readable.directory⟩
  · intro returns
    obtain ⟨exchanges, enabled, directory⟩ := returns
    exact ⟨fun exchange member => returns_readExchange_iff.mp (exchanges exchange member), enabled, directory⟩

/-- The numbers of the file after their conversions. -/
def converted (json : Json) : Config where
  instrument := UInt32.ofInt (Written.instrument json)
  strategy :=
    { orderQuantity := ⟨toInt64 (Written.orderQuantity json)⟩
      thresholdNumerator := toInt64 (Written.thresholdNumerator json)
      thresholdDenominator := toInt64 (Written.thresholdDenominator json) }
  orderBook := { depthValue := toSize (Written.depthValue json) }
  riskLimits :=
    { maxOrderQuantity := ⟨toInt64 (Written.maxOrderQuantity json)⟩
      maxPositionQuantity := ⟨toInt64 (Written.maxPositionQuantity json)⟩
      maxNotional := ⟨toInt64 (Written.maxNotional json)⟩ }

theorem orderBook_eq (whole : WholeNumbers json) :
    member json "orderBook" readOrderBook {} = .ok (converted json).orderBook := by
  have whole := whole.depthValue
  rw [member_eq, converted, Written.depthValue]
  cases found : find json "orderBook" with
  | none =>
    rw [findIn_none found]
    rfl
  | some inner =>
    rw [findIn_some found] at whole ⊢
    exact readOrderBook_eq whole

theorem strategy_eq (whole : WholeNumbers json) :
    member json "strategy" readStrategy {} = .ok (converted json).strategy := by
  have whole := whole.strategy
  rw [member_eq, converted, Written.orderQuantity, Written.thresholdNumerator, Written.thresholdDenominator]
  cases found : find json "strategy" with
  | none =>
    rw [findIn_none found]
    rfl
  | some inner =>
    rw [findIn_some found] at whole ⊢
    exact readStrategy_eq whole

theorem riskLimits_eq (whole : WholeNumbers json) :
    member json "risk" readRisk {} = .ok (converted json).riskLimits := by
  have whole := whole.risk
  rw [member_eq, converted, Written.maxOrderQuantity, Written.maxPositionQuantity, Written.maxNotional]
  cases found : find json "risk" with
  | none =>
    rw [findIn_none found]
    rfl
  | some inner =>
    rw [findIn_some found] at whole ⊢
    exact readRisk_eq whole

/-- A file that is open and has been read into a value of the JSON library. -/
structure Holds (file : ConfigFile Json) (json : Json) : Prop where
  isOpen : file.isOpen
  parsed : file.parsed = .ok json
  read : file.good ∨ file.eof

variable {file : ConfigFile Json} {config : LoadedConfig}

/-- The loader returns the converted numbers if the checks pass them and the
texts can be read. -/
theorem load_eq_ok_iff (holds : Holds file json) (whole : WholeNumbers json) :
    load file = .ok config ↔
      ((converted json).orderBook.depthValue ≠ 0 ∧ isValidStrategyConfig (converted json).strategy) ∧
      ∃ exchanges recording, member json "exchanges" readExchanges [] = .ok exchanges ∧
        member json "recording" readRecording {} = .ok recording ∧
        config = { converted json with exchanges, recording } := by
  have instrument : member json "instrument" getUInt32 0 = .ok (converted json).instrument :=
    member_number LawfulJson.getUInt32_whole 0 rfl whole.instrument
  have readable : ¬ (¬ file.good ∧ ¬ file.eof) := by
    have read := holds.read
    tauto
  simp only [load, bind_eq_ok_iff, refuseIf_eq_ok_iff, caught_eq_ok_iff, holds.parsed, holds.isOpen, readable,
    Except.ok.injEq, exists_eq_left', instrument, orderBook_eq whole, strategy_eq whole, riskLimits_eq whole]
  constructor
  · intro loaded
    obtain ⟨_, _, _, _, _, deep, _, valid, _, exchanges, _, recording, same⟩ := loaded
    exact ⟨⟨deep, not_not.mp valid⟩, _, _, exchanges, recording, (Except.ok.inj same).symm⟩
  · intro accepted
    obtain ⟨⟨deep, valid⟩, _, _, exchanges, recording, rfl⟩ := accepted
    exact ⟨(), not_not_intro trivial, (), not_false, (), deep, (), not_not_intro valid, _, exchanges, _, recording, rfl⟩

theorem toUInt32_eq_iff (value : Int) : ((UInt32.ofInt value).toNat : Int) = value ↔ 0 ≤ value ∧ value < 2 ^ 32 := by
  rw [UInt32.ofInt, UInt32.toNat_ofNat']
  omega

theorem toSize_eq (value : Int) : toSize value = (value % 2 ^ 64).toNat := by
  rw [toSize, UInt64.ofInt, UInt64.toNat_ofNat']
  omega

theorem toSize_eq_iff {value : Int} (stored : -2 ^ 63 ≤ value ∧ value < 2 ^ 64) :
    (toSize value : Int) = value ↔ 0 ≤ value := by
  rw [toSize_eq]
  omega

theorem toSize_eq_zero_iff {value : Int} (stored : -2 ^ 63 ≤ value ∧ value < 2 ^ 64) :
    toSize value = 0 ↔ value = 0 := by
  rw [toSize_eq]
  omega

theorem toInt64_eq_iff_less {value : Int} (stored : -2 ^ 63 ≤ value ∧ value < 2 ^ 64) :
    toInt64 value = value ↔ value < 2 ^ 63 := by
  rw [toInt64_eq_iff, FitsInt64]
  exact and_iff_right stored.1

/-- An unsigned number that does not fit turns negative. -/
theorem toInt64_negative {value : Int} (large : 2 ^ 63 ≤ value) (stored : value < 2 ^ 64) : toInt64 value < 0 := by
  have same : toInt64 value = toInt64 (value - 2 ^ 64) := (Int.sub_bmod_right value (2 ^ 64)).symm
  rw [same, toInt64_of_fits ⟨by omega, by omega⟩]
  omega

section
variable (json : Json)

theorem depthValue_range : -2 ^ 63 ≤ Written.depthValue json ∧ Written.depthValue json < 2 ^ 64 :=
  number_range (by decide)

theorem thresholdNumerator_range :
    -2 ^ 63 ≤ Written.thresholdNumerator json ∧ Written.thresholdNumerator json < 2 ^ 64 :=
  number_range (by decide)

theorem thresholdDenominator_range :
    -2 ^ 63 ≤ Written.thresholdDenominator json ∧ Written.thresholdDenominator json < 2 ^ 64 :=
  number_range (by decide)

/-- A threshold that wraps around becomes negative and is never valid. -/
theorem valid_iff :
    isValidStrategyConfig (converted json).strategy ↔
      0 < Written.thresholdDenominator json ∧ Written.thresholdDenominator json < 2 ^ 63 ∧
      0 ≤ Written.thresholdNumerator json ∧ Written.thresholdNumerator json ≤ Written.thresholdDenominator json := by
  have numerator := thresholdNumerator_range json
  have denominator := thresholdDenominator_range json
  rw [isValidStrategyConfig, converted]
  dsimp only
  rcases Int.lt_or_le (Written.thresholdDenominator json) (2 ^ 63) with fits | large
  · rw [toInt64_of_fits ⟨denominator.1, fits⟩]
    rcases Int.lt_or_le (Written.thresholdNumerator json) (2 ^ 63) with fits' | large
    · rw [toInt64_of_fits ⟨numerator.1, fits'⟩]
      omega
    · have negative := toInt64_negative large numerator.2
      omega
  · have negative := toInt64_negative large denominator.2
    omega

theorem refused_iff :
    Refused json ↔
      ¬ (((converted json).orderBook.depthValue ≠ 0 ∧ isValidStrategyConfig (converted json).strategy) ∧
        Readable json) := by
  have depth : (converted json).orderBook.depthValue = 0 ↔ Written.depthValue json = 0 :=
    toSize_eq_zero_iff (depthValue_range json)
  rw [Refused, ← valid_iff, ← depth]
  tauto

end

/-- Of an accepted file, the configuration holds the very numbers if those that
are not checked fit. -/
theorem exactlyLoaded_iff {exchanges : List ExchangeConfig} {recording : RecordingConfig}
    (deep : (converted json).orderBook.depthValue ≠ 0) (valid : isValidStrategyConfig (converted json).strategy) :
    ExactlyLoaded json { converted json with exchanges, recording } ↔ Representable json := by
  obtain ⟨_, fits, _, within⟩ := (valid_iff json).mp valid
  constructor
  · intro exact
    exact {
      instrument := (toUInt32_eq_iff _).mp exact.instrument
      depthValue := (toSize_eq_iff (depthValue_range json)).mp exact.depthValue
      orderQuantity := (toInt64_eq_iff_less (number_range (by decide))).mp exact.orderQuantity
      maxOrderQuantity := (toInt64_eq_iff_less (number_range (by decide))).mp exact.maxOrderQuantity
      maxPositionQuantity := (toInt64_eq_iff_less (number_range (by decide))).mp exact.maxPositionQuantity
      maxNotional := (toInt64_eq_iff_less (number_range (by decide))).mp exact.maxNotional }
  · intro representable
    exact {
      instrument := (toUInt32_eq_iff _).mpr representable.instrument
      depthValue := (toSize_eq_iff (depthValue_range json)).mpr representable.depthValue
      orderQuantity := (toInt64_eq_iff_less (number_range (by decide))).mpr representable.orderQuantity
      thresholdNumerator := (toInt64_eq_iff_less (thresholdNumerator_range json)).mpr (by omega)
      thresholdDenominator := (toInt64_eq_iff_less (thresholdDenominator_range json)).mpr fits
      maxOrderQuantity := (toInt64_eq_iff_less (number_range (by decide))).mpr representable.maxOrderQuantity
      maxPositionQuantity := (toInt64_eq_iff_less (number_range (by decide))).mpr representable.maxPositionQuantity
      maxNotional := (toInt64_eq_iff_less (number_range (by decide))).mpr representable.maxNotional
      depth := Nat.pos_of_ne_zero deep
      threshold := valid }

/-- Loading returns the numbers of the file, or an error, exactly when the file
is refused for another reason or its unchecked numbers fit their types. -/
theorem loaded_exactly_iff (holds : Holds file json) (whole : WholeNumbers json) :
    (∀ config, load file = .ok config → ExactlyLoaded json config) ↔ Refused json ∨ Representable json := by
  constructor
  · intro exact
    by_cases refused : Refused json
    · exact Or.inl refused
    · obtain ⟨⟨deep, valid⟩, readable⟩ := not_not.mp (mt (refused_iff json).mpr refused)
      obtain ⟨⟨exchanges, read⟩, recording, written⟩ := readable_iff.mp readable
      have loaded := (load_eq_ok_iff holds whole).mpr ⟨⟨deep, valid⟩, exchanges, recording, read, written, rfl⟩
      exact Or.inr ((exactlyLoaded_iff deep valid).mp (exact _ loaded))
  · intro condition config loaded
    obtain ⟨accepted, exchanges, recording, read, written, rfl⟩ := (load_eq_ok_iff holds whole).mp loaded
    rcases condition with refused | representable
    · have readable : Readable json := readable_iff.mpr ⟨⟨exchanges, read⟩, recording, written⟩
      exact absurd ⟨accepted, readable⟩ ((refused_iff json).mp refused)
    · exact (exactlyLoaded_iff accepted.1 accepted.2).mpr representable

/-- A file with no number but the instrument. -/
def instrumentOnly (instrument : UInt64) : JsonValue := .object [("instrument", .numberUnsigned instrument)]

theorem instrumentOnly_whole (instrument : UInt64) : WholeNumbers (instrumentOnly instrument) where
  instrument := by
    intro value found
    cases found
    rfl
  depthValue := fun _ found => by cases found
  strategy := fun _ _ _ found => by cases found
  risk := fun _ _ _ found => by cases found

/-- An instrument of 33 bits comes out as the instrument 1. -/
theorem instrument_wraps :
    WholeNumbers (instrumentOnly 4294967297) ∧
    load { parsed := .ok (instrumentOnly 4294967297) } = .ok { instrument := 1 } ∧
    ¬ ∀ config, load { parsed := .ok (instrumentOnly 4294967297) } = .ok config →
      ExactlyLoaded (instrumentOnly 4294967297) config := by
  have loaded : load { parsed := .ok (instrumentOnly 4294967297) } = .ok { instrument := 1 } := rfl
  refine ⟨instrumentOnly_whole _, loaded, ?_⟩
  intro exact
  have same := (exact _ loaded).instrument
  revert same
  decide

theorem loaded_exactly_fortyTwo : ExactlyLoaded (instrumentOnly 42) { instrument := 42 } := by
  have loaded : load { parsed := .ok (instrumentOnly 42) } = .ok { instrument := 42 } := rfl
  have representable : Representable (instrumentOnly 42) :=
    ⟨by decide, by decide, by decide, by decide, by decide, by decide⟩
  have holds : Holds { parsed := .ok (instrumentOnly 42) } (instrumentOnly 42) := ⟨rfl, rfl, Or.inr rfl⟩
  exact (loaded_exactly_iff holds (instrumentOnly_whole 42)).mpr (Or.inr representable) _ loaded

/-- A boolean is taken for an instrument, though it is no whole number. -/
example : load { parsed := .ok (JsonValue.object [("instrument", .boolean true)]) } = .ok { instrument := 1 } := rfl

end TradingCore.Proofs.ConfigLoading
