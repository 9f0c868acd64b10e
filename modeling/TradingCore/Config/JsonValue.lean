import TradingCore.Config.JsonConfigLoader

/-! A JSON library for all values without a fraction or an exponent. It converts
a boolean to a number of 32 bits, as the one of the source does. -/

namespace TradingCore

/-- An object lists its members once each. -/
inductive JsonValue where
  | null
  | boolean (value : Bool)
  | numberInteger (value : Int64)
  | numberUnsigned (value : UInt64)
  | string (text : String)
  | array (elements : List JsonValue)
  | object (members : List (String × JsonValue))

namespace JsonValue

def find (json : JsonValue) (key : String) : Option JsonValue :=
  match json with
  | object members => members.lookup key
  | _ => none

def valueAt (json : JsonValue) (key : String) : Except JsonException JsonValue :=
  match json with
  | object _ => (json.find key).elim (.error .outOfRange) .ok
  | _ => .error .typeError

/-- What a range-based loop visits: a value that is no container is visited
itself. -/
def elements : JsonValue → List JsonValue
  | null => []
  | array elements => elements
  | object members => members.map (·.2)
  | value => [value]

def whole : JsonValue → Option Int
  | numberInteger value => some value.toInt
  | numberUnsigned value => some value.toNat
  | _ => none

def text : JsonValue → Option String
  | string text => some text
  | _ => none

def asBoolean : JsonValue → Option Bool
  | boolean value => some value
  | _ => none

def get {T : Type} (value : Option T) : Except JsonException T := value.elim (.error .typeError) .ok

def getUInt32 : JsonValue → Except JsonException UInt32
  | boolean value => .ok (if value then 1 else 0)
  | json => get (json.whole.map UInt32.ofInt)

instance : JsonLibrary JsonValue where
  contains json key := (json.find key).isSome
  valueAt := valueAt
  elements := elements
  getUInt32 := getUInt32
  getSize json := get (json.whole.map UInt64.ofInt)
  getInt64 json := get (json.whole.map Int64.ofInt)
  getString json := get json.text
  getBool json := get json.asBoolean
  whole := whole
  text := text
  boolean := asBoolean

instance : LawfulJson JsonValue where
  valueAt_contained := by
    intro json key contained
    cases json with
    | object members =>
      obtain ⟨value, found⟩ := Option.isSome_iff_exists.mp contained
      refine ⟨value, ?_⟩
      show ((object members).find key).elim _ _ = _
      rw [found]
      rfl
    | _ => cases contained
  whole_range := by
    intro json value stored
    cases json with
    | numberInteger number =>
      cases stored
      have below := number.toInt_lt
      exact ⟨number.le_toInt, by omega⟩
    | numberUnsigned number =>
      cases stored
      have below := number.toNat_lt
      omega
    | _ => cases stored
  getUInt32_whole := by
    intro json value stored
    cases json with
    | numberInteger | numberUnsigned =>
      cases stored
      rfl
    | _ => cases stored
  getSize_whole := by
    intro json value stored
    exact congrArg (fun stored => get (stored.map UInt64.ofInt)) stored
  getInt64_whole := by
    intro json value stored
    exact congrArg (fun stored => get (stored.map Int64.ofInt)) stored
  getString_text := fun _ => rfl
  getBool_boolean := fun _ => rfl

end JsonValue

end TradingCore
