import Mathlib.Data.List.TakeWhile
import TradingCore.MarketData.TestMarketDataParser

/-! Which texts the parser takes, and for what. A field is read as a number
exactly if it is a literal of its type, and a message as an update exactly if its
fields describe that update. -/

namespace TradingCore.Proofs.MarketDataText
open Utilities TestMarketDataParser

/-- Digits that stand for a number of the type, behind a minus if it has signs. -/
def Literal (type : IntegerType) (text : StdString) (value : Int) : Prop :=
  (type.lowest ≤ value ∧ value ≤ type.highest) ∧
    ∃ digits : StdString, digits ≠ [] ∧ (∀ ch ∈ digits, ch.isDigit = true) ∧
      (text = digits ∧ value = Nat.ofDigitChars 10 digits 0 ∨
        type.signed = true ∧ text = '-' :: digits ∧ value = -(Nat.ofDigitChars 10 digits 0 : Int))

theorem takeWhile_all {digits : StdString} (all : ∀ ch ∈ digits, ch.isDigit = true) :
    digits.takeWhile Char.isDigit = digits ∧ digits.dropWhile Char.isDigit = [] :=
  ⟨List.takeWhile_eq_self_iff.mpr all, List.dropWhile_eq_nil_iff.mpr all⟩

theorem minus_not_digit {digits : StdString} (all : ∀ ch ∈ digits, ch.isDigit = true) :
    digits.head? ≠ some '-' := by
  intro minus
  cases all '-' (List.mem_of_head? minus)

variable {type : IntegerType} {text : StdString} {value : Int}

theorem fromChars_of_literal (literal : Literal type text value) : fromChars type text = some (value, []) := by
  obtain ⟨⟨above, below⟩, digits, nonempty, all, ⟨rfl, rfl⟩ | ⟨signed, rfl, rfl⟩⟩ := literal
  · obtain ⟨taken, dropped⟩ := takeWhile_all all
    have unsigned : ¬ (type.signed = true ∧ text.head? = some '-') := fun minus => minus_not_digit all minus.2
    have within : ¬ (text = [] ∨ (Nat.ofDigitChars 10 text 0 : Int) < type.lowest ∨
        type.highest < Nat.ofDigitChars 10 text 0) := by
      rintro (empty | low | high)
      · exact nonempty empty
      · omega
      · omega
    simp only [fromChars, unsigned, if_false, taken, dropped, within]
  · obtain ⟨taken, dropped⟩ := takeWhile_all all
    have within : ¬ (digits = [] ∨ -(Nat.ofDigitChars 10 digits 0 : Int) < type.lowest ∨
        type.highest < -(Nat.ofDigitChars 10 digits 0 : Int)) := by
      rintro (empty | low | high)
      · exact nonempty empty
      · omega
      · omega
    simp only [fromChars, signed, List.head?_cons, and_self, if_true, List.tail_cons, taken, dropped, within, if_false]

theorem literal_of_fromChars (read : fromChars type text = some (value, [])) : Literal type text value := by
  simp only [fromChars] at read
  by_cases negative : type.signed = true ∧ text.head? = some '-'
  · simp only [negative, and_self, if_true] at read
    split at read
    next => cases read
    next within =>
      obtain ⟨rfl, dropped⟩ := Prod.mk.inj (Option.some.inj read)
      have all := List.dropWhile_eq_nil_iff.mp dropped
      rw [List.takeWhile_eq_self_iff.mpr all] at within ⊢
      simp only [not_or, Int.not_lt] at within
      obtain ⟨digits, same⟩ := List.head?_eq_some_iff.mp negative.2
      refine ⟨within.2, text.tail, within.1, all, Or.inr ⟨negative.1, ?_, rfl⟩⟩
      rw [same, List.tail_cons]
  · simp only [negative, if_false] at read
    split at read
    next => cases read
    next within =>
      obtain ⟨rfl, dropped⟩ := Prod.mk.inj (Option.some.inj read)
      have all := List.dropWhile_eq_nil_iff.mp dropped
      rw [List.takeWhile_eq_self_iff.mpr all] at within ⊢
      simp only [not_or, Int.not_lt] at within
      exact ⟨within.2, text, within.1, all, Or.inl ⟨rfl, rfl⟩⟩

section
variable {T : Type} {convert : Int → T} {out : T}

theorem parseNumber_of_literal (literal : Literal type text value) :
    parseNumber type convert text out = (true, convert value) := by
  have nonempty : text.isEmpty = false := by
    obtain ⟨_, digits, nonempty, _, ⟨rfl, _⟩ | ⟨_, rfl, _⟩⟩ := literal
    · exact List.isEmpty_eq_false_iff.mpr nonempty
    · rfl
  rw [parseNumber, nonempty, if_neg Bool.false_ne_true, fromChars_of_literal literal]
  rfl

/-- A field is a literal, or it is not read. -/
theorem parseNumber_cases (type : IntegerType) (convert : Int → T) (text : StdString) (out : T) :
    (∃ value, Literal type text value ∧ parseNumber type convert text out = (true, convert value)) ∨
    ∃ left, parseNumber type convert text out = (false, left) := by
  rw [parseNumber]
  split
  next => exact Or.inr ⟨out, rfl⟩
  next =>
    split
    next => exact Or.inr ⟨out, rfl⟩
    next value rest taken =>
      cases rest with
      | nil => exact Or.inl ⟨value, literal_of_fromChars taken, rfl⟩
      | cons ch rest => exact Or.inr ⟨convert value, rfl⟩

end

def sideText : Side → StdString
  | .buy => buyField
  | .sell => sellField

theorem setSide_iff {field : StdString} {side : Side} : setSide field = some side ↔ field = sideText side := by
  rw [setSide]
  split
  next buy =>
    subst buy
    cases side <;> decide
  next other =>
    split
    next sell =>
      subst sell
      cases side <;> decide
    next neither =>
      refine iff_of_false nofun ?_
      cases side with
      | buy => exact other
      | sell => exact neither

/-- Fields that describe levels. What is left at the end is no level. -/
inductive LevelFields : List StdString → List PriceLevelUpdate → Prop
  | done {rest : List StdString} (few : rest.length < 3) : LevelFields rest []
  | level {side : Side} {priceField quantityField : StdString} {price quantity : Int} {rest : List StdString}
      {levels : List PriceLevelUpdate} (readPrice : Literal .int64 priceField price)
      (readQuantity : Literal .int64 quantityField quantity) (later : LevelFields rest levels) :
      LevelFields (sideText side :: priceField :: quantityField :: rest) (⟨side, ⟨price⟩, ⟨quantity⟩⟩ :: levels)

theorem parseLevels_few (bookUpdate : BookUpdate) {fields : List StdString} (few : fields.length < 3) :
    parseLevels bookUpdate fields = (.success, bookUpdate) := by
  rw [parseLevels]
  rintro sideField priceField quantityField rest rfl
  simp only [List.length_cons] at few
  omega

theorem three_fields {fields : List StdString} (many : ¬ fields.length < 3) :
    ∃ first second third rest, fields = first :: second :: third :: rest := by
  cases fields with
  | nil => exact absurd (Nat.succ_pos 2) many
  | cons first rest =>
    cases rest with
    | nil => exact absurd (Nat.lt_of_sub_eq_succ rfl) many
    | cons second rest =>
      cases rest with
      | nil => exact absurd (Nat.lt_of_sub_eq_succ rfl) many
      | cons third rest => exact ⟨first, second, third, rest, rfl⟩

/-- One round of the loop. -/
theorem parseLevels_level (bookUpdate : BookUpdate) (sideField priceField quantityField : StdString)
    (rest : List StdString) (result : BookUpdate) :
    parseLevels bookUpdate (sideField :: priceField :: quantityField :: rest) = (.success, result) ↔
      ∃ side price quantity, sideField = sideText side ∧ Literal .int64 priceField price ∧
        Literal .int64 quantityField quantity ∧
        parseLevels { bookUpdate with updates := bookUpdate.updates ++ [⟨side, ⟨price⟩, ⟨quantity⟩⟩] } rest =
          (.success, result) := by
  constructor
  · intro taken
    rw [parseLevels] at taken
    cases sided : setSide sideField with
    | none =>
      rw [sided] at taken
      cases taken
    | some side =>
      rw [sided] at taken
      obtain ⟨price, readPrice, read⟩ | ⟨left, unread⟩ := parseNumber_cases .int64 id priceField 0
      · rw [read] at taken
        obtain ⟨quantity, readQuantity, read⟩ | ⟨left, unread⟩ := parseNumber_cases .int64 id quantityField 0
        · rw [read] at taken
          exact ⟨side, price, quantity, setSide_iff.mp sided, readPrice, readQuantity, taken⟩
        · rw [unread] at taken
          cases taken
      · rw [unread] at taken
        cases taken
  · rintro ⟨side, price, quantity, rfl, readPrice, readQuantity, later⟩
    rw [parseLevels, setSide_iff.mpr rfl, parseNumber_of_literal readPrice, parseNumber_of_literal readQuantity]
    exact later

/-- The levels are read exactly from the fields that describe them. -/
theorem parseLevels_iff (bookUpdate : BookUpdate) (fields : List StdString) (result : BookUpdate) :
    parseLevels bookUpdate fields = (.success, result) ↔
      ∃ levels, LevelFields fields levels ∧ result = { bookUpdate with updates := bookUpdate.updates ++ levels } := by
  constructor
  · intro taken
    induction size : fields.length using Nat.strongRecOn generalizing fields bookUpdate with
    | ind count ih =>
      by_cases few : fields.length < 3
      · rw [parseLevels_few bookUpdate few] at taken
        refine ⟨[], .done few, ?_⟩
        rw [List.append_nil]
        exact (Prod.mk.inj taken).2.symm
      · obtain ⟨sideField, priceField, quantityField, rest, rfl⟩ : ∃ sideField priceField quantityField rest,
            fields = sideField :: priceField :: quantityField :: rest := three_fields few
        obtain ⟨side, price, quantity, rfl, readPrice, readQuantity, later⟩ := (parseLevels_level ..).mp taken
        have shorter : rest.length < count := by
          rw [← size]
          simp only [List.length_cons]
          omega
        obtain ⟨levels, described, rfl⟩ := ih rest.length shorter _ _ later rfl
        refine ⟨_, .level readPrice readQuantity described, ?_⟩
        simp only [List.append_assoc, List.singleton_append]
  · rintro ⟨levels, described, rfl⟩
    induction described generalizing bookUpdate with
    | done few => rw [parseLevels_few bookUpdate few, List.append_nil]
    | level readPrice readQuantity later ih =>
      refine (parseLevels_level ..).mpr ⟨_, _, _, rfl, readPrice, readQuantity, ?_⟩
      rw [ih]
      simp only [List.append_assoc, List.singleton_append]

/-- A message of at least four fields, each of them a literal of the type of what
it stands for. A time is written with a sign and wraps around. -/
inductive Describes (message : StdString) : BookUpdate → Prop
  | intro {instrumentField firstField lastField timestampField : StdString} {fields : List StdString}
      {instrument first last timestamp : Int} {updates : List PriceLevelUpdate}
      (split : message.splitOn ',' = instrumentField :: firstField :: lastField :: timestampField :: fields)
      (readInstrument : Literal .uint32 instrumentField instrument) (readFirst : Literal .uint64 firstField first)
      (readLast : Literal .uint64 lastField last) (readTimestamp : Literal .int64 timestampField timestamp)
      (readLevels : LevelFields fields updates) :
      Describes message {
        instrument := UInt32.ofInt instrument
        sequenceRange := ⟨UInt64.ofInt first, UInt64.ofInt last⟩
        exchangeTimestamp := UInt64.ofInt timestamp
        updates }

theorem describes_of_parsed {data : StdString} {cached update : BookUpdate}
    (parsed : parseBookUpdate data cached = (.success, update)) : Describes data update := by
  rw [parseBookUpdate] at parsed
  split at parsed
  next => cases parsed
  next =>
    dsimp only at parsed
    split at parsed
    next instrumentField firstField lastField timestampField fields split =>
      obtain ⟨instrument, readInstrument, read⟩ | ⟨left, unread⟩ :=
        parseNumber_cases .uint32 UInt32.ofInt instrumentField 0
      · rw [read] at parsed
        obtain ⟨first, readFirst, read⟩ | ⟨left, unread⟩ := parseNumber_cases .uint64 UInt64.ofInt firstField 0
        · rw [read] at parsed
          obtain ⟨last, readLast, read⟩ | ⟨left, unread⟩ := parseNumber_cases .uint64 UInt64.ofInt lastField 0
          · rw [read] at parsed
            obtain ⟨timestamp, readTimestamp, read⟩ | ⟨left, unread⟩ := parseNumber_cases .int64 id timestampField 0
            · rw [read] at parsed
              obtain ⟨updates, readLevels, rfl⟩ := (parseLevels_iff ..).mp parsed
              exact .intro split readInstrument readFirst readLast readTimestamp readLevels
            · rw [unread] at parsed
              cases parsed
          · rw [unread] at parsed
            cases parsed
        · rw [unread] at parsed
          cases parsed
      · rw [unread] at parsed
        cases parsed
    next => cases parsed

theorem parsed_of_describes {data : StdString} {update : BookUpdate} (described : Describes data update)
    (cached : BookUpdate) : parseBookUpdate data cached = (.success, update) := by
  obtain ⟨split, readInstrument, readFirst, readLast, readTimestamp, readLevels⟩ := described
  have nonempty : ¬ data.isEmpty = true := by
    intro empty
    rw [List.isEmpty_iff.mp empty, List.splitOn_nil] at split
    cases split
  rw [parseBookUpdate, if_neg nonempty, split]
  dsimp only
  rw [parseNumber_of_literal readInstrument]
  dsimp only
  rw [parseNumber_of_literal readFirst]
  dsimp only
  rw [parseNumber_of_literal readLast]
  dsimp only
  rw [parseNumber_of_literal readTimestamp]
  exact (parseLevels_iff ..).mpr ⟨_, readLevels, rfl⟩

/-- A message is taken for an update exactly if it describes it, whatever has been
parsed before; what is not taken leaves nothing in the item. -/
theorem parse_exact (parser : TestMarketDataParser) (message : StdString) (marketDataItem : MarketDataItem)
    (update : BookUpdate) :
    (Describes message update ↔
      (parser.parse message marketDataItem).1 = .success ∧
        (parser.parse message marketDataItem).2.1 = .bookUpdate update) ∧
    ((∀ update, ¬ Describes message update) ↔
      (parser.parse message marketDataItem).1 ≠ .success ∧ (parser.parse message marketDataItem).2.1 = .monostate) := by
  rw [TestMarketDataParser.parse]
  cases parsed : parseBookUpdate message parser.bookUpdatesCached with
  | mk result cached =>
    dsimp only
    by_cases success : result = .success
    · subst success
      have described := describes_of_parsed parsed
      rw [if_neg (not_not_intro rfl)]
      constructor
      · constructor
        · intro other
          cases parsed.symm.trans (parsed_of_describes other _)
          exact ⟨rfl, rfl⟩
        · rintro ⟨_, same⟩
          cases same
          exact described
      · exact iff_of_false (fun none => none cached described) fun failed => failed.1 rfl
    · have undescribed : ∀ update, ¬ Describes message update := by
        intro update described
        cases parsed.symm.trans (parsed_of_describes described _)
        exact success rfl
      rw [if_pos success]
      exact ⟨iff_of_false (undescribed update) fun taken => success taken.1, iff_of_true undescribed ⟨success, rfl⟩⟩

end TradingCore.Proofs.MarketDataText
