import TradingCore.Foundation.Truncation
import TradingCore.Proofs.InstrumentPositions

/-! The average price of an open position against the prices it was entered
at. The truncated average stays between the two prices it is taken of, so no
value on the way to it is lost. -/

namespace TradingCore.Proofs.EntryPrices
open PositionTrades InstrumentPositions

section
variable {position : Position} {price : Price} {quantity : Quantity}

/-- A bound on both prices carries over to their weighted sum. -/
theorem le_weighted {low : Int} (positive : quantity.isPositive) (held : low ≤ position.averageEntryPrice.raw)
    (traded : low ≤ price.raw) : low * position.totalQuantity quantity ≤ position.weightedPrice price quantity := by
  rw [Position.totalQuantity, Position.weightedPrice, Int.mul_add]
  apply Int.add_le_add
  · exact Int.mul_le_mul_of_nonneg_right held (absolute_nonneg position)
  · exact Int.mul_le_mul_of_nonneg_right traded (Int.le_of_lt positive)

theorem weighted_le {high : Int} (positive : quantity.isPositive) (held : position.averageEntryPrice.raw ≤ high)
    (traded : price.raw ≤ high) : position.weightedPrice price quantity ≤ high * position.totalQuantity quantity := by
  rw [Position.totalQuantity, Position.weightedPrice, Int.mul_add]
  apply Int.add_le_add
  · exact Int.mul_le_mul_of_nonneg_right held (absolute_nonneg position)
  · exact Int.mul_le_mul_of_nonneg_right traded (Int.le_of_lt positive)

theorem le_average {low : Int} (positive : quantity.isPositive) (held : low ≤ position.averageEntryPrice.raw)
    (traded : low ≤ price.raw) :
    low ≤ (position.weightedPrice price quantity).tdiv (position.totalQuantity quantity) := by
  apply Int.le_tdiv_of_mul_le (total_positive position positive)
  exact le_weighted positive held traded

theorem average_le {high : Int} (positive : quantity.isPositive) (held : position.averageEntryPrice.raw ≤ high)
    (traded : price.raw ≤ high) :
    (position.weightedPrice price quantity).tdiv (position.totalQuantity quantity) ≤ high := by
  apply Truncation.tdiv_le_of_le_mul (total_positive position positive)
  exact weighted_le positive held traded

theorem average_fits (positive : quantity.isPositive) (held : FitsInt64 position.averageEntryPrice.raw)
    (traded : FitsInt64 price.raw) :
    FitsInt64 ((position.weightedPrice price quantity).tdiv (position.totalQuantity quantity)) := by
  have highest : ∀ value : Int, value ≤ 2 ^ 63 - 1 ↔ value < 2 ^ 63 := by omega
  refine ⟨le_average positive held.1 traded.1, ?_⟩
  rw [← highest]
  exact average_le positive ((highest _).mpr held.2) ((highest _).mpr traded.2)

/-- The new average of a growing position, once the narrowing is known to keep it. -/
theorem average_applyTrade {side : Side} (positive : quantity.isPositive)
    (increases : kind position side quantity = .increases) (held : FitsInt64 position.averageEntryPrice.raw)
    (traded : FitsInt64 price.raw) :
    (position.applyTrade side price quantity).averageEntryPrice.raw =
      (position.weightedPrice price quantity).tdiv (position.totalQuantity quantity) := by
  rw [applyTrade_increases positive increases]
  exact toInt64_of_fits (average_fits positive held traded)

end

/-- A position with the prices that entered its open episode. -/
structure Episode where
  position : Position
  entries : List Price := []

/-- An opening or a reversing trade starts an episode and a trade in the
direction of the position enters it; a close ends it. -/
def enter (episode : Episode) (trade : InstrumentPositions.Trade) : Episode where
  position := fold episode.position trade
  entries :=
    match kind episode.position trade.side trade.quantity with
    | .opens => [trade.price]
    | .increases => episode.entries ++ [trade.price]
    | .reduces => episode.entries
    | .closes => []
    | .reverses => [trade.price]

def Between (entries : List Price) (price : Price) : Prop :=
  (∃ low ∈ entries, low.raw ≤ price.raw) ∧ ∃ high ∈ entries, price.raw ≤ high.raw

/-- A price of 64 bits and a positive quantity that leaves the position
within 64 bits in either direction. -/
def Admissible (episode : Episode) (trade : InstrumentPositions.Trade) : Prop :=
  trade.quantity.isPositive ∧ FitsInt64 trade.price.raw ∧
    |(fold episode.position trade).currentQuantity.raw| ≤ 2 ^ 63 - 1

instance (episode : Episode) (trade : InstrumentPositions.Trade) : Decidable (Admissible episode trade) :=
  inferInstanceAs (Decidable (_ ∧ _ ∧ _))

/-- The values on the way to the average of a growing position. -/
structure Lossless (position : Position) (trade : InstrumentPositions.Trade) : Prop where
  total : FitsInt64 (position.totalQuantity trade.quantity)
  weighted : FitsInt128 (position.weightedPrice trade.price trade.quantity)
  divisor : position.totalQuantity trade.quantity ≠ 0
  narrowing : toInt64 ((position.weightedPrice trade.price trade.quantity).tdiv
      (position.totalQuantity trade.quantity)) =
    (position.weightedPrice trade.price trade.quantity).tdiv (position.totalQuantity trade.quantity)

def LosslessStep (episode : Episode) (trade : InstrumentPositions.Trade) : Prop :=
  kind episode.position trade.side trade.quantity = .increases → Lossless episode.position trade

/-- The prices of the episode are values of 64 bits, and the average lies
between them while there is a position. -/
structure Entered (episode : Episode) : Prop where
  prices : ∀ price ∈ episode.entries, FitsInt64 price.raw
  between : ¬ episode.position.isFlat → Between episode.entries episode.position.averageEntryPrice

variable {episode : Episode} {trade : InstrumentPositions.Trade}

theorem Entered.average (entered : Entered episode) (held : ¬ episode.position.isFlat) :
    FitsInt64 episode.position.averageEntryPrice.raw := by
  obtain ⟨⟨low, lowEntered, above⟩, high, highEntered, below⟩ := entered.between held
  have lowFits := entered.prices low lowEntered
  have highFits := entered.prices high highEntered
  exact ⟨Int.le_trans lowFits.1 above, Int.lt_of_le_of_lt below highFits.2⟩

theorem between_single (price : Price) : Between [price] price :=
  ⟨⟨price, List.mem_singleton_self price, Int.le_refl _⟩, price, List.mem_singleton_self price, Int.le_refl _⟩

/-- The average of a growing position is between the trade's price and
whatever the average was between. -/
theorem between_increased {entries : List Price} {position : Position} {average : Price}
    (positive : trade.quantity.isPositive) (between : Between entries position.averageEntryPrice)
    (taken : average.raw =
      (position.weightedPrice trade.price trade.quantity).tdiv (position.totalQuantity trade.quantity)) :
    Between (entries ++ [trade.price]) average := by
  obtain ⟨⟨low, lowEntered, above⟩, high, highEntered, below⟩ := between
  have last : trade.price ∈ entries ++ [trade.price] := by simp
  rw [Between, taken]
  constructor
  · rcases Int.le_total low.raw trade.price.raw with lower | higher
    · exact ⟨low, List.mem_append_left _ lowEntered, le_average positive above lower⟩
    · exact ⟨trade.price, last, le_average positive (Int.le_trans higher above) (Int.le_refl _)⟩
  · rcases Int.le_total high.raw trade.price.raw with lower | higher
    · exact ⟨trade.price, last, average_le positive (Int.le_trans below lower) (Int.le_refl _)⟩
    · exact ⟨high, List.mem_append_left _ highEntered, average_le positive below higher⟩

theorem entered_step (episode : Episode) (trade : InstrumentPositions.Trade) (entered : Entered episode)
    (admissible : Admissible episode trade) : Entered (enter episode trade) := by
  obtain ⟨positive, price, _⟩ := admissible
  have single : ∀ other ∈ [trade.price], FitsInt64 other.raw := by simpa using price
  cases found : kind episode.position trade.side trade.quantity with
  | opens =>
    simp only [enter, fold, found, applyTrade_opens positive found]
    exact ⟨single, fun _ => between_single trade.price⟩
  | increases =>
    have held := nonflat_of_sign (Int.ne_of_gt (kind_increases found))
    have average := @average_applyTrade _ trade.price _ _ positive found (entered.average held) price
    simp only [enter, fold, found]
    refine ⟨?_, fun _ => between_increased positive (entered.between held) average⟩
    intro other member
    rcases List.mem_append.mp member with earlier | new
    · exact entered.prices other earlier
    · exact single other new
  | reduces =>
    have held := nonflat_of_sign (Int.ne_of_lt (kind_reduces found).1)
    simp only [enter, fold, found, applyTrade_reduces positive found]
    exact ⟨entered.prices, fun _ => entered.between held⟩
  | closes =>
    simp only [enter, fold, found, applyTrade_closes positive found]
    exact ⟨fun _ member => absurd member List.not_mem_nil, fun held => absurd rfl held⟩
  | reverses =>
    simp only [enter, fold, found, applyTrade_reverses positive found]
    exact ⟨single, fun _ => between_single trade.price⟩

theorem lossless_step (episode : Episode) (trade : InstrumentPositions.Trade) (entered : Entered episode)
    (admissible : Admissible episode trade) : LosslessStep episode trade := by
  intro increases
  obtain ⟨positive, price, bounded⟩ := admissible
  have average := entered.average (nonflat_of_sign (Int.ne_of_gt (kind_increases increases)))
  have divisor := total_positive episode.position positive
  have total : episode.position.totalQuantity trade.quantity ≤ 2 ^ 63 - 1 := by
    rw [← absolute_grown positive increases, absoluteCurrentQuantity_eq]
    exact bounded
  refine ⟨⟨by omega, by omega⟩, ?_, Int.ne_of_gt divisor, toInt64_of_fits (average_fits positive average price)⟩
  have low := le_weighted positive average.1 price.1
  have high := weighted_le positive (Int.le_of_lt average.2) (Int.le_of_lt price.2)
  refine ⟨?_, ?_⟩
  · omega
  · omega

/-- From flat, the average of an open position always lies between the lowest
and the highest price its episode was entered at, and no step loses a value on
the way to it. -/
theorem average_between_entries {start : Position} (flat : start.isFlat) {trades : List InstrumentPositions.Trade}
    (admissible : Runs.Along enter Admissible { position := start } trades) :
    (∀ pre, pre <+: trades →
      let episode := Runs.after enter { position := start } pre
      ¬ episode.position.isFlat → Between episode.entries episode.position.averageEntryPrice) ∧
    Runs.Along enter LosslessStep { position := start } trades := by
  have entered : Entered { position := start } :=
    ⟨fun _ member => absurd member List.not_mem_nil, fun held => absurd flat held⟩
  constructor
  · intro pre inside episode held
    have along := Runs.along_prefix inside admissible
    exact (Runs.invariant_along entered_step entered along).between held
  · exact Runs.along_within entered_step lossless_step entered admissible

/-- Three bought at a hundred and one at a hundred and three; six sold at
ninety reverse the position and one more at ninety-five adds to it. -/
def reversedTrades : List InstrumentPositions.Trade :=
  [⟨1, .buy, ⟨100⟩, ⟨3⟩⟩, ⟨1, .buy, ⟨103⟩, ⟨1⟩⟩, ⟨1, .sell, ⟨90⟩, ⟨6⟩⟩, ⟨1, .sell, ⟨95⟩, ⟨1⟩⟩]

theorem average_between_entries_reversed :
    let episode := Runs.after enter { position := {} } reversedTrades
    episode.entries = [⟨90⟩, ⟨95⟩] ∧ episode.position.averageEntryPrice = ⟨91⟩ ∧
    Between episode.entries episode.position.averageEntryPrice ∧
    Runs.Along enter LosslessStep { position := {} } reversedTrades := by
  have proved := @average_between_entries {} rfl reversedTrades (by decide)
  exact ⟨by decide, by decide, proved.1 reversedTrades List.prefix_rfl (by decide), proved.2⟩

end TradingCore.Proofs.EntryPrices
