import Mathlib.Algebra.BigOperators.Group.List.Basic
import TradingCore.Foundation.MapEdits
import TradingCore.Foundation.Streams
import TradingCore.Proofs.PositionTrades

/-! The positions of different instruments have nothing to do with each other.
Each is a machine of its own that folds the accepted trades of its instrument,
in the order in which they were made. -/

namespace TradingCore.Proofs.InstrumentPositions
open Std Streams PositionManager PositionTrades

structure Trade where
  instrument : InstrumentId
  side : Side
  price : Price
  quantity : Quantity
deriving DecidableEq, Repr

def tradeOf : Call → Trade
  | .applyTrade instrument side price quantity => ⟨instrument, side, price, quantity⟩
  | .applyExecution report => ⟨report.instrument, report.side, report.price, report.quantity⟩

/-- The trades of the calls that returned true. -/
def acceptedTrades (manager : PositionManager) (calls : List Call) : List Trade :=
  Runs.emitted PositionManager.step (fun manager call => if (manager.answer call).1 then [tradeOf call] else [])
    manager calls

def fold (position : Position) (trade : Trade) : Position :=
  position.applyTrade trade.side trade.price trade.quantity

/-- The entry of an instrument after one more trade of it. -/
def next (held : Option Position) (trade : Trade) : Option Position :=
  some (fold (held.getD { instrument := trade.instrument }) trade)

def signedQuantity (trade : Trade) : Int := sign trade.side * trade.quantity.raw

theorem answer_refused {manager : PositionManager} {call : Call} (refused : (manager.answer call).1 = false) :
    manager.step call = manager := by
  rw [step]
  cases call with
  | applyTrade instrument side price quantity =>
    rw [answer, PositionManager.applyTrade] at refused ⊢
    split at refused
    next nonpositive => rw [if_pos nonpositive]
    next => cases refused
  | applyExecution report =>
    rw [answer, PositionManager.applyExecution] at refused ⊢
    split at refused
    next other => rw [if_pos other]
    next => cases refused

theorem answer_accepted {manager : PositionManager} {call : Call} (accepted : (manager.answer call).1 = true) :
    (tradeOf call).quantity.isPositive ∧
    (manager.step call).find = route (·.instrument) next manager.find (tradeOf call) := by
  have traded : ∀ trade : Trade,
      (manager.trade trade.instrument trade.side trade.price trade.quantity).find =
        route (·.instrument) next manager.find trade := by
    intro trade
    funext instrument
    simp only [PositionManager.find, PositionManager.trade, MapEdits.getElem?_insert, route]
    by_cases own : trade.instrument = instrument
    · subst own
      simp [next, fold]
    · simp [own, Ne.symm own, PositionManager.find]
  rw [step]
  cases call with
  | applyTrade instrument side price quantity =>
    rw [answer, PositionManager.applyTrade] at accepted ⊢
    split at accepted
    next => cases accepted
    next positive =>
      rw [if_neg positive]
      exact ⟨not_not.mp positive, traded ⟨instrument, side, price, quantity⟩⟩
  | applyExecution report =>
    rw [answer, PositionManager.applyExecution] at accepted ⊢
    split at accepted
    next => cases accepted
    next passes =>
      rw [if_neg passes]
      exact ⟨not_not.mp (not_or.mp passes).2, traded (tradeOf (.applyExecution report))⟩

/-- Every entry of the manager is driven by the trades routed to it. -/
theorem entries_run (manager : PositionManager) (calls : List Call) :
    (Runs.after PositionManager.step manager calls).find =
      Runs.after (route (·.instrument) next) manager.find (acceptedTrades manager calls) := by
  induction calls generalizing manager with
  | nil => rfl
  | cons call rest ih =>
    rw [Runs.after_cons, ih, acceptedTrades, acceptedTrades, Runs.emitted_cons]
    split
    next accepted => rw [List.singleton_append, Runs.after_cons, (answer_accepted accepted).2]
    next refused => rw [List.nil_append, answer_refused (Bool.eq_false_iff.mpr refused)]

theorem acceptedTrades_positive (manager : PositionManager) (calls : List Call) :
    ∀ trade ∈ acceptedTrades manager calls, trade.quantity.isPositive := by
  induction calls generalizing manager with
  | nil => simp [acceptedTrades]
  | cons call rest ih =>
    intro trade member
    rw [acceptedTrades, Runs.emitted_cons] at member
    rcases List.mem_append.mp member with made | later
    · split at made
      next accepted =>
        obtain rfl := List.mem_singleton.mp made
        exact (answer_accepted accepted).1
      next => cases made
    · exact ih _ trade later

/-- What an instrument's position is once its trades have been made. -/
structure Holds (instrument : InstrumentId) (trades : List Trade) (position : Position) : Prop where
  folded : position = Runs.after fold { instrument } trades
  instrument : position.instrument = instrument
  quantity : position.currentQuantity.raw = (trades.map signedQuantity).sum
  flat : position.isFlat ∧ position.averageEntryPrice.isZero ↔ (trades.map signedQuantity).sum = 0

theorem applyTrade_instrument (position : Position) (side : Side) (price : Price) (quantity : Quantity) :
    (position.applyTrade side price quantity).instrument = position.instrument := by
  simp only [Position.applyTrade]
  split_ifs <;> rfl

/-- A position that is flat has no average price: trades that leave nothing
open clear it. -/
def Cleared (position : Position) : Prop := position.isFlat → position.averageEntryPrice.isZero

theorem cleared_applyTrade {position : Position} {side : Side} {price : Price} {quantity : Quantity}
    (positive : quantity.isPositive) : Cleared (position.applyTrade side price quantity) := by
  have moved : (position.applyTrade side price quantity).currentQuantity.raw =
      position.currentQuantity.raw + sign side * quantity.raw := quantity_applyTrade positive
  intro flat
  cases found : kind position side quantity with
  | closes => rw [applyTrade_closes positive found]
  | opens =>
    have before := kind_opens found
    cases side <;> simp only [sign] at moved <;> omega
  | increases =>
    have before := kind_increases found
    cases side <;> simp only [sign] at moved before <;> omega
  | reduces =>
    obtain ⟨before, smaller⟩ := kind_reduces found
    cases side <;> simp only [sign] at moved before smaller <;> omega
  | reverses =>
    obtain ⟨before, larger⟩ := kind_reverses found
    cases side <;> simp only [sign] at moved before larger <;> omega

theorem fold_run {trades : List Trade} (positive : ∀ trade ∈ trades, trade.quantity.isPositive) {position : Position}
    (cleared : Cleared position) :
    (Runs.after fold position trades).instrument = position.instrument ∧
    (Runs.after fold position trades).currentQuantity.raw =
      position.currentQuantity.raw + (trades.map signedQuantity).sum ∧
    Cleared (Runs.after fold position trades) := by
  induction trades generalizing position with
  | nil => simpa using cleared
  | cons trade rest ih =>
    have made := positive trade List.mem_cons_self
    have moved : (fold position trade).currentQuantity.raw = position.currentQuantity.raw + signedQuantity trade :=
      quantity_applyTrade made
    have next : Cleared (fold position trade) := cleared_applyTrade made
    have others : ∀ other ∈ rest, other.quantity.isPositive :=
      fun other member => positive other (List.mem_cons_of_mem trade member)
    obtain ⟨instrument, quantity, after⟩ := ih others next
    refine ⟨?_, ?_, after⟩
    · exact instrument.trans (applyTrade_instrument _ _ _ _)
    · rw [Runs.after_cons, quantity, moved, List.map_cons, List.sum_cons, Int.add_assoc]

theorem holds_fold {instrument : InstrumentId} {trades : List Trade}
    (positive : ∀ trade ∈ trades, trade.quantity.isPositive) :
    Holds instrument trades (Runs.after fold { instrument } trades) := by
  have fresh : Cleared { instrument } := fun _ => rfl
  obtain ⟨owner, quantity, cleared⟩ := fold_run positive fresh
  have summed := quantity.trans (Int.zero_add _)
  refine ⟨rfl, owner, summed, ?_⟩
  rw [← summed]
  exact ⟨fun flat => flat.1, fun flat => ⟨flat, cleared flat⟩⟩

theorem next_run {instrument : InstrumentId} {trades : List Trade}
    (own : ∀ trade ∈ trades, trade.instrument = instrument) :
    Runs.after next none trades = if trades = [] then none else some (Runs.after fold { instrument } trades) := by
  have driven : ∀ (rest : List Trade) (position : Position),
      Runs.after next (some position) rest = some (Runs.after fold position rest) := by
    intro rest
    induction rest with
    | nil => exact fun _ => rfl
    | cons trade rest ih => exact fun position => ih (fold position trade)
  cases trades with
  | nil => rfl
  | cons trade rest =>
    rw [if_neg (List.cons_ne_nil trade rest), Runs.after_cons, Runs.after_cons, next, driven,
      own trade List.mem_cons_self]
    rfl

/-- From an empty manager, an instrument has an entry once a call for it has
returned true, and the entry is the fold of exactly those trades. Calls that
return false leave everything as it was. Quantities are exact here, so no range
is needed. -/
theorem positions_independent (calls : List Call) :
    let manager := Runs.after PositionManager.step {} calls
    (∀ instrument,
      let trades := stream (·.instrument) instrument (acceptedTrades {} calls)
      (manager.find instrument = none ↔ trades = []) ∧
      ∀ position, manager.find instrument = some position → Holds instrument trades position) ∧
    ∀ (other : PositionManager) (call : Call), (other.answer call).1 = false → other.step call = other := by
  intro manager
  refine ⟨?_, fun _ _ refused => answer_refused refused⟩
  intro instrument trades
  have own : ∀ trade ∈ trades, trade.instrument = instrument := by
    intro trade member
    simpa using (List.mem_filter.mp member).2
  have positive : ∀ trade ∈ trades, trade.quantity.isPositive := by
    intro trade member
    exact acceptedTrades_positive _ calls trade (List.mem_filter.mp member).1
  have entry : manager.find instrument =
      if trades = [] then none else some (Runs.after fold { instrument } trades) := by
    rw [← next_run own]
    show (Runs.after PositionManager.step {} calls).find instrument = _
    rw [entries_run, after_route]
    rfl
  rw [entry]
  constructor
  · split
    next none => simp [none]
    next some => simp [some]
  · intro position found
    split at found
    next => cases found
    next =>
      cases found
      exact holds_fold positive

end TradingCore.Proofs.InstrumentPositions
