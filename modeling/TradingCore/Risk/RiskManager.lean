import TradingCore.Config
import TradingCore.Execution.Model
import TradingCore.Position.Position

/-! Static limits on a single order and on the position it would lead to. The
`__int128_t` intermediates are exact. -/

namespace TradingCore

inductive RiskResult where
  | accepted
  | rejected
deriving DecidableEq, Repr

inductive RiskReason where
  | none
  | maxOrderQuantity
  | maxPositionQuantity
  | maxNotional
deriving DecidableEq, Repr

structure RiskManager where
  limits : RiskLimits := {}
  reason : RiskReason := .none
deriving DecidableEq, Repr

namespace RiskManager

def absolute (value : Int) : Int := if value < 0 then -value else value

def positionDelta (request : OrderRequest) : Int :=
  match request.side with
  | .buy => request.quantity.raw
  | .sell => -request.quantity.raw

def ofLimits (limits : RiskLimits) : RiskManager := { limits }

def setLimits (manager : RiskManager) (newLimits : RiskLimits) : RiskManager :=
  { manager with limits := newLimits, reason := .none }

def notional (request : OrderRequest) : Int :=
  (request.price.raw * request.quantity.raw).tdiv ScaledValue.Scale

/-- Checks in the order of the source: the first limit that is broken is the
reason recorded, and an acceptance leaves the reason cleared. -/
def checkOrder (manager : RiskManager) (request : OrderRequest) (position : Position) :
    RiskResult × RiskManager :=
  let limits := manager.limits
  let resultingPosition := position.currentQuantity.raw + positionDelta request
  if ¬ request.quantity.isPositive then
    (.rejected, { manager with reason := .maxOrderQuantity })
  else if ¬ limits.maxOrderQuantity.isZero ∧ limits.maxOrderQuantity < request.quantity then
    (.rejected, { manager with reason := .maxOrderQuantity })
  else if ¬ limits.maxPositionQuantity.isZero ∧ limits.maxPositionQuantity.raw < absolute resultingPosition then
    (.rejected, { manager with reason := .maxPositionQuantity })
  else if ¬ limits.maxNotional.isZero ∧ limits.maxNotional.raw < absolute (notional request) then
    (.rejected, { manager with reason := .maxNotional })
  else
    (.accepted, { manager with reason := .none })

def lastReason (manager : RiskManager) : RiskReason := manager.reason

end RiskManager

end TradingCore
