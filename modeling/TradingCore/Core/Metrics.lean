import Mathlib.Logic.Function.Basic

/-! Per-thread counters. Only the metrics that some component increments are
listed. A module counts without a limit here; the counters of 64 bits are those of
the collector. -/

namespace TradingCore

inductive MetricType where
  | marketDataParseErrors
  | marketDataSnapshots
  | marketDataSnapshotApplyFailed
  | marketDataUpdates
  | riskRejected
  | orderRequests
  | ordersSubmitted
  | invalidOrdersRequest
  | executionReports
  | executionErrors
  | invalidExecutionReport
deriving DecidableEq, Repr

structure Metrics where
  counters : MetricType → Nat := fun _ => 0

namespace Metrics

def increment (metrics : Metrics) (type : MetricType) : Metrics :=
  { counters := Function.update metrics.counters type (metrics.counters type + 1) }

def value (metrics : Metrics) (type : MetricType) : Nat := metrics.counters type

@[simp] theorem value_increment (metrics : Metrics) (type other : MetricType) :
    (metrics.increment type).value other = metrics.value other + if other = type then 1 else 0 := by
  by_cases same : other = type
  · subst same
    simp [increment, value]
  · simp [increment, value, same]

end Metrics

end TradingCore
