import Std.Data.ExtTreeMap
import TradingCore.Core.Metrics

/-! The counters of all threads and their aggregation. Whoever first counts
something on a CPU creates the counters of that CPU; threads that did so on the
same CPU share them. The mutex is held from the first to the last step of an
aggregation, and each counter is read in a step of its own. -/

universe u

namespace TradingCore

abbrev CpuId := Int

/-- `fetch_add` wraps around. -/
abbrev Counter := UInt64

def MetricType.all : List MetricType :=
  [.marketDataParseErrors, .marketDataSnapshots, .marketDataSnapshotApplyFailed, .marketDataUpdates, .riskRejected,
    .orderRequests, .ordersSubmitted, .invalidOrdersRequest, .executionReports, .executionErrors,
    .invalidExecutionReport]

/-- One counter for each metric. The source counts in `Counter`; what it would
count without the limit of its counters is counted in `Nat`. -/
structure MetricCounters (κ : Type) where
  counters : MetricType → κ

namespace MetricCounters
variable {κ : Type}

instance [Zero κ] : Zero (MetricCounters κ) := ⟨⟨fun _ => 0⟩⟩

def increment [Add κ] (metrics : MetricCounters κ) (type : MetricType) (value : κ) : MetricCounters κ :=
  { counters := Function.update metrics.counters type (metrics.counters type + value) }

def value (metrics : MetricCounters κ) (type : MetricType) : κ := metrics.counters type

end MetricCounters

structure MetricsCollector (κ : Type) where
  allMetrics : Std.ExtTreeMap CpuId (MetricCounters κ) compare := {}

namespace MetricsCollector
variable {κ : Type} [Add κ] [Zero κ]

/-- The entry is what the caller refers to from then on. -/
def getThreadLocalMetrics (collector : MetricsCollector κ) (cpuId : CpuId) : MetricsCollector κ where
  allMetrics := collector.allMetrics.insertIfNew cpuId 0

/-- An increment through a reference to the entry. -/
def increment (collector : MetricsCollector κ) (cpuId : CpuId) (type : MetricType) (value : κ) :
    MetricsCollector κ where
  allMetrics := collector.allMetrics.modify cpuId (·.increment type value)

def value (collector : MetricsCollector κ) (cpuId : CpuId) (type : MetricType) : κ :=
  (collector.allMetrics[cpuId]?.getD 0).value type

/-- The counters in the order in which `aggregate` adds them up. -/
def counters (collector : MetricsCollector κ) : List (CpuId × MetricType) :=
  collector.allMetrics.keys.flatMap fun cpuId => MetricType.all.map (cpuId, ·)

end MetricsCollector

/-- Where `aggregate` is, with its local sum and the counters it has yet to add. -/
inductive Aggregation (κ : Type) where
  | idle
  | adding (stats : MetricCounters κ) (counters : List (CpuId × MetricType))

/-- A thread has a reference for each class that counts; they are told apart by
`ι`. -/
structure MetricsThreads (ι : Type u) (κ : Type) where
  collector : MetricsCollector κ := {}
  references : ι → Option CpuId := fun _ => none
  aggregation : Aggregation κ := .idle

namespace MetricsThreads

/-- An initialisation of a reference happens on some CPU. -/
inductive Turn (ι : Type u) (κ : Type) where
  | initialise (thread : ι) (cpuId : CpuId)
  | increment (thread : ι) (type : MetricType) (value : κ)
  | aggregate

variable {ι : Type u} {κ : Type} [DecidableEq ι] [Add κ] [Zero κ]

def locked (threads : MetricsThreads ι κ) : Bool :=
  match threads.aggregation with
  | .idle => false
  | .adding _ _ => true

/-- A reference is initialised once, and not while the mutex is held. -/
def initialise (threads : MetricsThreads ι κ) (thread : ι) (cpuId : CpuId) : MetricsThreads ι κ :=
  if threads.locked ∨ threads.references thread ≠ none then threads
  else { threads with
    collector := threads.collector.getThreadLocalMetrics cpuId
    references := Function.update threads.references thread (some cpuId) }

def increment (threads : MetricsThreads ι κ) (thread : ι) (type : MetricType) (value : κ) : MetricsThreads ι κ :=
  match threads.references thread with
  | none => threads
  | some cpuId => { threads with collector := threads.collector.increment cpuId type value }

/-- The sum goes out of scope at the end: nothing is done with it. -/
def aggregate (threads : MetricsThreads ι κ) : MetricsThreads ι κ :=
  match threads.aggregation with
  | .idle => { threads with aggregation := .adding 0 threads.collector.counters }
  | .adding stats ((cpuId, type) :: counters) => { threads with
      aggregation := .adding (stats.increment type (threads.collector.value cpuId type)) counters }
  | .adding _ [] => { threads with aggregation := .idle }

def step (threads : MetricsThreads ι κ) : Turn ι κ → MetricsThreads ι κ
  | .initialise thread cpuId => threads.initialise thread cpuId
  | .increment thread type value => threads.increment thread type value
  | .aggregate => threads.aggregate

/-- The local sum of an aggregation at its last step, before it is dropped. -/
def dropped (threads : MetricsThreads ι κ) (turn : Turn ι κ) : Option (MetricCounters κ) :=
  match turn, threads.aggregation with
  | .aggregate, .adding stats [] => some stats
  | _, _ => none

end MetricsThreads

end TradingCore
