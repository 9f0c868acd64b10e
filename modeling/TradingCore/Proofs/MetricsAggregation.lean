import Mathlib.Data.List.ProdSigma
import Mathlib.Data.UInt
import TradingCore.Core.MetricsCollector
import TradingCore.Foundation.MapSum
import TradingCore.Foundation.Runs
import TradingCore.Foundation.Sweeps

/-! What the counters of all threads add up to. No increment is lost, whichever
threads share counters, and an aggregation finds no less than what was counted
before it began and no more than what has been counted when it ends. This is
shown of counters without a limit first; the counters of the source are these
modulo 2^64. -/

universe u

namespace TradingCore.Proofs.MetricsAggregation
open Std MetricsThreads

/-- What a turn counts, where a value is worth so much. -/
def counted {ι : Type u} {κ : Type} (worth : κ → Nat) (threads : MetricsThreads ι κ) :
    Turn ι κ → List (MetricType × Nat)
  | .increment thread type value => if threads.references thread = none then [] else [(type, worth value)]
  | _ => []

def amount (type : MetricType) (increments : List (MetricType × Nat)) : Nat :=
  (increments.map fun increment => if increment.1 = type then increment.2 else 0).sum

/-- The sum over all CPUs. -/
def total {κ : Type} [Add κ] [Zero κ] (collector : MetricsCollector κ) (type : MetricType) : κ :=
  (collector.allMetrics.toList.map fun entry => entry.2.value type).sum

theorem total_mapSum (collector : MetricsCollector Nat) (type : MetricType) :
    total collector type = MapSum.total (fun _ metrics => metrics.value type) collector.allMetrics := rfl

theorem amount_append (type : MetricType) (first rest : List (MetricType × Nat)) :
    amount type (first ++ rest) = amount type first + amount type rest := by
  rw [amount, List.map_append, List.sum_append]
  rfl

theorem amount_single (type other : MetricType) (value : Nat) :
    amount type [(other, value)] = if other = type then value else 0 := by
  rw [amount, List.map_singleton, List.sum_singleton]

theorem counters_increment (metrics : MetricCounters Nat) (type other : MetricType) (value : Nat) :
    (metrics.increment other value).value type = metrics.value type + if other = type then value else 0 := by
  rw [MetricCounters.increment, MetricCounters.value]
  dsimp only
  rw [Function.update_apply]
  split
  next same =>
    rw [if_pos same.symm, same]
    rfl
  next different =>
    rw [if_neg (Ne.symm different)]
    rfl

section
variable {collector : MetricsCollector Nat} {cpuId : CpuId}

theorem total_getThreadLocalMetrics (collector : MetricsCollector Nat) (cpuId : CpuId) (type : MetricType) :
    total (collector.getThreadLocalMetrics cpuId) type = total collector type := by
  rw [total_mapSum, MetricsCollector.getThreadLocalMetrics, total_mapSum]
  by_cases held : cpuId ∈ collector.allMetrics
  · have same : collector.allMetrics.insertIfNew cpuId 0 = collector.allMetrics := by
      apply ExtTreeMap.ext_getElem?
      intro other
      rw [ExtTreeMap.getElem?_insertIfNew, if_neg]
      rintro ⟨equal, absent⟩
      exact absent held
    rw [same]
  · have inserted : collector.allMetrics.insertIfNew cpuId 0 = collector.allMetrics.insert cpuId 0 := by
      apply ExtTreeMap.ext_getElem?
      intro other
      rw [ExtTreeMap.getElem?_insertIfNew, ExtTreeMap.getElem?_insert]
      simp only [held, not_false_eq_true, and_true]
    rw [inserted, MapSum.total_insert_new _ 0 held]
    exact Nat.zero_add _

theorem increment_insert (type : MetricType) (value : Nat) {metrics : MetricCounters Nat}
    (held : collector.allMetrics[cpuId]? = some metrics) :
    (collector.increment cpuId type value).allMetrics =
      collector.allMetrics.insert cpuId (metrics.increment type value) := by
  apply ExtTreeMap.ext_getElem?
  intro other
  rw [MetricsCollector.increment, ExtTreeMap.getElem?_modify, ExtTreeMap.getElem?_insert]
  split
  next same =>
    obtain rfl := LawfulEqCmp.eq_of_compare same
    rw [held]
    rfl
  next => rfl

theorem total_increment (type other : MetricType) (value : Nat) (held : cpuId ∈ collector.allMetrics) :
    total (collector.increment cpuId other value) type =
      total collector type + if other = type then value else 0 := by
  obtain ⟨metrics, found⟩ : ∃ metrics, collector.allMetrics[cpuId]? = some metrics :=
    ⟨_, ExtTreeMap.getElem?_eq_some_getElem held⟩
  have before : collector.allMetrics.insert cpuId metrics = collector.allMetrics := by
    apply ExtTreeMap.ext_getElem?
    intro key
    rw [ExtTreeMap.getElem?_insert]
    split
    next same =>
      obtain rfl := LawfulEqCmp.eq_of_compare same
      exact found.symm
    next => rfl
  have raised := MapSum.total_insert (fun _ metrics => MetricCounters.value metrics type) collector.allMetrics cpuId
    (metrics.increment other value)
  have present := MapSum.total_insert (fun _ metrics => MetricCounters.value metrics type) collector.allMetrics cpuId
    metrics
  rw [before] at present
  rw [total_mapSum, increment_insert other value found, raised, total_mapSum, present, counters_increment]
  omega

end

/-- The counters of one metric, as cells of the sweep over all counters. -/
def cell (collector : MetricsCollector Nat) (type : MetricType) (counter : CpuId × MetricType) : Nat :=
  if counter.2 = type then collector.value counter.1 counter.2 else 0

theorem all_nodup : MetricType.all.Nodup := by decide

theorem counters_nodup (collector : MetricsCollector Nat) : collector.counters.Nodup :=
  List.Nodup.product ExtTreeMap.nodup_keys all_nodup

theorem metric_sum (value : MetricType → Nat) (type : MetricType) :
    (MetricType.all.map fun other => if other = type then value other else 0).sum = value type := by
  cases type <;> simp [MetricType.all]

/-- All cells of a metric together hold its total. -/
theorem cells_total (collector : MetricsCollector Nat) (type : MetricType) :
    Sweeps.due (cell collector type) 0 collector.counters = total collector type := by
  have each : ∀ cpuId, ((MetricType.all.map (cpuId, ·)).map (cell collector type)).sum =
      collector.value cpuId type := by
    intro cpuId
    rw [List.map_map]
    exact metric_sum (collector.value cpuId) type
  have entries : ∀ entry ∈ collector.allMetrics.toList, collector.value entry.1 type = entry.2.value type := by
    intro entry member
    rw [MetricsCollector.value, ExtTreeMap.mem_toList_iff_getElem?_eq_some.mp member]
    rfl
  rw [Sweeps.due, Nat.zero_add, MetricsCollector.counters, List.map_flatMap, List.flatMap_def, List.sum_flatten,
    List.map_map, ← ExtTreeMap.map_fst_toList_eq_keys, List.map_map, total]
  apply congrArg List.sum
  apply List.map_congr_left
  intro entry member
  exact (each entry.1).trans (entries entry member)

section
variable {ι : Type u} {increments : List (MetricType × Nat)} {threads : MetricsThreads ι Nat}

/-- The counters hold what has been counted, and every reference is to some of them. -/
structure Tallied (increments : List (MetricType × Nat)) (threads : MetricsThreads ι Nat) : Prop where
  total : ∀ type, total threads.collector type = amount type increments
  referenced : ∀ thread cpuId, threads.references thread = some cpuId → cpuId ∈ threads.collector.allMetrics

theorem Tallied.initialise [DecidableEq ι] (tallied : Tallied increments threads) (thread : ι) (cpuId : CpuId) :
    Tallied increments (threads.initialise thread cpuId) := by
  rw [MetricsThreads.initialise]
  split
  next => exact tallied
  next =>
    refine ⟨fun type => (total_getThreadLocalMetrics threads.collector cpuId type).trans (tallied.total type), ?_⟩
    intro other otherId refers
    rw [MetricsCollector.getThreadLocalMetrics, ExtTreeMap.mem_insertIfNew]
    dsimp only at refers
    rw [Function.update_apply] at refers
    split at refers
    next =>
      obtain rfl := Option.some.inj refers
      exact Or.inl ReflCmp.compare_self
    next => exact Or.inr (tallied.referenced other otherId refers)

theorem Tallied.increment (tallied : Tallied increments threads) (thread : ι) (type : MetricType) (value : Nat) :
    Tallied (increments ++ counted id threads (.increment thread type value))
      (threads.increment thread type value) := by
  rw [counted, MetricsThreads.increment]
  cases refers : threads.references thread with
  | none =>
    rw [if_pos rfl, List.append_nil]
    exact tallied
  | some cpuId =>
    have held := tallied.referenced thread cpuId refers
    rw [if_neg (Option.some_ne_none cpuId)]
    refine ⟨?_, ?_⟩
    · intro other
      rw [total_increment other type value held, tallied.total, amount_append, amount_single]
      rfl
    · intro other otherId points
      exact ExtTreeMap.mem_modify.mpr (tallied.referenced other otherId points)

theorem Tallied.aggregate (tallied : Tallied increments threads) : Tallied increments threads.aggregate := by
  rw [MetricsThreads.aggregate]
  split
  next => exact ⟨tallied.total, tallied.referenced⟩
  next => exact ⟨tallied.total, tallied.referenced⟩
  next => exact ⟨tallied.total, tallied.referenced⟩

theorem step_tallied [DecidableEq ι] (increments : List (MetricType × Nat)) (threads : MetricsThreads ι Nat)
    (turn : Turn ι Nat) (tallied : Tallied increments threads) :
    Tallied (increments ++ counted id threads turn) (threads.step turn) := by
  cases turn with
  | initialise thread cpuId =>
    rw [counted, List.append_nil]
    · exact tallied.initialise thread cpuId
    · exact nofun
  | increment thread type value => exact tallied.increment thread type value
  | aggregate =>
    rw [counted, List.append_nil]
    · exact tallied.aggregate
    · exact nofun

/-- An aggregation that began when `before` had been counted. -/
structure Sweeping (before increments : List (MetricType × Nat)) (collector : MetricsCollector Nat)
    (stats : MetricCounters Nat) (left : List (CpuId × MetricType)) : Prop where
  once : left.Nodup
  lower : ∀ type, amount type before ≤ Sweeps.due (cell collector type) (stats.value type) left
  upper : ∀ type, Sweeps.due (cell collector type) (stats.value type) left ≤ amount type increments

theorem Tallied.sweeping (tallied : Tallied increments threads) :
    Sweeping increments increments threads.collector 0 threads.collector.counters where
  once := counters_nodup threads.collector
  lower := fun type => ((cells_total threads.collector type).trans (tallied.total type)).ge
  upper := fun type => ((cells_total threads.collector type).trans (tallied.total type)).le

variable {before : List (MetricType × Nat)} {collector : MetricsCollector Nat} {stats : MetricCounters Nat}
  {left : List (CpuId × MetricType)}

theorem Sweeping.read {cpuId : CpuId} {type : MetricType}
    (sweeping : Sweeping before increments collector stats ((cpuId, type) :: left)) :
    Sweeping before increments collector (stats.increment type (collector.value cpuId type)) left := by
  have same : ∀ other, Sweeps.due (cell collector other)
      ((stats.increment type (collector.value cpuId type)).value other) left =
      Sweeps.due (cell collector other) (stats.value other) ((cpuId, type) :: left) := by
    intro other
    rw [counters_increment, ← Sweeps.due_read]
    rfl
  exact ⟨(List.nodup_cons.mp sweeping.once).2, fun other => (sweeping.lower other).trans (same other).ge,
    fun other => (same other).le.trans (sweeping.upper other)⟩

theorem value_increment (collector : MetricsCollector Nat) (cpuId other : CpuId) (type metric : MetricType)
    (value : Nat) (held : cpuId ∈ collector.allMetrics) :
    (collector.increment cpuId type value).value other metric =
      collector.value other metric + if other = cpuId ∧ type = metric then value else 0 := by
  have found := ExtTreeMap.getElem?_eq_some_getElem held
  rw [MetricsCollector.value, increment_insert type value found, ExtTreeMap.getElem?_insert, MetricsCollector.value]
  by_cases same : cpuId = other
  · subst same
    rw [if_pos ReflCmp.compare_self, found, Option.getD_some, Option.getD_some, counters_increment]
    simp only [true_and]
  · rw [if_neg (fun equal => same (LawfulEqCmp.eq_of_compare equal)), if_neg (fun both => same both.1.symm),
      Nat.add_zero]

theorem Sweeping.increment (sweeping : Sweeping before increments collector stats left) {cpuId : CpuId}
    (type : MetricType) (value : Nat) (held : cpuId ∈ collector.allMetrics) :
    Sweeping before (increments ++ [(type, value)]) (collector.increment cpuId type value) stats left := by
  refine ⟨sweeping.once, ?_, ?_⟩
  · intro metric
    refine (sweeping.lower metric).trans (Sweeps.due_mono ?_ _ _)
    intro counter
    simp only [cell, value_increment collector cpuId _ type _ value held]
    split <;> omega
  · intro metric
    have others : ∀ counter, counter ≠ (cpuId, type) →
        cell (collector.increment cpuId type value) metric counter = cell collector metric counter := by
      intro counter other
      have elsewhere : ¬ (counter.1 = cpuId ∧ type = counter.2) := fun same => other (Prod.ext same.1 same.2.symm)
      rw [cell, cell, value_increment collector cpuId counter.1 type counter.2 value held, if_neg elsewhere,
        Nat.add_zero]
    have bounded : cell (collector.increment cpuId type value) metric (cpuId, type) ≤
        cell collector metric (cpuId, type) + if type = metric then value else 0 := by
      simp only [cell, value_increment collector cpuId cpuId type type value held, and_self, if_true]
      split <;> omega
    rw [amount_append, amount_single]
    exact (Sweeps.due_grown others bounded sweeping.once _).trans (Nat.add_le_add_right (sweeping.upper metric) _)

/-- An aggregation holds the mutex and has seen what it should. -/
structure Ongoing (before increments : List (MetricType × Nat)) (threads : MetricsThreads ι Nat) : Prop where
  tallied : Tallied increments threads
  sweeps : ∃ stats left, threads.aggregation = .adding stats left ∧
    Sweeping before increments threads.collector stats left

theorem start_tallied : Tallied [] ({} : MetricsThreads ι Nat) where
  total := fun type => by
    rw [total_mapSum]
    exact MapSum.total_empty _
  referenced := fun _ _ refers => nomatch refers

variable [DecidableEq ι]

theorem Ongoing.begun (tallied : Tallied increments threads) (idle : threads.aggregation = .idle) :
    Ongoing increments increments (threads.step .aggregate) := by
  refine ⟨tallied.aggregate, 0, threads.collector.counters, ?_, ?_⟩
  · rw [step, MetricsThreads.aggregate, idle]
  · rw [step, MetricsThreads.aggregate, idle]
    exact tallied.sweeping

theorem step_ongoing (ongoing : Ongoing before increments threads) (turn : Turn ι Nat)
    (unfinished : dropped threads turn = none) :
    Ongoing before (increments ++ counted id threads turn) (threads.step turn) := by
  refine ⟨step_tallied increments threads turn ongoing.tallied, ?_⟩
  obtain ⟨stats, left, adding, sweeping⟩ := ongoing.sweeps
  cases turn with
  | initialise thread cpuId =>
    -- the mutex is taken
    have locked : threads.locked = true := by rw [MetricsThreads.locked, adding]
    rw [counted, List.append_nil, step, MetricsThreads.initialise, if_pos (Or.inl locked)]
    · exact ⟨stats, left, adding, sweeping⟩
    · exact nofun
  | increment thread type value =>
    rw [counted, step, MetricsThreads.increment]
    cases refers : threads.references thread with
    | none =>
      rw [if_pos rfl, List.append_nil]
      exact ⟨stats, left, adding, sweeping⟩
    | some cpuId =>
      rw [if_neg (Option.some_ne_none cpuId)]
      exact ⟨stats, left, adding, sweeping.increment type value (ongoing.tallied.referenced thread cpuId refers)⟩
  | aggregate =>
    rw [counted, List.append_nil, step, MetricsThreads.aggregate, adding]
    · cases left with
      | nil =>
        simp only [dropped, adding, reduceCtorEq] at unfinished
      | cons counter left => exact ⟨_, left, rfl, sweeping.read⟩
    · exact nofun

theorem run_ongoing (ongoing : Ongoing before increments threads) {during : List (Turn ι Nat)}
    (unfinished : Runs.Along step (fun threads turn => dropped threads turn = none) threads during) :
    Ongoing before (increments ++ Runs.emitted step (counted id) threads during) (Runs.after step threads during) := by
  induction during generalizing increments threads with
  | nil =>
    rw [Runs.emitted_nil, List.append_nil]
    exact ongoing
  | cons turn rest ih =>
    obtain ⟨first, later⟩ := unfinished
    rw [Runs.emitted_cons, ← List.append_assoc]
    exact ih (step_ongoing ongoing turn first) later

theorem run_tallied (turns : List (Turn ι Nat)) :
    Tallied (Runs.emitted step (counted id) {} turns) (Runs.after step {} turns) :=
  Runs.invariant_emitted step_tallied start_tallied turns

/-- The sum of an aggregation without a limit of the counters. -/
theorem unlimited_between {earlier during : List (Turn ι Nat)} {stats : MetricCounters Nat}
    (idle : (Runs.after step {} earlier).aggregation = .idle)
    (unfinished : Runs.Along step (fun threads turn => dropped threads turn = none)
      (Runs.after step {} (earlier ++ [.aggregate])) during)
    (ends : dropped (Runs.after step {} (earlier ++ .aggregate :: during)) .aggregate = some stats)
    (type : MetricType) :
    amount type (Runs.emitted step (counted id) {} earlier) ≤ stats.value type ∧
    stats.value type ≤ amount type (Runs.emitted step (counted id) {} (earlier ++ .aggregate :: during)) := by
  have begun := Ongoing.begun (run_tallied earlier) idle
  rw [Runs.after_append] at unfinished
  have ongoing := run_ongoing begun unfinished
  have same : Runs.emitted step (counted id) {} (earlier ++ .aggregate :: during) =
      Runs.emitted step (counted id) {} earlier ++
        Runs.emitted step (counted id) ((Runs.after step {} earlier).step .aggregate) during := by
    rw [Runs.emitted_append]
    rfl
  rw [← same] at ongoing
  obtain ⟨_, sum, left, adding, sweeping⟩ := ongoing
  rw [Runs.after_append, Runs.after_cons] at ends
  simp only [dropped, adding] at ends
  cases left with
  | nil =>
    obtain rfl := Option.some.inj ends
    exact ⟨sweeping.lower type, sweeping.upper type⟩
  | cons counter left => cases ends

end

def wrapMetrics (metrics : MetricCounters Nat) : MetricCounters Counter :=
  { counters := fun type => UInt64.ofNat (metrics.value type) }

def wrapCollector (collector : MetricsCollector Nat) : MetricsCollector Counter :=
  { allMetrics := collector.allMetrics.map fun _ => wrapMetrics }

def wrapAggregation : Aggregation Nat → Aggregation Counter
  | .idle => .idle
  | .adding stats counters => .adding (wrapMetrics stats) counters

section
variable {ι : Type u}

def wrap (threads : MetricsThreads ι Nat) : MetricsThreads ι Counter :=
  { threads with collector := wrapCollector threads.collector, aggregation := wrapAggregation threads.aggregation }

def unlimited : Turn ι Counter → Turn ι Nat
  | .initialise thread cpuId => .initialise thread cpuId
  | .increment thread type value => .increment thread type value.toNat
  | .aggregate => .aggregate

theorem wrap_increment (metrics : MetricCounters Nat) (type : MetricType) (value : Nat) :
    wrapMetrics (metrics.increment type value) = (wrapMetrics metrics).increment type (UInt64.ofNat value) := by
  apply congrArg MetricCounters.mk
  funext other
  rw [counters_increment, UInt64.ofNat_add, wrapMetrics, Function.update_apply]
  by_cases same : other = type
  · subst same
    rw [if_pos rfl, if_pos rfl]
  · rw [if_neg same, if_neg (Ne.symm same)]
    exact UInt64.add_zero _

theorem wrap_getThreadLocalMetrics (collector : MetricsCollector Nat) (cpuId : CpuId) :
    wrapCollector (collector.getThreadLocalMetrics cpuId) = (wrapCollector collector).getThreadLocalMetrics cpuId := by
  apply congrArg MetricsCollector.mk
  apply ExtTreeMap.ext_getElem?
  intro other
  rw [MetricsCollector.getThreadLocalMetrics, wrapCollector, ExtTreeMap.getElem?_map, ExtTreeMap.getElem?_insertIfNew,
    ExtTreeMap.getElem?_insertIfNew, ExtTreeMap.getElem?_map]
  simp only [ExtTreeMap.mem_map]
  split
  next => rfl
  next => rfl

theorem wrap_counter (collector : MetricsCollector Nat) (cpuId : CpuId) (type : MetricType) (value : Nat) :
    wrapCollector (collector.increment cpuId type value) =
      (wrapCollector collector).increment cpuId type (UInt64.ofNat value) := by
  apply congrArg MetricsCollector.mk
  apply ExtTreeMap.ext_getElem?
  intro other
  rw [MetricsCollector.increment, wrapCollector, ExtTreeMap.getElem?_map, ExtTreeMap.getElem?_modify,
    ExtTreeMap.getElem?_modify, ExtTreeMap.getElem?_map, ExtTreeMap.getElem?_map]
  split
  next =>
    cases collector.allMetrics[cpuId]? with
    | none => rfl
    | some metrics => exact congrArg some (wrap_increment metrics type value)
  next => rfl

theorem wrap_value (collector : MetricsCollector Nat) (cpuId : CpuId) (type : MetricType) :
    (wrapCollector collector).value cpuId type = UInt64.ofNat (collector.value cpuId type) := by
  rw [MetricsCollector.value, wrapCollector, ExtTreeMap.getElem?_map, MetricsCollector.value]
  cases collector.allMetrics[cpuId]? <;> rfl

theorem wrap_counters (collector : MetricsCollector Nat) : (wrapCollector collector).counters = collector.counters := by
  rw [MetricsCollector.counters, wrapCollector, ExtTreeMap.keys_map]
  rfl

theorem wrap_total (collector : MetricsCollector Nat) (type : MetricType) :
    total (wrapCollector collector) type = UInt64.ofNat (total collector type) := by
  rw [total, wrapCollector, ExtTreeMap.toList_map, List.map_map, total]
  induction collector.allMetrics.toList with
  | nil => rfl
  | cons entry rest ih =>
    rw [List.map_cons, List.sum_cons, List.map_cons, List.sum_cons, UInt64.ofNat_add, ih]
    rfl

theorem wrap_dropped (threads : MetricsThreads ι Nat) (turn : Turn ι Counter) :
    dropped (wrap threads) turn = (dropped threads (unlimited turn)).map wrapMetrics := by
  obtain ⟨collector, references, aggregation⟩ := threads
  cases turn with
  | aggregate =>
    cases aggregation with
    | idle => rfl
    | adding stats left => cases left <;> rfl
  | _ => rfl

theorem wrap_counted (threads : MetricsThreads ι Nat) (turn : Turn ι Counter) :
    counted UInt64.toNat (wrap threads) turn = counted id threads (unlimited turn) := by
  cases turn <;> rfl

variable [DecidableEq ι]

theorem wrap_initialise (threads : MetricsThreads ι Nat) (thread : ι) (cpuId : CpuId) :
    wrap (threads.initialise thread cpuId) = (wrap threads).initialise thread cpuId := by
  have locked : (wrap threads).locked = threads.locked := by
    obtain ⟨collector, references, aggregation⟩ := threads
    cases aggregation <;> rfl
  by_cases refused : threads.locked ∨ threads.references thread ≠ none
  · have also : (wrap threads).locked ∨ (wrap threads).references thread ≠ none := by
      rw [locked]
      exact refused
    rw [MetricsThreads.initialise, if_pos refused, MetricsThreads.initialise, if_pos also]
  · have also : ¬ ((wrap threads).locked ∨ (wrap threads).references thread ≠ none) := by
      rw [locked]
      exact refused
    rw [MetricsThreads.initialise, if_neg refused, MetricsThreads.initialise, if_neg also, wrap,
      wrap_getThreadLocalMetrics]
    rfl

omit [DecidableEq ι] in
theorem wrap_aggregate (threads : MetricsThreads ι Nat) : wrap threads.aggregate = (wrap threads).aggregate := by
  obtain ⟨collector, references, aggregation⟩ := threads
  cases aggregation with
  | idle =>
    rw [MetricsThreads.aggregate, MetricsThreads.aggregate, wrap, wrap]
    dsimp only [wrapAggregation]
    rw [wrap_counters]
    rfl
  | adding stats left =>
    cases left with
    | nil => rfl
    | cons counter left =>
      rw [MetricsThreads.aggregate, MetricsThreads.aggregate, wrap, wrap]
      dsimp only [wrapAggregation]
      rw [wrap_value, wrap_increment]

theorem wrap_step (threads : MetricsThreads ι Nat) (turn : Turn ι Counter) :
    wrap (threads.step (unlimited turn)) = (wrap threads).step turn := by
  cases turn with
  | initialise thread cpuId => exact wrap_initialise threads thread cpuId
  | increment thread type value =>
    obtain ⟨collector, references, aggregation⟩ := threads
    rw [unlimited, step, step, MetricsThreads.increment, MetricsThreads.increment, wrap, wrap]
    dsimp only
    cases references thread with
    | none => rfl
    | some cpuId =>
      dsimp only
      rw [wrap_counter, UInt64.ofNat_toNat]
  | aggregate => exact wrap_aggregate threads

omit [DecidableEq ι] in
theorem wrap_start : wrap ({} : MetricsThreads ι Nat) = {} := by
  have none : (∅ : ExtTreeMap CpuId (MetricCounters Nat) compare).map (fun _ => wrapMetrics) = ∅ := by
    apply ExtTreeMap.ext_getElem?
    intro cpuId
    rw [ExtTreeMap.getElem?_map, ExtTreeMap.getElem?_empty, ExtTreeMap.getElem?_empty]
    rfl
  show ({ collector := { allMetrics := (∅ : ExtTreeMap CpuId (MetricCounters Nat) compare).map _ } } :
    MetricsThreads ι Counter) = {}
  rw [none]

theorem wrap_run (turns : List (Turn ι Counter)) (threads : MetricsThreads ι Nat) :
    Runs.after step (wrap threads) turns = wrap (Runs.after step threads (turns.map unlimited)) ∧
    Runs.emitted step (counted UInt64.toNat) (wrap threads) turns =
      Runs.emitted step (counted id) threads (turns.map unlimited) := by
  induction turns generalizing threads with
  | nil => exact ⟨rfl, rfl⟩
  | cons turn rest ih =>
    obtain ⟨reached, same⟩ := ih (threads.step (unlimited turn))
    rw [wrap_step] at reached same
    rw [List.map_cons, Runs.after_cons, Runs.after_cons, Runs.emitted_cons, Runs.emitted_cons, reached, same,
      wrap_counted]
    exact ⟨rfl, rfl⟩

theorem wrap_along (turns : List (Turn ι Counter)) (threads : MetricsThreads ι Nat) :
    Runs.Along step (fun threads turn => dropped threads turn = none) (wrap threads) turns ↔
      Runs.Along step (fun threads turn => dropped threads turn = none) threads (turns.map unlimited) := by
  induction turns generalizing threads with
  | nil => exact Iff.rfl
  | cons turn rest ih =>
    rw [List.map_cons, Runs.along_cons, Runs.along_cons, ← wrap_step, ih, wrap_dropped, Option.map_eq_none_iff]

/-- What a run has counted since the start. -/
def performed (turns : List (Turn ι Counter)) : List (MetricType × Nat) :=
  Runs.emitted step (counted UInt64.toNat) {} turns

end

/-- Two threads count on one CPU, and one of them again during the aggregation. -/
def sharedTurns : List (Turn Bool Counter) :=
  [.initialise false 3, .initialise true 3, .increment false .riskRejected 1, .increment true .riskRejected 1]

def lateTurns : List (Turn Bool Counter) :=
  [.aggregate, .increment true .riskRejected 1, .initialise true 4] ++ List.replicate 10 .aggregate

def halfTurns : List (Turn Bool Counter) :=
  [.initialise false 3, .increment false .riskRejected 0x8000000000000000,
    .increment false .riskRejected 0x8000000000000000]

/-- A counter that overflows is counted on modulo 2^64. -/
example : total (Runs.after step {} halfTurns).collector .riskRejected = 0 ∧
    amount .riskRejected (performed halfTurns) = 2 ^ 64 := by decide

/-- What a module counts without a limit is what counters of the source would
hold, modulo 2^64. -/
theorem module_counters (types : List MetricType) (type : MetricType) :
    (Runs.after (fun (counters : MetricCounters Counter) type => counters.increment type 1) 0 types).value type =
      UInt64.ofNat ((Runs.after Metrics.increment {} types).value type) := by
  have moves : ∀ (counters : MetricCounters Counter) (metrics : Metrics) input,
      (∀ type, counters.value type = UInt64.ofNat (metrics.value type)) →
      ∀ type, (counters.increment input 1).value type = UInt64.ofNat ((metrics.increment input).value type) := by
    intro counters metrics input same type
    have wrapped : counters = wrapMetrics ⟨metrics.counters⟩ := congrArg MetricCounters.mk (funext same)
    rw [wrapped]
    exact congrArg (MetricCounters.value · type) (wrap_increment ⟨metrics.counters⟩ input 1).symm
  have start : ∀ type, (0 : MetricCounters Counter).value type = UInt64.ofNat (({} : Metrics).value type) :=
    fun _ => rfl
  exact Runs.related moves start types type

end TradingCore.Proofs.MetricsAggregation
