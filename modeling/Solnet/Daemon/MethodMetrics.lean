import Mathlib.Order.Nat
import Solnet.Daemon.ResponseCache
import Solnet.Lib.Extrema

/-! The metrics of a method, over calls that record latencies of any method and calls of the
caches. A minimum of zero stands for no latency yet, and a latency may be zero. -/
namespace Solnet.Daemon
open Runs Fallible Extrema

inductive MetricsEvent where
  | recordLatency (method : String) (latencyUs : UInt64)
  | cache (call : CacheCall)

/-- The latency that an event records for the method. -/
def MetricsEvent.latencyOf (method : String) : MetricsEvent → Option Nat
  | .recordLatency recorded latencyUs =>
    if recorded = method then some latencyUs.toNat else none
  | .cache _ => none

def latenciesOf (method : String) (events : List MetricsEvent) : List Nat :=
  events.filterMap (MetricsEvent.latencyOf method)

/-- The metrics are those of the latencies. -/
structure MethodMetrics.Exact (metrics : MethodMetrics) (latencies : List Nat) : Prop where
  totalRequests : metrics.totalRequests = latencies.length
  totalLatencyUs : metrics.totalLatencyUs = latencies.sum
  minLatencyUs : latencies.min? = some metrics.minLatencyUs
  maxLatencyUs : latencies.max? = some metrics.maxLatencyUs

/-- What the metrics are. -/
structure MethodMetrics.Tallies (metrics : MethodMetrics) (latencies : List Nat) : Prop where
  totalRequests : metrics.totalRequests = latencies.length
  totalLatencyUs : metrics.totalLatencyUs = latencies.sum
  minLatencyUs : metrics.minLatencyUs = lowest latencies
  maxLatencyUs : metrics.maxLatencyUs = highest latencies

namespace LatencyEngine

def metricsOf (s : LatencyEngine) (method : String) : MethodMetrics :=
  (s.latencyMetrics.lookup method).getD .default

def Acts (lib : Serde) (s : LatencyEngine) (event : MetricsEvent) (s' : LatencyEngine) : Prop :=
  match event with
  | .recordLatency method latencyUs => s.recordLatency method latencyUs.toNat = .ok s'
  | .cache call => ∃ answer, s.perform lib call = .ok (s', answer)

variable {lib : Serde} {s s' : LatencyEngine} {method recorded : String} {latencyUs now : Nat}
  {params : Value} {latencies : List Nat} {events : List MetricsEvent}

theorem recordLatency_metrics (ok : s.recordLatency recorded latencyUs = .ok s') :
    s'.metricsOf method =
      if method = recorded then { s.metricsOf recorded with
        totalRequests := (s.metricsOf recorded).totalRequests + 1
        totalLatencyUs := (s.metricsOf recorded).totalLatencyUs + latencyUs
        minLatencyUs := lower (s.metricsOf recorded).minLatencyUs latencyUs
        maxLatencyUs := max (s.metricsOf recorded).maxLatencyUs latencyUs }
      else s.metricsOf method := by
  simp only [recordLatency, bind_ok_iff, checkedAdd, addWithin_ok_iff, pure, Except.pure,
    Except.ok.injEq] at ok
  obtain ⟨_, ⟨_, rfl⟩, _, ⟨_, rfl⟩, rfl⟩ := ok
  rw [metricsOf, Table.lookup_insert]
  split
  · rfl
  · rfl

/-- What the caches leave as it is in the metrics of every method. -/
def SameLatencies (s s' : LatencyEngine) : Prop :=
  ∀ method, ∃ cacheHits, s'.metricsOf method = { s.metricsOf method with cacheHits }

theorem sameLatencies_of_eq (same : s'.latencyMetrics = s.latencyMetrics) : SameLatencies s s' := by
  intro method
  refine ⟨(s.metricsOf method).cacheHits, ?_⟩
  rw [metricsOf, same]
  rfl

theorem getCached_sameLatencies {found : Option Value}
    (ok : s.getCached lib recorded params now = .ok (s', found)) : SameLatencies s s' := by
  cases getCached_looksUp ok with
  | miss absent => exact sameLatencies_of_eq rfl
  | expired tiered stored old => exact sameLatencies_of_eq rfl
  | hit hits cacheHits tiered stored fresh =>
    intro method
    rw [metricsOf, Table.lookup_insert]
    split
    · rename_i own
      subst own
      exact ⟨cacheHits, rfl⟩
    · exact ⟨_, rfl⟩

theorem evictTiers_metrics {tiers : List CacheTier}
    (ok : tiers.foldlM (evictTier now) s = .ok s') : s'.latencyMetrics = s.latencyMetrics := by
  induction tiers generalizing s with
  | nil =>
    obtain rfl := Except.ok.inj ok
    rfl
  | cons tier tiers ih =>
    obtain ⟨next, first, rest⟩ := bind_ok_iff.mp ok
    obtain ⟨cache, _, first⟩ := bind_ok_iff.mp first
    obtain rfl := Except.ok.inj first
    rw [ih rest]
    rfl

theorem setCache_metrics (s : LatencyEngine) (value : Value) :
    (s.setCache lib recorded params value now).latencyMetrics = s.latencyMetrics := by
  unfold LatencyEngine.setCache
  split
  · rfl
  · split
    · rfl
    · rfl

theorem perform_sameLatencies {call : CacheCall} {answer : Option Value}
    (ok : s.perform lib call = .ok (s', answer)) : SameLatencies s s' := by
  cases call with
  | setCache recorded params value now =>
    obtain ⟨rfl, _⟩ := Prod.mk.inj (Except.ok.inj ok)
    exact sameLatencies_of_eq (setCache_metrics s value)
  | getCached recorded params now => exact getCached_sameLatencies ok
  | evictExpired now =>
    obtain ⟨next, evicted, ok⟩ := bind_ok_iff.mp ok
    obtain ⟨rfl, _⟩ := Prod.mk.inj (Except.ok.inj ok)
    exact sameLatencies_of_eq (evictTiers_metrics evicted)

theorem acts_tallies (done : List MetricsEvent) (s : LatencyEngine) (event : MetricsEvent)
    (s' : LatencyEngine) (tallies : (s.metricsOf method).Tallies (latenciesOf method done))
    (step : s.Acts lib event s') :
    (s'.metricsOf method).Tallies (latenciesOf method (done ++ [event])) := by
  obtain ⟨count, total, least, greatest⟩ := tallies
  cases event with
  | recordLatency recorded latencyUs =>
    rw [recordLatency_metrics step, latenciesOf, List.filterMap_append]
    by_cases own : method = recorded
    · subst own
      have latest : [MetricsEvent.recordLatency method latencyUs].filterMap
          (MetricsEvent.latencyOf method) = [latencyUs.toNat] := by
        rw [List.filterMap_cons, MetricsEvent.latencyOf, if_pos rfl, List.filterMap_nil]
      rw [if_pos rfl, latest]
      constructor
      · rw [List.length_append, List.length_singleton, count]
        rfl
      · rw [List.sum_append, List.sum_singleton, total]
        rfl
      · rw [lowest_concat, least]
        rfl
      · rw [highest_concat, greatest]
        rfl
    · have other : [MetricsEvent.recordLatency recorded latencyUs].filterMap
          (MetricsEvent.latencyOf method) = [] := by
        rw [List.filterMap_cons, MetricsEvent.latencyOf, if_neg (Ne.symm own), List.filterMap_nil]
      rw [if_neg own, other, List.append_nil]
      exact ⟨count, total, least, greatest⟩
  | cache call =>
    obtain ⟨answer, ok⟩ := step
    obtain ⟨cacheHits, same⟩ := perform_sameLatencies ok method
    have other : latenciesOf method (done ++ [.cache call]) = latenciesOf method done := by
      rw [latenciesOf, List.filterMap_append]
      exact List.append_nil _
    rw [same, other]
    exact ⟨count, total, least, greatest⟩

theorem run_tallies (run : Run (Acts lib) .new events s) (method : String) :
    (s.metricsOf method).Tallies (latenciesOf method events) := by
  have start : (metricsOf .new method).Tallies (latenciesOf method []) := ⟨rfl, rfl, rfl, rfl⟩
  exact run.history acts_tallies start

/-- A call records its latency as long as the sum and the number of them fit. -/
theorem recordLatency_returns (run : Run (Acts lib) .new events s) (method : String)
    (latencyUs : UInt64) (sum : (latenciesOf method events).sum + latencyUs.toNat < 2 ^ 64)
    (count : (latenciesOf method events).length + 1 < 2 ^ 64) :
    ∃ s', s.Acts lib (.recordLatency method latencyUs) s' := by
  obtain ⟨requests, total, _, _⟩ := run_tallies run method
  rw [← requests] at count
  rw [← total] at sum
  simp only [Acts, recordLatency, checkedAdd, bind_ok_iff, addWithin_ok_iff, pure, Except.pure,
    Except.ok.injEq]
  exact ⟨_, _, ⟨count, rfl⟩, _, ⟨sum, rfl⟩, rfl⟩

/-- The metrics are exact when no latency of the method was zero, or the last one was. -/
theorem metrics_exact_iff (lib : Serde) {events : List MetricsEvent} {s : LatencyEngine}
    (run : Run (Acts lib) .new events s) (method : String)
    (recorded : latenciesOf method events ≠ []) :
    (s.metricsOf method).Exact (latenciesOf method events) ↔
      0 ∉ latenciesOf method events ∨ (latenciesOf method events).getLast? = some 0 := by
  obtain ⟨requests, total, least, greatest⟩ := run_tallies run method
  have minimum := min?_eq_lowest_iff recorded
  constructor
  · intro exact
    apply minimum.mp
    rw [exact.minLatencyUs, least]
  · intro unmarked
    refine ⟨requests, total, ?_, ?_⟩
    · rw [least]
      exact minimum.mpr unmarked
    · rw [greatest]
      exact max?_eq_highest recorded

def nodeOnly : List MetricsEvent :=
  [.recordLatency "getHealth" 7, .cache (.getCached "getHealth" .null 0),
    .recordLatency "getSlot" 0, .recordLatency "getHealth" 5]

theorem nodeOnly_exact : ∃ s, Run (Acts healthSerde) .new nodeOnly s ∧
    (s.metricsOf "getHealth").Exact [7, 5] := by
  obtain ⟨s, run⟩ : ∃ s, Run (Acts healthSerde) .new nodeOnly s :=
    ⟨_, .cons rfl (.cons ⟨none, rfl⟩ (.cons rfl (.cons rfl (.nil _))))⟩
  have exact := metrics_exact_iff healthSerde run "getHealth" (by decide)
  exact ⟨s, run, exact.mpr (.inl (by decide))⟩

/-- A reply from the cache within a microsecond, then one from the node. -/
def cachedFirst : List MetricsEvent :=
  [.recordLatency "getHealth" 0, .recordLatency "getHealth" 5]

theorem cachedFirst_run : ∃ s, Run (Acts healthSerde) .new cachedFirst s ∧
    s.metricsOf "getHealth" = ⟨2, 0, 5, 5, 5⟩ := by
  refine ⟨_, .cons rfl (.cons rfl (.nil _)), ?_⟩
  rfl

theorem metrics_not_exact :
    ¬ ∀ (lib : Serde) (events : List MetricsEvent) (s : LatencyEngine),
      Run (Acts lib) .new events s → ∀ method, latenciesOf method events ≠ [] →
        (latenciesOf method events).sum < 2 ^ 64 →
        (s.metricsOf method).Exact (latenciesOf method events) := by
  intro holds
  obtain ⟨s, run, metrics⟩ := cachedFirst_run
  have exact := holds healthSerde cachedFirst s run "getHealth" (by decide) (by decide)
  have least := exact.minLatencyUs
  rw [metrics] at least
  exact absurd least (by decide)

end LatencyEngine

end Solnet.Daemon
