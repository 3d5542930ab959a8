import Mathlib.Logic.Function.Basic
import Mathlib.Tactic.SplitIfs
import Solnet.Daemon.Checked
import Solnet.Daemon.Json
import Solnet.Lib.Table

/-! The response caches. Instants are nanoseconds of the monotonic clock; an elapsed
time saturates at zero. The percentiles of the metrics are never written and are left
out. -/
namespace Solnet.Daemon
open Fallible

structure CacheEntry where
  value : Value
  cachedAt : Nat
  ttl : Nat
  hits : Nat

structure MethodMetrics where
  totalRequests : Nat
  cacheHits : Nat
  totalLatencyUs : Nat
  minLatencyUs : Nat
  maxLatencyUs : Nat
  deriving DecidableEq, Repr

def MethodMetrics.default : MethodMetrics := ⟨0, 0, 0, 0, 0⟩

inductive CacheTier where
  | l1
  | l2
  | l3
  deriving DecidableEq, Repr

structure LatencyEngine where
  caches : CacheTier → Table String CacheEntry
  latencyMetrics : Table String MethodMetrics

namespace CacheTtl

def l1Hot : List String :=
  ["getSlot", "getBlockHeight", "getEpochInfo", "getVersion", "getHealth", "getIdentity",
    "getInflationRate"]

def l2Warm : List String :=
  ["getBalance", "getAccountInfo", "getMultipleAccounts", "getTokenAccountBalance",
    "getTokenSupply", "getTokenLargestAccounts"]

def l3Cold : List String :=
  ["getProgramAccounts", "getClusterNodes", "getVoteAccounts", "getInflationGovernor",
    "getEpochSchedule", "getFirstAvailableBlock", "getGenesisHash"]

def noCache : List String :=
  ["sendTransaction", "simulateTransaction", "getLatestBlockhash", "getRecentPrioritizationFees",
    "getSignatureStatuses"]

def getTtl (method : String) : Option Nat :=
  if method ∈ noCache then none
  else if method ∈ l1Hot then some 500_000_000
  else if method ∈ l2Warm then some 2_000_000_000
  else if method ∈ l3Cold then some 10_000_000_000
  else some 1_000_000_000

/-- Tier 0, no cache, is `none`. -/
def getCacheTier (method : String) : Option CacheTier :=
  if method ∈ l1Hot then some .l1
  else if method ∈ l2Warm then some .l2
  else if method ∈ l3Cold then some .l3
  else none

end CacheTtl

def buildCacheKey (lib : Serde) (method : String) (params : Value) : String :=
  method ++ ":" ++ lib.toString params

namespace LatencyEngine

def new : LatencyEngine := ⟨fun _ => ∅, ∅⟩

def withCache (s : LatencyEngine) (tier : CacheTier) (cache : Table String CacheEntry) :
    LatencyEngine :=
  { s with caches := Function.update s.caches tier cache }

def getCached (lib : Serde) (s : LatencyEngine) (method : String) (params : Value) (now : Nat) :
    Checked (LatencyEngine × Option Value) :=
  let key := buildCacheKey lib method params
  match CacheTtl.getCacheTier method with
  | none => .ok (s, none)
  | some tier =>
    match (s.caches tier).lookup key with
    | none => .ok (s, none)
    | some entry =>
      if now - entry.cachedAt < entry.ttl then do
        let hits ← checkedAdd 64 entry.hits 1
        let metrics := (s.latencyMetrics.lookup method).getD .default
        let cacheHits ← checkedAdd 64 metrics.cacheHits 1
        return ({ s.withCache tier ((s.caches tier).insert key { entry with hits := hits }) with
            latencyMetrics :=
              s.latencyMetrics.insert method { metrics with cacheHits := cacheHits } },
          some entry.value)
      else .ok (s.withCache tier ((s.caches tier).erase key), none)

def setCache (lib : Serde) (s : LatencyEngine) (method : String) (params value : Value)
    (now : Nat) : LatencyEngine :=
  match CacheTtl.getTtl method with
  | none => s
  | some ttl =>
    match CacheTtl.getCacheTier method with
    | none => s
    | some tier =>
      s.withCache tier
        ((s.caches tier).insert (buildCacheKey lib method params) ⟨value, now, ttl, 0⟩)

def recordLatency (s : LatencyEngine) (method : String) (latencyUs : Nat) :
    Checked LatencyEngine := do
  let metrics := (s.latencyMetrics.lookup method).getD .default
  let totalRequests ← checkedAdd 64 metrics.totalRequests 1
  let totalLatencyUs ← checkedAdd 64 metrics.totalLatencyUs latencyUs
  let lower := latencyUs < metrics.minLatencyUs ∨ metrics.minLatencyUs = 0
  return { s with
    latencyMetrics := s.latencyMetrics.insert method { metrics with
      totalRequests := totalRequests
      totalLatencyUs := totalLatencyUs
      minLatencyUs := if lower then latencyUs else metrics.minLatencyUs
      maxLatencyUs := max metrics.maxLatencyUs latencyUs } }

def evictTier (now : Nat) (s : LatencyEngine) (tier : CacheTier) : Checked LatencyEngine := do
  let cache ← (s.caches tier).retain fun _ entry => .ok (now - entry.cachedAt < entry.ttl)
  return s.withCache tier cache

def evictExpired (s : LatencyEngine) (now : Nat) : Checked LatencyEngine :=
  [CacheTier.l1, .l2, .l3].foldlM (evictTier now) s

/-- The entry a lookup at `now` answers from. -/
def live (lib : Serde) (s : LatencyEngine) (method : String) (params : Value) (now : Nat) :
    Option CacheEntry := do
  let tier ← CacheTtl.getCacheTier method
  let entry ← (s.caches tier).lookup (buildCacheKey lib method params)
  if now - entry.cachedAt < entry.ttl then some entry else none

def Stores (P : CacheTier → String → Value → Prop) (s : LatencyEngine) : Prop :=
  ∀ tier, Table.Holds (fun key entry => P tier key entry.value) (s.caches tier)

def Keeps (s s' : LatencyEngine) : Prop := ∀ P, s.Stores P → s'.Stores P

/-- Every cached value of `s'` is one of `s`, or the reply stored for the request in place
of what its key held. -/
def Adds (lib : Serde) (method : String) (params value : Value) (s s' : LatencyEngine) : Prop :=
  ∀ P : CacheTier → String → Value → Prop,
    (s.Stores fun tier key old => (CacheTtl.getCacheTier method = some tier ∧
      key = buildCacheKey lib method params) ∨ P tier key old) →
    (∀ tier, CacheTtl.getCacheTier method = some tier →
      P tier (buildCacheKey lib method params) value) → s'.Stores P

variable {lib : Serde} {P : CacheTier → String → Value → Prop} {s s' : LatencyEngine}
  {method : String} {params value : Value} {now : Nat} {found : Option Value}

theorem Stores.withCache {tier : CacheTier} {cache : Table String CacheEntry}
    (stores : s.Stores P) (here : Table.Holds (fun key entry => P tier key entry.value) cache) :
    (s.withCache tier cache).Stores P := by
  intro t
  rw [show (s.withCache tier cache).caches t = if t = tier then cache else s.caches t from
    Function.update_apply s.caches tier cache t]
  split
  · rename_i same
    exact same ▸ here
  · exact stores t

theorem live_eq {tier : CacheTier} {entry : CacheEntry}
    (tiered : CacheTtl.getCacheTier method = some tier)
    (stored : (s.caches tier).lookup (buildCacheKey lib method params) = some entry) :
    s.live lib method params now =
      if now - entry.cachedAt < entry.ttl then some entry else none := by
  simp only [live, tiered, Option.bind_eq_bind, Option.bind_some, stored]

/-- What a lookup can do. -/
inductive LooksUp (lib : Serde) (s : LatencyEngine) (method : String) (params : Value)
    (now : Nat) : LatencyEngine → Option Value → Prop where
  | miss (absent : s.live lib method params now = none) : LooksUp lib s method params now s none
  | expired {tier : CacheTier} {entry : CacheEntry}
      (tiered : CacheTtl.getCacheTier method = some tier)
      (stored : (s.caches tier).lookup (buildCacheKey lib method params) = some entry)
      (old : ¬ now - entry.cachedAt < entry.ttl) :
      LooksUp lib s method params now
        (s.withCache tier ((s.caches tier).erase (buildCacheKey lib method params))) none
  | hit {tier : CacheTier} {entry : CacheEntry} (hits cacheHits : Nat)
      (tiered : CacheTtl.getCacheTier method = some tier)
      (stored : (s.caches tier).lookup (buildCacheKey lib method params) = some entry)
      (fresh : now - entry.cachedAt < entry.ttl) :
      LooksUp lib s method params now
        { s.withCache tier ((s.caches tier).insert (buildCacheKey lib method params)
            { entry with hits }) with
          latencyMetrics := s.latencyMetrics.insert method
            { (s.latencyMetrics.lookup method).getD .default with cacheHits } }
        (some entry.value)

theorem getCached_looksUp (ok : getCached lib s method params now = .ok (s', found)) :
    LooksUp lib s method params now s' found := by
  unfold getCached at ok
  cases tiered : CacheTtl.getCacheTier method with
  | none =>
    simp only [tiered, Except.ok.injEq, Prod.mk.injEq] at ok
    obtain ⟨rfl, rfl⟩ := ok
    exact .miss (by simp only [live, tiered, Option.bind_eq_bind, Option.bind_none])
  | some tier =>
    simp only [tiered] at ok
    cases stored : (s.caches tier).lookup (buildCacheKey lib method params) with
    | none =>
      simp only [stored, Except.ok.injEq, Prod.mk.injEq] at ok
      obtain ⟨rfl, rfl⟩ := ok
      exact .miss (by simp only [live, tiered, stored, Option.bind_eq_bind, Option.bind_some,
        Option.bind_none])
    | some entry =>
      simp only [stored] at ok
      by_cases fresh : now - entry.cachedAt < entry.ttl
      · simp only [if_pos fresh, bind_ok_iff, checkedAdd, addWithin_ok_iff, pure, Except.pure,
          Except.ok.injEq, Prod.mk.injEq] at ok
        obtain ⟨hits, _, cacheHits, _, rfl, rfl⟩ := ok
        exact .hit hits cacheHits tiered stored fresh
      · simp only [if_neg fresh, Except.ok.injEq, Prod.mk.injEq] at ok
        obtain ⟨rfl, rfl⟩ := ok
        exact .expired tiered stored fresh

theorem getCached_ok (ok : getCached lib s method params now = .ok (s', found)) :
    found = (s.live lib method params now).map CacheEntry.value ∧ s.Keeps s' := by
  cases getCached_looksUp ok with
  | miss absent =>
    rw [absent]
    exact ⟨rfl, fun _ stores => stores⟩
  | @expired tier entry tiered stored old =>
    rw [live_eq tiered stored, if_neg old]
    exact ⟨rfl, fun _ stores => stores.withCache (stores tier).erase⟩
  | @hit tier entry hits cacheHits tiered stored fresh =>
    rw [live_eq tiered stored, if_pos fresh]
    refine ⟨rfl, fun P stores => ?_⟩
    exact stores.withCache ((stores tier).insert (stores tier _ entry stored))

theorem getCacheTier_of_no_ttl (never : CacheTtl.getTtl method = none) :
    CacheTtl.getCacheTier method = none := by
  have listed : method ∈ CacheTtl.noCache := by
    by_contra other
    simp only [CacheTtl.getTtl, if_neg other] at never
    split_ifs at never
  simp only [CacheTtl.noCache, List.mem_cons, List.not_mem_nil, or_false] at listed
  rcases listed with rfl | rfl | rfl | rfl | rfl <;> rfl

theorem setCache_adds (lib : Serde) (s : LatencyEngine) (method : String) (params value : Value)
    (now : Nat) : s.Adds lib method params value (s.setCache lib method params value now) := by
  intro P stores here
  have untiered (none : CacheTtl.getCacheTier method = none) : s.Stores P := by
    intro tier key entry found
    have old := stores tier key entry found
    simpa only [none, reduceCtorEq, false_and, false_or] using old
  unfold LatencyEngine.setCache
  split
  · rename_i never
    exact untiered (getCacheTier_of_no_ttl never)
  · split
    · rename_i tiered
      exact untiered tiered
    · rename_i tier tiered
      intro t key entry found
      rw [show (s.withCache tier _).caches t = if t = tier then _ else s.caches t from
        Function.update_apply s.caches tier _ t] at found
      by_cases same : t = tier
      · subst same
        rw [if_pos rfl, Table.lookup_insert] at found
        by_cases replaced : key = buildCacheKey lib method params
        · subst replaced
          rw [if_pos rfl] at found
          exact Option.some.inj found ▸ here t tiered
        · rw [if_neg replaced] at found
          exact (stores t key entry found).resolve_left fun hit => replaced hit.2
      · rw [if_neg same] at found
        exact (stores t key entry found).resolve_left fun hit =>
          same (Option.some.inj (hit.1.symm.trans tiered))

theorem recordLatency_keeps {latencyUs : Nat} (ok : s.recordLatency method latencyUs = .ok s') :
    s.Keeps s' := by
  simp only [recordLatency, bind_ok_iff, checkedAdd, addWithin_ok_iff, pure, Except.pure,
    Except.ok.injEq] at ok
  obtain ⟨_, _, _, _, rfl⟩ := ok
  exact fun _ stores => stores

theorem getCached_hit {tier : CacheTier} {entry : CacheEntry} {metrics : MethodMetrics}
    (tiered : CacheTtl.getCacheTier method = some tier)
    (stored : (s.caches tier).lookup (buildCacheKey lib method params) = some entry)
    (fresh : now - entry.cachedAt < entry.ttl) (hits : entry.hits + 1 < 2 ^ 64)
    (known : s.latencyMetrics.lookup method = some metrics)
    (fits : metrics.cacheHits + 1 < 2 ^ 64) :
    ∃ engine, getCached lib s method params now = .ok (engine, some entry.value) ∧
      engine.latencyMetrics.lookup method =
        some { metrics with cacheHits := metrics.cacheHits + 1 } := by
  simp only [getCached, tiered, stored, if_pos fresh, known, Option.getD_some, checkedAdd,
    bind_ok_iff, addWithin_ok_iff, pure, Except.pure, Except.ok.injEq, Prod.mk.injEq]
  exact ⟨_, ⟨_, ⟨hits, rfl⟩, _, ⟨fits, rfl⟩, rfl, trivial⟩, AList.lookup_insert s.latencyMetrics⟩

theorem recordLatency_known {metrics : MethodMetrics} {latencyUs : Nat}
    (known : s.latencyMetrics.lookup method = some metrics)
    (requests : metrics.totalRequests + 1 < 2 ^ 64)
    (latency : metrics.totalLatencyUs + latencyUs < 2 ^ 64) :
    ∃ s', s.recordLatency method latencyUs = .ok s' := by
  simp only [recordLatency, known, Option.getD_some, checkedAdd, bind_ok_iff, addWithin_ok_iff,
    pure, Except.pure, Except.ok.injEq]
  exact ⟨_, _, ⟨requests, rfl⟩, _, ⟨latency, rfl⟩, rfl⟩

theorem evictTier_answers (s : LatencyEngine) (tier : CacheTier) (now : Nat) :
    ∃ cache, (s.caches tier).retain (fun _ entry => .ok (now - entry.cachedAt < entry.ttl)) =
        (.ok cache : Checked (Table String CacheEntry)) ∧
      evictTier now s tier = .ok (s.withCache tier cache) := by
  obtain ⟨cache, retained⟩ : ∃ cache, (s.caches tier).retain
      (fun _ entry => .ok (now - entry.cachedAt < entry.ttl)) =
        (.ok cache : Checked (Table String CacheEntry)) :=
    Table.retain_answers fun _ _ _ => ⟨_, rfl⟩
  exact ⟨cache, retained, bind_ok_iff.mpr ⟨cache, retained, rfl⟩⟩

theorem Keeps.adds {t : LatencyEngine} (first : s.Keeps s')
    (second : s'.Adds lib method params value t) : s.Adds lib method params value t :=
  fun P stores here => second P (first _ stores) here

theorem live_stored {entry : CacheEntry} (found : s.live lib method params now = some entry) :
    ∃ tier, CacheTtl.getCacheTier method = some tier ∧
      (s.caches tier).lookup (buildCacheKey lib method params) = some entry := by
  simp only [live, Option.bind_eq_bind, Option.bind_eq_some_iff, Option.ite_none_right_eq_some,
    Option.some.injEq] at found
  obtain ⟨tier, tiered, stored, lookup, _, rfl⟩ := found
  exact ⟨tier, tiered, lookup⟩

end LatencyEngine

end Solnet.Daemon
