import Mathlib.Data.Set.Function
import Solnet.Daemon.LatencyEngine
import Solnet.Lib.Runs

/-! The caches as one map with an expiry for each method. The calls come one after another,
each at an instant. -/
namespace Solnet.Daemon
open Runs Fallible

inductive CacheCall where
  | setCache (method : String) (params value : Value) (now : Nat)
  | getCached (method : String) (params : Value) (now : Nat)
  | evictExpired (now : Nat)

structure CacheEvent where
  call : CacheCall
  answer : Option Value

namespace CacheCall

def instant : CacheCall → Nat
  | .setCache _ _ _ now => now
  | .getCached _ _ now => now
  | .evictExpired now => now

def params : CacheCall → Option Value
  | .setCache _ params _ _ => some params
  | .getCached _ params _ => some params
  | .evictExpired _ => none

end CacheCall

/-- The latest value stored for the same method and equal params, and when. -/
def LatestStore (calls : List CacheCall) (method : String) (params value : Value)
    (storedAt : Nat) : Prop :=
  ∃ before after, calls = before ++ .setCache method params value storedAt :: after ∧
    ∀ value' later, .setCache method params value' later ∉ after

section Latest

variable {calls : List CacheCall} {call : CacheCall} {method : String} {params value : Value}
  {storedAt : Nat}

theorem latestStore_append_self (calls : List CacheCall) (method : String) (params value : Value)
    (now : Nat) :
    LatestStore (calls ++ [.setCache method params value now]) method params value now :=
  ⟨calls, [], rfl, fun _ _ => List.not_mem_nil⟩

theorem LatestStore.append (latest : LatestStore calls method params value storedAt)
    (other : ∀ value' now', call ≠ .setCache method params value' now') :
    LatestStore (calls ++ [call]) method params value storedAt := by
  obtain ⟨before, after, rfl, last⟩ := latest
  refine ⟨before, after ++ [call], by simp, fun value' now' member => ?_⟩
  rcases List.mem_append.mp member with early | here
  · exact last value' now' early
  · exact other value' now' (List.mem_singleton.mp here).symm

theorem LatestStore.of_append
    (latest : LatestStore (calls ++ [call]) method params value storedAt) :
    call = .setCache method params value storedAt ∨
      (∀ value' now', call ≠ .setCache method params value' now') ∧
        LatestStore calls method params value storedAt := by
  obtain ⟨before, after, split, last⟩ := latest
  rcases List.eq_nil_or_concat after with rfl | ⟨after, final, rfl⟩
  · obtain ⟨_, same⟩ := List.append_inj' split rfl
    exact .inl (List.singleton_inj.mp same)
  · rw [List.concat_eq_append] at split last
    rw [← List.cons_append, ← List.append_assoc] at split
    obtain ⟨rfl, same⟩ := List.append_inj' split rfl
    obtain rfl := List.singleton_inj.mp same
    refine .inr ⟨fun value' now' same => last value' now' (by simp [same]), before, after, rfl, ?_⟩
    exact fun value' now' member => last value' now' (List.mem_append_left _ member)

end Latest

namespace LatencyEngine

def perform (lib : Serde) (s : LatencyEngine) : CacheCall → Checked (LatencyEngine × Option Value)
  | .setCache method params value now => .ok (s.setCache lib method params value now, none)
  | .getCached method params now => s.getCached lib method params now
  | .evictExpired now => do
    let s ← s.evictExpired now
    return (s, none)

def Performs (lib : Serde) (s : LatencyEngine) (event : CacheEvent) (s' : LatencyEngine) : Prop :=
  s.perform lib event.call = .ok (s', event.answer)

variable {lib : Serde} {s s' : LatencyEngine} {calls : List CacheCall} {call : CacheCall}
  {method : String} {params value : Value} {storedAt now : Nat} {tier : CacheTier} {key : String}

/-! Keys. -/

theorem split_at_first {α : Type} {a : α} {l l' r r' : List α} (absent : a ∉ l) (absent' : a ∉ l')
    (same : l ++ a :: r = l' ++ a :: r') : l = l' ∧ r = r' := by
  induction l generalizing l' with
  | nil =>
    cases l' with
    | nil => exact ⟨rfl, (List.cons.inj same).2⟩
    | cons b l' =>
      obtain ⟨rfl, _⟩ := List.cons.inj same
      exact absurd List.mem_cons_self absent'
  | cons b l ih =>
    cases l' with
    | nil =>
      obtain ⟨rfl, _⟩ := List.cons.inj same
      exact absurd List.mem_cons_self absent
    | cons c l' =>
      obtain ⟨rfl, rest⟩ := List.cons.inj same
      obtain ⟨rfl, tails⟩ := ih (fun member => absent (List.mem_cons_of_mem b member))
        (fun member => absent' (List.mem_cons_of_mem b member)) rest
      exact ⟨rfl, tails⟩

def cachedMethods : List String := CacheTtl.l1Hot ++ CacheTtl.l2Warm ++ CacheTtl.l3Cold

theorem cached_of_tier (tiered : CacheTtl.getCacheTier method = some tier) :
    method ∈ cachedMethods := by
  unfold CacheTtl.getCacheTier at tiered
  simp only [cachedMethods, List.mem_append]
  split at tiered
  · rename_i hot
    exact .inl (.inl hot)
  · split at tiered
    · rename_i warm
      exact .inl (.inr warm)
    · split at tiered
      · rename_i cold
        exact .inr cold
      · cases tiered

theorem no_colon (tiered : CacheTtl.getCacheTier method = some tier) : ':' ∉ method.toList := by
  have all : cachedMethods.all (fun method => method.toList.all (· ≠ ':')) = true := by
    decide
  have none := List.all_eq_true.mp (List.all_eq_true.mp all method (cached_of_tier tiered))
  intro member
  exact of_decide_eq_true (none ':' member) rfl

theorem buildCacheKey_inj {tier' : CacheTier} {method' : String} {params' : Value}
    (tiered : CacheTtl.getCacheTier method = some tier)
    (tiered' : CacheTtl.getCacheTier method' = some tier')
    (same : buildCacheKey lib method params = buildCacheKey lib method' params') :
    method = method' ∧ lib.toString params = lib.toString params' := by
  have texts := congrArg String.toList same
  simp only [buildCacheKey, String.toList_append] at texts
  rw [show ":".toList = [':'] from rfl, List.append_assoc, List.append_assoc] at texts
  obtain ⟨methods, printed⟩ := split_at_first (no_colon tiered) (no_colon tiered') texts
  exact ⟨String.toList_inj.mp methods, String.toList_inj.mp printed⟩

/-! What each call does to the entries. The hits of an entry do not matter. -/

/-- The entries of `s'` are those of `s`, and of these at most the ones that have run out
by `now` are missing. -/
structure Retains (now : Nat) (s s' : LatencyEngine) : Prop where
  old : ∀ tier key entry', (s'.caches tier).lookup key = some entry' →
    ∃ entry, (s.caches tier).lookup key = some entry ∧
      entry' = { entry with hits := entry'.hits }
  fresh : ∀ tier key entry, (s.caches tier).lookup key = some entry →
    now - entry.cachedAt < entry.ttl → ∃ entry', (s'.caches tier).lookup key = some entry' ∧
      entry' = { entry with hits := entry'.hits }

theorem retains_refl (now : Nat) (s : LatencyEngine) : Retains now s s where
  old _ _ entry found := ⟨entry, found, rfl⟩
  fresh _ _ entry found _ := ⟨entry, found, rfl⟩

theorem lookup_withCache (s : LatencyEngine) (tier t : CacheTier)
    (cache : Table String CacheEntry) :
    (s.withCache tier cache).caches t = if t = tier then cache else s.caches t :=
  Function.update_apply s.caches tier cache t

theorem lookup_withCache_insert (entry : CacheEntry) (t : CacheTier) (k : String) :
    ((s.withCache tier ((s.caches tier).insert key entry)).caches t).lookup k =
      if t = tier ∧ k = key then some entry else (s.caches t).lookup k := by
  rw [lookup_withCache]
  by_cases here : t = tier
  · subst here
    rw [if_pos rfl, Table.lookup_insert]
    simp only [true_and]
  · simp only [here, if_false, false_and]

theorem retains_hit {entry : CacheEntry} (stored : (s.caches tier).lookup key = some entry)
    (hits : Nat) : Retains now s
      (s.withCache tier ((s.caches tier).insert key { entry with hits := hits })) := by
  have lookup := @lookup_withCache_insert s tier key
    { entry with hits := hits }
  constructor
  · intro t k found' here
    rw [lookup] at here
    split at here
    · rename_i own
      obtain ⟨rfl, rfl⟩ := own
      obtain rfl := Option.some.inj here
      exact ⟨entry, stored, rfl⟩
    · exact ⟨found', here, rfl⟩
  · intro t k found here _
    rw [lookup]
    split
    · rename_i own
      obtain ⟨rfl, rfl⟩ := own
      obtain rfl := Option.some.inj (stored.symm.trans here)
      exact ⟨_, rfl, rfl⟩
    · exact ⟨found, here, rfl⟩

theorem retains_filtered {cache : Table String CacheEntry}
    (kept : ∀ key entry, cache.lookup key = some entry → (s.caches tier).lookup key = some entry)
    (fresh : ∀ key entry, (s.caches tier).lookup key = some entry →
      now - entry.cachedAt < entry.ttl → cache.lookup key = some entry) :
    Retains now s (s.withCache tier cache) := by
  constructor
  · intro t k found here
    rw [lookup_withCache] at here
    split at here
    · rename_i own
      subst own
      exact ⟨found, kept k found here, rfl⟩
    · exact ⟨found, here, rfl⟩
  · intro t k found here young
    rw [lookup_withCache]
    split
    · rename_i own
      subst own
      exact ⟨found, fresh k found here young, rfl⟩
    · exact ⟨found, here, rfl⟩

theorem Retains.trans {s'' : LatencyEngine} (first : Retains now s s')
    (second : Retains now s' s'') :
    Retains now s s'' := by
  constructor
  · intro t k found'' here
    obtain ⟨found', here', same'⟩ := second.old t k found'' here
    obtain ⟨found, stored, same⟩ := first.old t k found' here'
    refine ⟨found, stored, ?_⟩
    rw [same', same]
  · intro t k found here young
    obtain ⟨found', here', same⟩ := first.fresh t k found here young
    obtain ⟨found'', here'', same'⟩ := second.fresh t k found' here' (by rw [same]; exact young)
    refine ⟨found'', here'', ?_⟩
    rw [same', same]

theorem getCached_retains {found : Option Value}
    (ok : s.getCached lib method params now = .ok (s', found)) : Retains now s s' := by
  cases getCached_looksUp ok with
  | miss absent => exact retains_refl now s
  | @expired tier entry tiered stored old =>
    refine retains_filtered (fun k found here => ?_) fun k found here young => ?_
    · rw [Table.lookup_erase] at here
      split at here
      · cases here
      · exact here
    · rw [Table.lookup_erase]
      split
      · rename_i own
        subst own
        obtain rfl := Option.some.inj (stored.symm.trans here)
        exact absurd young old
      · exact here
  | @hit tier entry hits cacheHits tiered stored fresh =>
    have hit : Retains now s _ := retains_hit stored hits
    exact ⟨hit.old, hit.fresh⟩

theorem evictTiers_retains {tiers : List CacheTier}
    (ok : tiers.foldlM (evictTier now) s = .ok s') : Retains now s s' := by
  induction tiers generalizing s with
  | nil =>
    obtain rfl := Except.ok.inj ok
    exact retains_refl now s
  | cons tier tiers ih =>
    obtain ⟨next, first, rest⟩ := bind_ok_iff.mp ok
    obtain ⟨cache, retained, first⟩ := bind_ok_iff.mp first
    obtain rfl := Except.ok.inj first
    refine Retains.trans (retains_filtered (fun k found here => ?_) fun k found here young => ?_)
      (ih rest)
    · exact ((Table.lookup_retain_iff retained).mp here).1
    · exact (Table.lookup_retain_iff retained).mpr ⟨here, by simp [young]⟩

theorem lookup_setCache {ttl : Nat} (lives : CacheTtl.getTtl method = some ttl)
    (tiered : CacheTtl.getCacheTier method = some tier) (t : CacheTier) (k : String) :
    ((s.setCache lib method params value now).caches t).lookup k =
      if t = tier ∧ k = buildCacheKey lib method params then some ⟨value, now, ttl, 0⟩
      else (s.caches t).lookup k := by
  simp only [setCache, lives, tiered, lookup_withCache_insert]

theorem setCache_untiered (untiered : CacheTtl.getCacheTier method = none) :
    s.setCache lib method params value now = s := by
  unfold setCache
  split
  · rfl
  · simp only [untiered]

/-! The invariant: the entries are the latest stores, as far as these have not run out. -/

structure Lawful (lib : Serde) (asked : Set Value) (calls : List CacheCall) (s : LatencyEngine) :
    Prop where
  stored : ∀ tier key entry, (s.caches tier).lookup key = some entry →
    ∃ method params, params ∈ asked ∧ CacheTtl.getCacheTier method = some tier ∧
      key = buildCacheKey lib method params ∧ CacheTtl.getTtl method = some entry.ttl ∧
      LatestStore calls method params entry.value entry.cachedAt
  held : ∀ method params value storedAt tier ttl now, params ∈ asked →
    LatestStore calls method params value storedAt → CacheTtl.getCacheTier method = some tier →
    CacheTtl.getTtl method = some ttl → (∀ call ∈ calls, call.instant ≤ now) →
    now - storedAt < ttl →
    ∃ hits, (s.caches tier).lookup (buildCacheKey lib method params) =
      some ⟨value, storedAt, ttl, hits⟩

theorem Lawful.retains {asked : Set Value} (lawful : Lawful lib asked calls s)
    (kept : Retains call.instant s s') (reads : ∀ method params value now,
      call ≠ .setCache method params value now) : Lawful lib asked (calls ++ [call]) s' where
  stored := by
    intro tier key entry' here
    obtain ⟨entry, found, same⟩ := kept.old tier key entry' here
    obtain ⟨method, params, member, tiered, named, lives, latest⟩ :=
      lawful.stored tier key entry found
    rw [same]
    exact ⟨method, params, member, tiered, named, lives, latest.append (reads method params)⟩
  held := by
    intro method params value storedAt tier ttl now member latest tiered lives passed young
    have passes : call.instant ≤ now := passed call (by simp)
    obtain ⟨hits, found⟩ := lawful.held method params value storedAt tier ttl now member
      (latest.of_append.resolve_left (reads method params value storedAt)).2 tiered lives
      (fun earlier member => passed earlier (List.mem_append_left _ member)) young
    obtain ⟨entry', found', same⟩ := kept.fresh tier _ _ found (by dsimp only; omega)
    exact ⟨entry'.hits, found'.trans (congrArg some same)⟩

/-- A store of a method of no tier stores nothing. -/
theorem Lawful.setCache_untiered {asked : Set Value} (lawful : Lawful lib asked calls s)
    (untiered : CacheTtl.getCacheTier method = none) :
    Lawful lib asked (calls ++ [.setCache method params value now]) s := by
  have foreign {method' : String} {tier : CacheTier}
      (has : CacheTtl.getCacheTier method' = some tier) (params' value' : Value) (now' : Nat) :
      CacheCall.setCache method params value now ≠ .setCache method' params' value' now' := by
    intro same
    obtain ⟨rfl, _⟩ := CacheCall.setCache.inj same
    cases untiered.symm.trans has
  constructor
  · intro t k entry here
    obtain ⟨method', params', asked', has, named, lives, latest⟩ := lawful.stored t k entry here
    exact ⟨method', params', asked', has, named, lives, latest.append (foreign has params')⟩
  · intro method' params' value' storedAt' t ttl now' asked' latest has lives passed young
    exact lawful.held method' params' value' storedAt' t ttl now' asked'
      (latest.of_append.resolve_left (foreign has params' value' storedAt')).2 has lives
      (fun earlier early => passed earlier (List.mem_append_left _ early)) young

theorem Lawful.setCache_tiered {asked : Set Value} {tier : CacheTier} {ttl : Nat}
    (printing : Set.InjOn lib.toString asked) (lawful : Lawful lib asked calls s)
    (member : params ∈ asked) (tiered : CacheTtl.getCacheTier method = some tier)
    (lives : CacheTtl.getTtl method = some ttl) :
    Lawful lib asked (calls ++ [.setCache method params value now])
      (s.setCache lib method params value now) := by
  have lookup (t : CacheTier) (k : String) :
      ((s.setCache lib method params value now).caches t).lookup k =
        if t = tier ∧ k = buildCacheKey lib method params then some ⟨value, now, ttl, 0⟩
        else (s.caches t).lookup k :=
    lookup_setCache lives tiered t k
  constructor
  · intro t k entry here
    rw [lookup] at here
    split at here
    · rename_i own
      obtain ⟨rfl, rfl⟩ := own
      obtain rfl := Option.some.inj here
      exact ⟨method, params, member, tiered, rfl, lives, latestStore_append_self _ _ _ _ _⟩
    · rename_i foreign
      obtain ⟨method', params', asked', has, named, lives', latest⟩ :=
        lawful.stored t k entry here
      refine ⟨method', params', asked', has, named, lives', latest.append fun _ _ same => ?_⟩
      obtain ⟨rfl, rfl, _⟩ := CacheCall.setCache.inj same
      exact foreign ⟨Option.some.inj (has.symm.trans tiered), named⟩
  · intro method' params' value' storedAt' t ttl' now' asked' latest has lives' passed young
    rw [lookup]
    rcases latest.of_append with same | ⟨other, latest⟩
    · obtain ⟨rfl, rfl, rfl, rfl⟩ := CacheCall.setCache.inj same
      obtain rfl := Option.some.inj (tiered.symm.trans has)
      obtain rfl := Option.some.inj (lives.symm.trans lives')
      exact ⟨0, if_pos ⟨rfl, rfl⟩⟩
    · obtain ⟨hits, found⟩ := lawful.held method' params' value' storedAt' t ttl' now' asked'
        latest has lives' (fun earlier early => passed earlier (List.mem_append_left _ early))
        young
      refine ⟨hits, ?_⟩
      rw [if_neg, found]
      rintro ⟨rfl, named⟩
      obtain ⟨rfl, printed⟩ := buildCacheKey_inj has tiered named
      obtain rfl := printing asked' member printed
      exact other value now rfl

theorem Lawful.setCache {asked : Set Value} (printing : Set.InjOn lib.toString asked)
    (lawful : Lawful lib asked calls s) (member : params ∈ asked) :
    Lawful lib asked (calls ++ [.setCache method params value now])
      (s.setCache lib method params value now) := by
  cases tiered : CacheTtl.getCacheTier method with
  | none =>
    rw [LatencyEngine.setCache_untiered tiered]
    exact lawful.setCache_untiered tiered
  | some tier =>
    obtain ⟨ttl, lives⟩ : ∃ ttl, CacheTtl.getTtl method = some ttl :=
      Option.ne_none_iff_exists'.mp fun never => by
        cases (getCacheTier_of_no_ttl never).symm.trans tiered
    exact lawful.setCache_tiered printing member tiered lives

/-- The params that the calls store or look up. -/
def askedParams (events : List CacheEvent) : Set Value :=
  {params | ∃ event ∈ events, event.call.params = some params}

/-- The history invariant, for calls whose params are all among `asked`. -/
def LawfulAfter (lib : Serde) (asked : Set Value) (events : List CacheEvent) (s : LatencyEngine) :
    Prop :=
  askedParams events ⊆ asked → Lawful lib asked (events.map CacheEvent.call) s

theorem step_lawful {asked : Set Value} (printing : Set.InjOn lib.toString asked)
    (done : List CacheEvent) (s : LatencyEngine) (event : CacheEvent) (s' : LatencyEngine)
    (before : LawfulAfter lib asked done s) (step : Performs lib s event s') :
    LawfulAfter lib asked (done ++ [event]) s' := by
  intro asks
  have lawful := before fun params ⟨earlier, member, own⟩ =>
    asks ⟨earlier, List.mem_append_left _ member, own⟩
  obtain ⟨call, answer⟩ := event
  rw [List.map_append]
  cases call with
  | setCache method params value now =>
    obtain ⟨rfl, _⟩ := Prod.mk.inj (Except.ok.inj step)
    exact lawful.setCache printing (asks ⟨_, List.mem_append_right _ List.mem_cons_self, rfl⟩)
  | getCached method params now =>
    have kept : Retains (CacheCall.instant (.getCached method params now)) s s' :=
      getCached_retains step
    exact lawful.retains kept nofun
  | evictExpired now =>
    obtain ⟨after, evicted, ok⟩ := bind_ok_iff.mp step
    obtain ⟨rfl, _⟩ := Prod.mk.inj (Except.ok.inj ok)
    have kept : Retains (CacheCall.instant (.evictExpired now)) s after :=
      evictTiers_retains evicted
    exact lawful.retains kept nofun

theorem live_young {entry : CacheEntry} (found : s.live lib method params now = some entry) :
    now - entry.cachedAt < entry.ttl := by
  simp only [live, Option.bind_eq_bind, Option.bind_eq_some_iff, Option.ite_none_right_eq_some,
    Option.some.injEq] at found
  obtain ⟨_, _, _, _, young, rfl⟩ := found
  exact young

/-- A lookup answers with the latest value stored for the same method and equal params,
exactly when that store is younger than the method's time to live. -/
theorem response_cache_law (lib : Serde) (history events : List CacheEvent) (method : String)
    (params : Value) (now : Nat) (found : Option Value) (s : LatencyEngine)
    (ends : history = events ++ [⟨.getCached method params now, found⟩])
    (run : Run (Performs lib) .new history s)
    (printing : Set.InjOn lib.toString (askedParams history))
    (ordered : (history.map fun event => event.call.instant).Pairwise (· ≤ ·))
    (tiered : CacheTtl.getCacheTier method ≠ none) (value : Value) :
    found = some value ↔ ∃ storedAt ttl, CacheTtl.getTtl method = some ttl ∧
      LatestStore (events.map CacheEvent.call) method params value storedAt ∧
      now - storedAt < ttl := by
  obtain ⟨tier, tiered⟩ := Option.ne_none_iff_exists'.mp tiered
  have empty : LawfulAfter lib (askedParams history) [] new := by
    refine fun _ => ⟨nofun, ?_⟩
    rintro _ _ _ _ _ _ _ _ ⟨before, after, split, _⟩
    simp at split
  have asked : params ∈ askedParams history := by
    refine ⟨_, ends ▸ List.mem_append_right _ List.mem_cons_self, rfl⟩
  rw [ends] at run ordered
  obtain ⟨before, earlier, final⟩ := run_append_iff.mp run
  obtain ⟨_, looked, _⟩ := run_cons_iff.mp final
  have lawful : Lawful lib (askedParams history) (events.map CacheEvent.call) before := by
    apply earlier.history (step_lawful printing) empty
    intro params member
    obtain ⟨event, here, own⟩ := member
    exact ⟨event, ends ▸ List.mem_append_left _ here, own⟩
  obtain ⟨answer, _⟩ := getCached_ok looked
  change found = _ at answer
  rw [answer, Option.map_eq_some_iff]
  constructor
  · rintro ⟨entry, live, rfl⟩
    obtain ⟨tier', tiered', stored⟩ := live_stored live
    obtain ⟨method', params', asked', has, named, lives, latest⟩ := lawful.stored _ _ _ stored
    obtain ⟨rfl, printed⟩ := buildCacheKey_inj tiered' has named
    obtain rfl := printing asked asked' printed
    exact ⟨entry.cachedAt, entry.ttl, lives, latest, live_young live⟩
  · rintro ⟨storedAt, ttl, lives, latest, young⟩
    have passed : ∀ call ∈ events.map CacheEvent.call, call.instant ≤ now := by
      rw [List.map_append, List.pairwise_append] at ordered
      intro call member
      obtain ⟨event, here, rfl⟩ := List.mem_map.mp member
      exact ordered.2.2 _ (List.mem_map_of_mem here) now List.mem_cons_self
    obtain ⟨hits, stored⟩ := lawful.held method params value storedAt tier ttl now asked latest
      tiered lives passed young
    refine ⟨⟨value, storedAt, ttl, hits⟩, ?_, rfl⟩
    simp [live, tiered, stored, young]

/-! A node's health, stored and looked up half a second later but for a millisecond. -/

def healthSerde : Serde := ⟨fun _ => none, fun _ => "null", fun _ => ""⟩

def healthStored : List CacheEvent :=
  [⟨.setCache "getHealth" .null (.string "ok") 0, none⟩, ⟨.evictExpired 400_000_000, none⟩]

def healthLookedUp : List CacheEvent :=
  healthStored ++ [⟨.getCached "getHealth" .null 499_000_000, some (.string "ok")⟩]

theorem healthLookedUp_run : ∃ s, Run (Performs healthSerde) .new healthLookedUp s :=
  ⟨_, .cons rfl (.cons rfl (.cons rfl (.nil _)))⟩

theorem health_latest : ∃ storedAt ttl, CacheTtl.getTtl "getHealth" = some ttl ∧
    LatestStore (healthStored.map CacheEvent.call) "getHealth" .null (.string "ok") storedAt ∧
    499_000_000 - storedAt < ttl := by
  obtain ⟨s, run⟩ := healthLookedUp_run
  have same : ∀ params ∈ askedParams healthLookedUp, params = .null := by
    rintro params ⟨event, member, own⟩
    simp only [healthLookedUp, healthStored, List.mem_append, List.mem_cons, List.not_mem_nil,
      or_false] at member
    rcases member with (rfl | rfl) | rfl
    · exact (Option.some.inj own).symm
    · cases own
    · exact (Option.some.inj own).symm
  exact (response_cache_law healthSerde healthLookedUp healthStored "getHealth" .null 499_000_000 _
    s rfl run (fun params member params' member' _ => (same params member).trans
      (same params' member').symm) (by decide) (by decide) _).mp rfl

end LatencyEngine

end Solnet.Daemon
