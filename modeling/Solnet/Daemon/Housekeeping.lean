import Solnet.Daemon.ExitClients
import Solnet.Daemon.Process
import Solnet.Daemon.RateLimits
import Solnet.Daemon.ResponseCache
import Solnet.Lib.Outcomes

/-! Housekeeping is invisible. Beside the daemon whose tasks clean the limiter and evict the
caches stands one that never does, and requests get the same answers from both. -/
namespace Solnet.Daemon
open Fallible

/-! The limiter. -/

namespace AttackPrevention

/-- `s` lacks at most what has run out, for every address. -/
structure Lighter (clock : Nat) (s p : AttackPrevention) : Prop where
  agrees : ∀ ip, Agrees ip clock s p
  total : s.totalRequests = p.totalRequests

variable {s s' p p' : AttackPrevention} {ip client : String} {now banNow clock : Nat}

theorem Lighter.later {later : Nat} (lighter : Lighter clock s p) (passes : clock ≤ later) :
    Lighter later s p :=
  ⟨fun ip => (lighter.agrees ip).later passes, lighter.total⟩

theorem Agrees.congr (agrees : Agrees ip clock s p)
    (requests : s'.ipRequests.lookup ip = s.ipRequests.lookup ip)
    (bans : s'.bannedIps.lookup ip = s.bannedIps.lookup ip)
    (requests' : p'.ipRequests.lookup ip = p.ipRequests.lookup ip)
    (bans' : p'.bannedIps.lookup ip = p.bannedIps.lookup ip) : Agrees ip clock s' p' where
  record := by rw [requests, requests']; exact agrees.record
  ban := by rw [bans, bans']; exact agrees.ban
  seen := by rw [requests]; exact agrees.seen

theorem isBanned_total (s : AttackPrevention) (client : String) (now : Nat) :
    (s.isBanned client now).1.totalRequests = s.totalRequests := by
  unfold AttackPrevention.isBanned
  split
  · split <;> rfl
  · rfl

theorem Lighter.isBanned (lighter : Lighter clock s p) (passes : clock ≤ now) (client : String) :
    (s.isBanned client now).2 = (p.isBanned client now).2 ∧
      Lighter now (s.isBanned client now).1 (p.isBanned client now).1 := by
  obtain ⟨verdict, own⟩ := (lighter.agrees client).isBanned passes
  refine ⟨verdict, fun ip => ?_, ?_⟩
  · by_cases same : ip = client
    · exact same ▸ own
    · exact ((lighter.later passes).agrees ip).congr (by rw [isBanned_fst_requests])
        (isBanned_fst_bans_of_ne s now same) (by rw [isBanned_fst_requests])
        (isBanned_fst_bans_of_ne p now same)
  · rw [isBanned_total, isBanned_total]
    exact lighter.total

theorem lookup_afterCheck_of_ne (s : AttackPrevention) (record : IpRecord) (banNow : Nat)
    (other : ip ≠ client) :
    (s.afterCheck client record banNow).ipRequests.lookup ip = s.ipRequests.lookup ip ∧
      (s.afterCheck client record banNow).bannedIps.lookup ip = s.bannedIps.lookup ip := by
  unfold AttackPrevention.afterCheck
  refine ⟨AList.lookup_insert_ne other, ?_⟩
  dsimp only
  split
  · exact AList.lookup_insert_ne other
  · rfl

theorem Lighter.afterCheck {record : IpRecord} (lighter : Lighter clock s p)
    (passes : clock ≤ now) (touched : touch (s.ipRequests.lookup client) now = .ok record)
    (banNow : Nat) : Lighter now (s.afterCheck client record banNow)
      (p.afterCheck client record banNow) := by
  refine ⟨fun ip => ?_, lighter.total⟩
  by_cases same : ip = client
  · subst same
    exact (lighter.agrees ip).afterCheck passes touched
  · obtain ⟨requests, bans⟩ := lookup_afterCheck_of_ne s record banNow same
    obtain ⟨requests', bans'⟩ := lookup_afterCheck_of_ne p record banNow same
    exact ((lighter.later passes).agrees ip).congr requests bans requests' bans'

/-- The limits are checked from one record in both, so the check ends alike, by a halt too. -/
theorem Lighter.checkRateLimit (lighter : Lighter clock s p) (passes : clock ≤ now)
    (client : String) (banNow : Nat) :
    Relates (fun x y => x.2 = y.2 ∧ Lighter now x.1 y.1) (s.checkRateLimit client now banNow)
      (p.checkRateLimit client now banNow) := by
  have same := (lighter.agrees client).touch_eq passes
  cases touched : touch (s.ipRequests.lookup client) now with
  | error e =>
    simp only [AttackPrevention.checkRateLimit, countRequest, ← same, touched]
    exact .error e
  | ok record =>
    have after := lighter.afterCheck passes touched banNow
    rw [AttackPrevention.checkRateLimit, AttackPrevention.checkRateLimit,
      countRequest_of_touch touched, countRequest_of_touch (same ▸ touched), bind_of_ok, bind_of_ok]
    unfold AttackPrevention.afterCheck at after
    by_cases bans : 1000 < record.count
    · simp only [if_pos bans] at after ⊢
      simp only [banIp, bind_assoc]
      refine .bind_same fun expiry added => ?_
      obtain ⟨_, rfl⟩ := addWithin_ok_iff.mp added
      exact .ok ⟨rfl, after⟩
    · simp only [if_neg bans] at after ⊢
      exact .ok ⟨rfl, after⟩

/-- A cleanup in order does not halt, and what it drops has run out. -/
theorem Lighter.cleanup (lighter : Lighter clock s p) (passes : clock ≤ now) :
    Answers (fun s' => Lighter now s' p) (s.cleanup now) := by
  have answers : ∀ ip record, s.ipRequests.lookup ip = some record →
      ∃ kept, recent now record = .ok kept := by
    intro ip record stored
    have seen : record.lastSeen ≤ now := ((lighter.agrees ip).seen record stored).2.trans passes
    exact ⟨_, bind_ok_iff.mpr ⟨now - record.lastSeen, if_pos seen, rfl⟩⟩
  have sweeps : ∀ ip expiry, s.bannedIps.lookup ip = some expiry →
      ∃ kept, (.ok (now < expiry) : Checked Bool) = .ok kept := fun _ _ _ => ⟨_, rfl⟩
  obtain ⟨requests, retained⟩ := Table.retain_answers answers
  obtain ⟨bans, kept⟩ := Table.retain_answers sweeps
  have ok : s.cleanup now = .ok { s with ipRequests := requests, bannedIps := bans } :=
    bind_ok_iff.mpr ⟨requests, retained, bind_ok_iff.mpr ⟨bans, kept, rfl⟩⟩
  exact ⟨_, ok, fun ip => (lighter.agrees ip).cleanup passes ok, lighter.total⟩

end AttackPrevention

/-! The caches. -/

namespace LatencyEngine

/-- What one engine has under a key next to the other: the same, or nothing in place of an entry
that has run out. -/
def Trimmed (clock : Nat) (x y : Option CacheEntry) : Prop :=
  x = y ∨ x = none ∧ ∃ entry, y = some entry ∧ entry.ttl ≤ clock - entry.cachedAt

structure Lighter (clock : Nat) (s p : LatencyEngine) : Prop where
  entries : ∀ tier key, Trimmed clock ((s.caches tier).lookup key) ((p.caches tier).lookup key)
  metrics : s.latencyMetrics = p.latencyMetrics

variable {lib : Serde} {s s' p : LatencyEngine} {method : String} {params value : Value}
  {now clock : Nat} {tier : CacheTier} {key : String}

theorem Trimmed.later {later : Nat} {x y : Option CacheEntry} (trimmed : Trimmed clock x y)
    (passes : clock ≤ later) : Trimmed later x y :=
  trimmed.imp id fun ⟨gone, entry, stored, old⟩ => ⟨gone, entry, stored, by omega⟩

theorem Lighter.later {later : Nat} (lighter : Lighter clock s p) (passes : clock ≤ later) :
    Lighter later s p :=
  ⟨fun tier key => (lighter.entries tier key).later passes, lighter.metrics⟩

theorem Lighter.withCache {cache cache' : Table String CacheEntry} (lighter : Lighter clock s p)
    (here : ∀ key, Trimmed clock (cache.lookup key) (cache'.lookup key)) (tier : CacheTier) :
    Lighter clock (s.withCache tier cache) (p.withCache tier cache') := by
  refine ⟨fun t k => ?_, lighter.metrics⟩
  rw [lookup_withCache, lookup_withCache]
  split
  · exact here k
  · exact lighter.entries t k

theorem Lighter.insert (lighter : Lighter clock s p) (tier : CacheTier) (key : String)
    (entry : CacheEntry) :
    Lighter clock (s.withCache tier ((s.caches tier).insert key entry))
      (p.withCache tier ((p.caches tier).insert key entry)) := by
  refine lighter.withCache (fun k => ?_) tier
  rw [Table.lookup_insert, Table.lookup_insert]
  split
  · exact .inl rfl
  · exact lighter.entries tier k

theorem Lighter.erase (lighter : Lighter clock s p) (tier : CacheTier) (key : String) :
    Lighter clock (s.withCache tier ((s.caches tier).erase key))
      (p.withCache tier ((p.caches tier).erase key)) := by
  refine lighter.withCache (fun k => ?_) tier
  rw [Table.lookup_erase, Table.lookup_erase]
  split
  · exact .inl rfl
  · exact lighter.entries tier k

theorem Lighter.getCached (lighter : Lighter clock s p) (passes : clock ≤ now)
    (method : String) (params : Value) :
    Relates (fun x y => x.2 = y.2 ∧ Lighter now x.1 y.1) (s.getCached lib method params now)
      (p.getCached lib method params now) := by
  have later := lighter.later passes
  unfold LatencyEngine.getCached
  dsimp only
  cases CacheTtl.getCacheTier method with
  | none => exact .ok ⟨rfl, later⟩
  | some tier =>
    dsimp only
    generalize buildCacheKey lib method params = key
    rcases later.entries tier key with same | ⟨gone, entry, stored, old⟩
    · rw [same]
      cases (p.caches tier).lookup key with
      | none => exact .ok ⟨rfl, later⟩
      | some entry =>
        dsimp only
        rw [lighter.metrics]
        split
        · refine .bind_same fun hits _ => .bind_same fun cacheHits _ => ?_
          exact .ok ⟨rfl, (later.insert tier key _).entries, rfl⟩
        · exact .ok ⟨rfl, later.erase tier key⟩
    · have lapsed : ¬ now - entry.cachedAt < entry.ttl := by omega
      rw [gone, stored]
      dsimp only
      rw [if_neg lapsed]
      refine .ok ⟨rfl, fun t k => ?_, lighter.metrics⟩
      rw [lookup_withCache]
      split
      · rename_i here
        subst here
        rw [Table.lookup_erase]
        split
        · rename_i own
          exact .inl (own ▸ gone)
        · exact later.entries t k
      · exact later.entries t k

theorem Lighter.setCache (lighter : Lighter clock s p) (method : String) (params value : Value)
    (now : Nat) : Lighter clock (s.setCache lib method params value now)
      (p.setCache lib method params value now) := by
  unfold LatencyEngine.setCache
  split
  · exact lighter
  · split
    · exact lighter
    · exact lighter.insert _ _ _

theorem Lighter.recordLatency (lighter : Lighter clock s p) (method : String) (latencyUs : Nat) :
    Relates (Lighter clock) (s.recordLatency method latencyUs)
      (p.recordLatency method latencyUs) := by
  unfold LatencyEngine.recordLatency
  rw [lighter.metrics]
  refine .bind_same fun totalRequests _ => .bind_same fun totalLatencyUs _ => ?_
  exact .ok ⟨lighter.entries, rfl⟩

/-- An eviction drops only what no later lookup would answer from. -/
theorem Lighter.evictTiers (lighter : Lighter clock s p) (passes : clock ≤ now)
    (tiers : List CacheTier) :
    Answers (fun s' => Lighter now s' p) (tiers.foldlM (evictTier now) s) := by
  induction tiers generalizing s clock with
  | nil => exact .pure (lighter.later passes)
  | cons tier tiers ih =>
    rw [List.foldlM_cons]
    obtain ⟨cache, retained, evicted⟩ := s.evictTier_answers tier now
    rw [evicted, bind_of_ok]
    refine ih ⟨fun t k => ?_, lighter.metrics⟩ (Nat.le_refl now)
    have later := (lighter.later passes).entries t k
    rw [lookup_withCache]
    split
    · rename_i here
      subst here
      cases kept : cache.lookup k with
      | some entry =>
        have stored := ((Table.lookup_retain_iff retained).mp kept).1
        have same := later.resolve_right fun gone => by simp [stored] at gone
        exact .inl (stored.symm.trans same)
      | none =>
        cases stored : (s.caches t).lookup k with
        | none => exact stored ▸ later
        | some entry =>
          have same := later.resolve_right fun gone => by simp [stored] at gone
          refine .inr ⟨rfl, entry, same ▸ stored, ?_⟩
          by_contra young
          have found := (Table.lookup_retain_iff retained).mpr
            ⟨stored, congrArg Except.ok (decide_eq_true (Nat.lt_of_not_le young))⟩
          cases kept.symm.trans found
    · exact later

end LatencyEngine

/-! The handler. -/

/-- The two states differ in the limiter and in the caches alone. -/
inductive SharedState.Lighter (clock instant : Nat) (s : SharedState) : SharedState → Prop where
  | mk {prevention : AttackPrevention} {engine : LatencyEngine}
      (limiter : s.attackPrevention.Lighter clock prevention)
      (caches : s.latencyEngine.Lighter instant engine) :
      Lighter clock instant s { s with attackPrevention := prevention, latencyEngine := engine }

/-- The same answer, and states that go on to give the same answers. -/
def SameAnswer (clock instant : Nat) (h h' : Handled) : Prop :=
  h.answer = h'.answer ∧ h.state.Lighter clock instant h'.state

variable {lib : Serde} {env : Env} {s p : SharedState} {req : Request} {bodyStr method : String}
  {params rpcReq : Value} {effects : List Effect} {clock instant : Nat}

theorem screenClient_relates (lighter : s.Lighter clock instant p)
    (passes : clock ≤ env.banCheckSecs) (ordered : env.banCheckSecs ≤ env.rateSecs) :
    Relates (fun x y => x.1 = y.1 ∧ x.2.2 = y.2.2 ∧ x.2.1.Lighter env.rateSecs y.2.1)
      (screenClient env s req) (screenClient env p req) := by
  obtain ⟨limiter, caches⟩ := lighter
  rw [screenClient_eq, screenClient_eq]
  dsimp only
  split
  · refine .bind (R := fun x y => x.2 = y.2 ∧ x.1.Lighter env.rateSecs y.1) ?_ ?_
    · obtain ⟨verdict, after⟩ := limiter.isBanned passes (extractIp req)
      unfold checkClient
      generalize s.attackPrevention.isBanned (extractIp req) env.banCheckSecs = x at verdict after
      rename_i prevention engine _
      generalize prevention.isBanned (extractIp req) env.banCheckSecs = y at verdict after
      obtain ⟨left, banned⟩ := x
      obtain ⟨right, banned'⟩ := y
      obtain rfl : banned = banned' := verdict
      cases banned with
      | true => exact .ok ⟨rfl, after.later ordered⟩
      | false => exact after.checkRateLimit ordered _ _
    · rintro ⟨left, result⟩ ⟨right, result'⟩ ⟨same, after⟩
      obtain rfl : result = result' := same
      exact .ok ⟨rfl, rfl, after⟩
  · exact .ok ⟨rfl, rfl, limiter.later (passes.trans ordered)⟩

theorem recordRequest_relates (lighter : s.Lighter clock instant p) :
    Relates (SharedState.Lighter clock instant) (recordRequest s) (recordRequest p) := by
  obtain ⟨limiter, caches⟩ := lighter
  unfold recordRequest
  dsimp only
  split
  · exact .ok ⟨limiter, caches⟩
  · exact .bind_same fun tracker _ => .ok ⟨limiter, caches⟩

theorem serveCached_relates (lighter : s.Lighter clock instant p) (cached : Value) :
    Relates (SameAnswer clock instant) (serveCached env s method cached)
      (serveCached env p method cached) := by
  obtain ⟨limiter, caches⟩ := lighter
  refine .bind (caches.recordLatency method env.latencyUs) fun _ _ recorded => ?_
  exact .bind (recordRequest_relates ⟨limiter, recorded⟩) fun _ _ after => .ok ⟨rfl, after⟩

theorem interceptGetSlot_relates (lighter : s.Lighter clock instant p) :
    Relates (SameAnswer clock instant) (interceptGetSlot lib env s method params rpcReq effects)
      (interceptGetSlot lib env p method params rpcReq effects) := by
  obtain ⟨limiter, caches⟩ := lighter
  refine .bind (caches.recordLatency method env.latencyUs) fun _ _ recorded => ?_
  refine .bind (recordRequest_relates ⟨limiter, ?_⟩) fun _ _ after => .ok ⟨rfl, after⟩
  exact recorded.setCache _ _ _ _

theorem postUpstream_relates (lighter : s.Lighter clock instant p) (upstreamRpc : String) :
    Relates (SameAnswer clock instant)
      (postUpstream lib env s upstreamRpc method params effects)
      (postUpstream lib env p upstreamRpc method params effects) := by
  obtain ⟨limiter, caches⟩ := lighter
  unfold postUpstream
  split
  · exact .bind_same fun balancer _ => .ok ⟨rfl, limiter, caches⟩
  · refine .bind (caches.recordLatency method env.latencyUs) fun _ _ recorded => ?_
    refine .bind_same fun balancer _ => ?_
    dsimp only
    split
    · exact .ok ⟨rfl, limiter, recorded⟩
    · refine .bind (recordRequest_relates ⟨limiter, recorded⟩) fun _ _ after => ?_
      split
      · exact .ok ⟨rfl, after⟩
      · obtain ⟨limiter, caches⟩ := after
        exact .ok ⟨rfl, limiter, caches.setCache _ _ _ _⟩

theorem forwardUpstream_relates (lighter : s.Lighter clock instant p) :
    Relates (SameAnswer clock instant) (forwardUpstream lib env s bodyStr method params effects)
      (forwardUpstream lib env p bodyStr method params effects) := by
  obtain ⟨limiter, caches⟩ := lighter
  unfold forwardUpstream
  dsimp only
  split
  · exact .ok ⟨rfl, limiter, caches⟩
  · refine .bind_same fun selection _ => .bind_same fun verification _ => ?_
    split
    · exact .ok ⟨rfl, limiter, caches⟩
    · refine postUpstream_relates ?_ _
      exact ⟨limiter, caches⟩

theorem handleUncached_relates (lighter : s.Lighter clock instant p) :
    Relates (SameAnswer clock instant) (handleUncached lib env s req bodyStr rpcReq)
      (handleUncached lib env p req bodyStr rpcReq) := by
  obtain ⟨limiter, caches⟩ := lighter
  rename_i prevention engine
  refine .bind_same fun executor _ => ?_
  have total : s.attackPrevention.incrementTotal.Lighter clock prevention.incrementTotal :=
    ⟨fun ip => (limiter.agrees ip).congr rfl rfl rfl rfl,
      congrArg (fun n => (n + 1) % 2 ^ 64) limiter.total⟩
  have processed (effects : List Effect) : Relates (SameAnswer clock instant)
      (processRequest lib env { s with parallelExecutor := executor } bodyStr
        (requestMethod rpcReq) (requestParams rpcReq) rpcReq effects)
      (processRequest lib env { s with
        attackPrevention := prevention, latencyEngine := engine, parallelExecutor := executor }
        bodyStr (requestMethod rpcReq) (requestParams rpcReq) rpcReq effects) := by
    unfold processRequest
    dsimp only
    split
    · exact interceptGetSlot_relates ⟨total, caches⟩
    · exact forwardUpstream_relates ⟨total, caches⟩
  have target : meshTarget { s with
      attackPrevention := prevention, latencyEngine := engine, parallelExecutor := executor }
      (requestMethod rpcReq) =
    meshTarget { s with parallelExecutor := executor } (requestMethod rpcReq) := rfl
  dsimp only
  rw [target]
  split
  · exact processed []
  · split
    · exact .ok ⟨rfl, limiter, caches⟩
    · exact processed _

theorem rpcHandler_relates (lighter : s.Lighter clock instant p)
    (passes : clock ≤ env.banCheckSecs) (ordered : env.banCheckSecs ≤ env.rateSecs)
    (later : instant ≤ env.cacheInstant) :
    Relates (SameAnswer env.rateSecs env.cacheInstant) (rpcHandler lib env s req)
      (rpcHandler lib env p req) := by
  refine .bind (screenClient_relates lighter passes ordered) ?_
  obtain ⟨limiter, caches⟩ := lighter
  rintro ⟨battery, left, refusal⟩ ⟨battery', right, refusal'⟩ ⟨guard, verdict, checked⟩
  obtain rfl : battery = battery' := guard
  obtain rfl : refusal = refusal' := verdict
  dsimp only at checked ⊢
  split
  · exact .ok ⟨rfl, checked, caches.later later⟩
  · split
    · exact .ok ⟨rfl, checked, caches.later later⟩
    · refine .bind (caches.getCached later _ _) ?_
      rintro ⟨engine, found⟩ ⟨engine', found'⟩ ⟨same, looked⟩
      obtain rfl : found = found' := same
      dsimp only
      split
      · exact serveCached_relates ⟨checked, looked⟩ _
      · exact handleUncached_relates ⟨checked, looked⟩

/-! The process. -/

namespace Process

variable {p q : Process} {calls : List ProcessCall} {env : Env} {req : Request}

theorem perform_request_relates (lighter : p.shared.Lighter clock instant q.shared)
    (slots : p.slotCache = q.slotCache) (passes : clock ≤ env.banCheckSecs)
    (ordered : env.banCheckSecs ≤ env.rateSecs) (later : instant ≤ env.cacheInstant) :
    Relates (fun x y => x.2 = y.2 ∧ x.1.slotCache = y.1.slotCache ∧
        x.1.shared.Lighter env.rateSecs env.cacheInstant y.1.shared)
      (p.perform lib (.request env req)) (q.perform lib (.request env req)) := by
  unfold perform
  rw [slots]
  refine .bind (rpcHandler_relates lighter passes ordered later) ?_
  rintro h h' ⟨same, after⟩
  exact .ok ⟨congrArg some same, rfl, after⟩

theorem perform_cleanup_answers {now : Nat} (lighter : p.shared.Lighter clock instant q.shared)
    (passes : clock ≤ now) :
    Answers (fun x => x.2 = none ∧ x.1.slotCache = p.slotCache ∧
        x.1.shared.Lighter now instant q.shared) (p.perform lib (.cleanup now)) := by
  cases shared : q.shared with
  | mk =>
    rw [shared] at lighter
    obtain ⟨limiter, caches⟩ := lighter
    exact (limiter.cleanup passes).bind fun _ cleaned => .pure ⟨rfl, rfl, cleaned, caches⟩

theorem perform_evict_answers {now : Nat} (lighter : p.shared.Lighter clock instant q.shared)
    (passes : instant ≤ now) :
    Answers (fun x => x.2 = none ∧ x.1.slotCache = p.slotCache ∧
        x.1.shared.Lighter clock now q.shared) (p.perform lib (.evictExpired now)) := by
  cases shared : q.shared with
  | mk =>
    rw [shared] at lighter
    obtain ⟨limiter, caches⟩ := lighter
    exact (caches.evictTiers passes _).bind fun _ evicted => .pure ⟨rfl, rfl, limiter, evicted⟩

theorem serve_relates (lighter : p.shared.Lighter clock instant q.shared)
    (slots : p.slotCache = q.slotCache)
    (readings : (clock :: calls.flatMap ProcessCall.readings).Pairwise (· ≤ ·))
    (instants : (instant :: calls.flatMap ProcessCall.instants).Pairwise (· ≤ ·)) :
    Relates (fun x y => x.2 = y.2) (p.serve lib calls)
      (q.serve lib (calls.filter fun call => !call.isHousekeeping)) := by
  induction calls generalizing p q clock instant with
  | nil => exact .ok rfl
  | cons call calls ih =>
    cases call with
    | request env req =>
      have read : env.rateSecs ∈ (ProcessCall.request env req).readings :=
        List.mem_cons_of_mem _ List.mem_cons_self
      have looked : env.cacheInstant ∈ (ProcessCall.request env req).instants :=
        List.mem_cons_self
      have first : clock ≤ env.banCheckSecs ∧ env.banCheckSecs ≤ env.rateSecs := by
        rw [List.flatMap_cons, ← List.cons_append, List.pairwise_append] at readings
        obtain ⟨own, _⟩ := readings
        simp only [ProcessCall.readings, List.pairwise_cons, List.mem_cons] at own
        exact ⟨own.1 _ (.inl rfl), own.2.1 _ (.inl rfl)⟩
      obtain ⟨later, instants⟩ := AttackPrevention.reading_passes instants looked
      refine .bind (perform_request_relates lighter slots first.1 first.2 later) ?_
      rintro ⟨p', answer⟩ ⟨q', answer'⟩ ⟨same, slots, after⟩
      obtain rfl : answer = answer' := same
      refine .bind (ih after slots (AttackPrevention.reading_passes readings read).2 instants) ?_
      rintro ⟨_, answers⟩ ⟨_, answers'⟩ same
      exact .ok (congrArg (answer.toList ++ ·) same)
    | cleanup now =>
      obtain ⟨passes, readings⟩ := AttackPrevention.reading_passes readings List.mem_cons_self
      obtain ⟨⟨p', answer⟩, cleaned, rfl, kept, after⟩ := perform_cleanup_answers lighter passes
      rw [serve, cleaned, bind_of_ok,
        List.filter_cons_of_neg (by simp [ProcessCall.isHousekeeping])]
      exact .bind_left (ih after (kept.trans slots) readings instants) fun _ _ same => .ok same
    | evictExpired now =>
      obtain ⟨passes, instants⟩ := AttackPrevention.reading_passes instants List.mem_cons_self
      obtain ⟨⟨p', answer⟩, evicted, rfl, kept, after⟩ := perform_evict_answers lighter passes
      rw [serve, evicted, bind_of_ok,
        List.filter_cons_of_neg (by simp [ProcessCall.isHousekeeping])]
      exact .bind_left (ih after (kept.trans slots) readings instants) fun _ _ same => .ok same
    | slotReply reply =>
      rw [List.filter_cons_of_pos (by simp [ProcessCall.isHousekeeping])]
      have fetched : p.slotCache.refresh reply = q.slotCache.refresh reply :=
        congrArg (·.refresh reply) slots
      have rest := ih (p := { p with slotCache := p.slotCache.refresh reply })
        (q := { q with slotCache := q.slotCache.refresh reply }) lighter fetched readings instants
      have step (r : Process) (calls : List ProcessCall) :
          r.serve lib (.slotReply reply :: calls) =
            (Process.serve lib { r with slotCache := r.slotCache.refresh reply } calls >>=
              fun x => pure (x.1, x.2)) := rfl
      rw [step, step]
      exact rest.bind fun _ _ same => .ok same

/-- The clients of the daemon that `main` starts get the answers that they would get if the
limiter were never cleaned and the caches never evicted. -/
theorem housekeeping_invisible (lib : Serde) (config : Config)
    (walletTracker : Option WalletRewardTracker) (batteryMode : Bool) (calls : List ProcessCall)
    (ordered : ProcessCall.InOrder calls) :
    (start config walletTracker batteryMode).answers lib calls =
      (start config walletTracker batteryMode).answers lib
        (calls.filter fun call => !call.isHousekeeping) := by
  have fresh : (start config walletTracker batteryMode).shared.Lighter 0 0
      (start config walletTracker batteryMode).shared :=
    ⟨⟨fun _ => ⟨.inl rfl, .inl rfl, nofun⟩, rfl⟩, fun _ _ => .inl rfl, rfl⟩
  refine Relates.map_eq (serve_relates fresh rfl ?_ ?_) fun _ _ same => same
  · exact List.pairwise_cons.mpr ⟨fun _ _ => Nat.zero_le _, ordered.readings⟩
  · exact List.pairwise_cons.mpr ⟨fun _ _ => Nat.zero_le _, ordered.instants⟩

/-- The rounds between the two requests drop the record that the first one left. -/
theorem housekeeping_invisible_rounds :
    (start devnetConfig none false).answers balanceSerde
      [balanceAt 100, .cleanup 401, .evictExpired 401000000000, .slotReply none, balanceAt 402] =
    (start devnetConfig none false).answers balanceSerde
      [balanceAt 100, .slotReply none, balanceAt 402] :=
  housekeeping_invisible balanceSerde devnetConfig none false
    [balanceAt 100, .cleanup 401, .evictExpired 401000000000, .slotReply none, balanceAt 402]
    ⟨by decide, by decide⟩

end Process

end Solnet.Daemon
