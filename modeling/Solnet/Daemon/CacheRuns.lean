import Solnet.Daemon.Process
import Solnet.Daemon.ResponseCache

/-! The caches of the running daemon. What its requests store and look up is a history of the
caches, and a request is answered from a cache exactly when the law of the caches says so. -/
namespace Solnet.Daemon
open Runs Fallible

/-- The value that a request stores: the slot reply with its proof, or an upstream reply without
one. -/
def ProcessAnswer.stored (lib : Serde) (env : Env) (answer : ProcessAnswer) : Option Value :=
  match answer.origin with
  | .slotIntercept =>
    match answer.response.body with
    | .json reply => some reply
    | _ => none
  | .upstream =>
    match env.upstreamReply with
    | .responded _ (some responseBytes) => lib.fromSlice responseBytes
    | _ => none
  | _ => none

/-- The params of a request whose body can be read. -/
def ProcessCall.params (lib : Serde) : ProcessCall → Option Value
  | .request _ req =>
    match parseBody lib req.body with
    | .ok (_, rpcReq) => some (requestParams rpcReq)
    | .error _ => none
  | _ => none

/-- The calls on the caches. A request that is turned away makes none, but a lookup that
changes nothing may stand for it. -/
def ProcessEvent.cacheCalls (lib : Serde) (event : ProcessEvent) : List CacheCall :=
  match event.call, event.answer with
  | .request env req, some answer =>
    match parseBody lib req.body with
    | .ok (_, rpcReq) =>
      .getCached (requestMethod rpcReq) (requestParams rpcReq) env.cacheInstant ::
        (answer.stored lib env).toList.map fun value =>
          .setCache (requestMethod rpcReq) (requestParams rpcReq) value env.storeInstant
    | .error _ => []
  | .evictExpired now, _ => [.evictExpired now]
  | _, _ => []

/-- The latest value stored for the method and the params is young enough to be served. -/
def Recent (lib : Serde) (before : List ProcessEvent) (method : String) (params : Value)
    (now : Nat) (value : Value) : Prop :=
  CacheTtl.getCacheTier method ≠ none ∧ ∃ storedAt ttl, CacheTtl.getTtl method = some ttl ∧
    LatestStore (before.flatMap (ProcessEvent.cacheCalls lib)) method params value storedAt ∧
    now - storedAt < ttl

/-! What one request does to the caches. -/

namespace LatencyEngine

variable {lib : Serde} {s t : LatencyEngine} {method : String} {params value : Value} {now : Nat}

/-- The engine with the value stored, if there is one. -/
def storing (lib : Serde) (s : LatencyEngine) (method : String) (params : Value)
    (stored : Option Value) (now : Nat) : LatencyEngine :=
  match stored with
  | some value => s.setCache lib method params value now
  | none => s

theorem setCache_caches (same : s.caches = t.caches) :
    (s.setCache lib method params value now).caches =
      (t.setCache lib method params value now).caches := by
  unfold setCache
  split
  · exact same
  · split
    · exact same
    · simp only [withCache, same]

theorem recordLatency_caches {latencyUs : Nat} (ok : s.recordLatency method latencyUs = .ok t) :
    t.caches = s.caches := by
  simp only [recordLatency, bind_ok_iff, pure, Except.pure, Except.ok.injEq] at ok
  obtain ⟨_, _, _, _, rfl⟩ := ok
  rfl

end LatencyEngine

/-- What a request that no cache answers leaves in the caches. -/
def StoresOwn (lib : Serde) (env : Env) (s : LatencyEngine) (method : String) (params : Value)
    (h : Handled) : Prop :=
  h.state.latencyEngine.caches = (s.storing lib method params
    (h.answer.stored lib env) env.storeInstant).caches ∧ h.origin ≠ .cacheHit

variable {lib : Serde} {env : Env} {s : SharedState} {req : Request} {h : Handled}
  {bodyStr method : String} {params rpcReq : Value} {effects : List Effect}

theorem interceptGetSlot_storesOwn
    (ok : interceptGetSlot lib env s method params rpcReq effects = .ok h) :
    StoresOwn lib env s.latencyEngine method params h := by
  simp only [interceptGetSlot, bind_ok_iff, pure, Except.pure, Except.ok.injEq] at ok
  obtain ⟨engine, recorded, rewarded, reward, rfl⟩ := ok
  refine ⟨?_, by simp⟩
  rw [recordRequest_engine reward]
  exact LatencyEngine.setCache_caches (LatencyEngine.recordLatency_caches recorded)

theorem postUpstream_storesOwn {upstreamRpc : String}
    (ok : postUpstream lib env s upstreamRpc method params effects = .ok h) :
    StoresOwn lib env s.latencyEngine method params h := by
  cases postUpstream_steps ok with
  | unsent reply failed => exact ⟨rfl, by simp⟩
  | unread reply recorded succeeded =>
    exact ⟨LatencyEngine.recordLatency_caches recorded, by simp⟩
  | unparsed reply recorded succeeded reward read =>
    refine ⟨?_, by simp⟩
    rw [recordRequest_engine reward]
    exact LatencyEngine.recordLatency_caches recorded
  | replied reply recorded succeeded reward read =>
    refine ⟨?_, by simp⟩
    simp only [Handled.answer, ProcessAnswer.stored, reply, read, recordRequest_engine reward]
    exact LatencyEngine.setCache_caches (LatencyEngine.recordLatency_caches recorded)

theorem processRequest_storesOwn
    (ok : processRequest lib env s bodyStr method params rpcReq effects = .ok h) :
    StoresOwn lib env s.latencyEngine method params h := by
  unfold processRequest at ok
  split at ok
  · have stores := interceptGetSlot_storesOwn ok
    exact stores
  · cases forwardUpstream_steps ok with
    | refused tripped => exact ⟨rfl, by simp⟩
    | blocked closed selection verification => exact ⟨rfl, by simp⟩
    | posts closed selection verification posted =>
      have stores := postUpstream_storesOwn posted
      exact stores

theorem handleUncached_storesOwn (ok : handleUncached lib env s req bodyStr rpcReq = .ok h) :
    StoresOwn lib env s.latencyEngine (requestMethod rpcReq) (requestParams rpcReq) h := by
  cases handleUncached_steps ok with
  | delivered found delivered => exact ⟨rfl, by simp⟩
  | stays stays meshed processed =>
    have stores := processRequest_storesOwn processed
    exact stores

/-- The request is turned away before the caches, or it looks its reply up. -/
inductive CacheCourse (lib : Serde) (env : Env) (s : SharedState) (req : Request) (h : Handled) :
    Prop where
  | turnedAway (origin : h.origin = .refused) (effects : h.effects = [])
      (same : h.state.latencyEngine = s.latencyEngine)
  | hit {bodyStr : String} {rpcReq value : Value} {engine : LatencyEngine}
      (parsed : parseBody lib req.body = .ok (bodyStr, rpcReq))
      (lookup : s.latencyEngine.getCached lib (requestMethod rpcReq) (requestParams rpcReq)
        env.cacheInstant = .ok (engine, some value))
      (origin : h.origin = .cacheHit) (response : h.response = .of 200 (.json value))
      (same : h.state.latencyEngine.caches = engine.caches)
  | missed {bodyStr : String} {rpcReq : Value} {engine : LatencyEngine}
      (parsed : parseBody lib req.body = .ok (bodyStr, rpcReq))
      (lookup : s.latencyEngine.getCached lib (requestMethod rpcReq) (requestParams rpcReq)
        env.cacheInstant = .ok (engine, none))
      (origin : h.origin ≠ .cacheHit)
      (stores : h.state.latencyEngine.caches = (engine.storing lib (requestMethod rpcReq)
        (requestParams rpcReq) (h.answer.stored lib env) env.storeInstant).caches)

theorem rpcHandler_caches (ok : rpcHandler lib env s req = .ok h) :
    CacheCourse lib env s req h := by
  cases rpcHandler_steps ok with
  | screened screening => exact .turnedAway rfl rfl rfl
  | unread screening unread => exact .turnedAway rfl rfl rfl
  | cached screening parsed lookup serves =>
    simp only [serveCached, bind_ok_iff, pure, Except.pure, Except.ok.injEq] at serves
    obtain ⟨engine, recorded, rewarded, reward, rfl⟩ := serves
    refine .hit parsed lookup rfl rfl ?_
    rw [recordRequest_engine reward]
    exact LatencyEngine.recordLatency_caches recorded
  | uncached screening parsed lookup handles =>
    obtain ⟨stores, origin⟩ := handleUncached_storesOwn handles
    exact .missed parsed lookup origin stores

/-! Runs. -/

namespace LatencyEngine

variable {s t : LatencyEngine} {asked : Set Value} {calls : List CacheCall} {value : Value}
  {now : Nat}

/-- The law is about the caches alone. -/
theorem Lawful.congr (lawful : Lawful lib asked calls s) (same : t.caches = s.caches) :
    Lawful lib asked calls t := by
  constructor
  · rw [same]
    exact lawful.stored
  · rw [same]
    exact lawful.held

/-- A lookup, whatever it finds, and then a store, if there is one. -/
theorem Lawful.storing {stored : Option Value} (printing : Set.InjOn lib.toString asked)
    (lawful : Lawful lib asked calls s) (member : params ∈ asked) :
    Lawful lib asked (calls ++ stored.toList.map fun value => .setCache method params value now)
      (s.storing lib method params stored now) := by
  cases stored with
  | none => simpa [LatencyEngine.storing] using lawful
  | some value => exact lawful.setCache printing member

/-- What a lookup answers from. -/
theorem Lawful.live_iff (lawful : Lawful lib asked calls s)
    (printing : Set.InjOn lib.toString asked) (member : params ∈ asked)
    (passed : ∀ call ∈ calls, call.instant ≤ now) :
    (s.live lib method params now).map CacheEntry.value = some value ↔
      CacheTtl.getCacheTier method ≠ none ∧ ∃ storedAt ttl, CacheTtl.getTtl method = some ttl ∧
        LatestStore calls method params value storedAt ∧ now - storedAt < ttl := by
  rw [Option.map_eq_some_iff]
  constructor
  · rintro ⟨entry, live, rfl⟩
    obtain ⟨tier, tiered, stored⟩ := live_stored live
    obtain ⟨method', params', asked', has, named, lives, latest⟩ := lawful.stored _ _ _ stored
    obtain ⟨rfl, printed⟩ := buildCacheKey_inj tiered has named
    obtain rfl := printing member asked' printed
    exact ⟨by simp [tiered], entry.cachedAt, entry.ttl, lives, latest, live_young live⟩
  · rintro ⟨tiered, storedAt, ttl, lives, latest, young⟩
    obtain ⟨tier, tiered⟩ := Option.ne_none_iff_exists'.mp tiered
    obtain ⟨hits, stored⟩ := lawful.held method params value storedAt tier ttl now member latest
      tiered lives passed young
    exact ⟨⟨value, storedAt, ttl, hits⟩, by simp [live, tiered, stored, young], rfl⟩

end LatencyEngine

namespace Process

variable {config : Config} {walletTracker : Option WalletRewardTracker} {batteryMode : Bool}
  {p p' : Process} {done events : List ProcessEvent} {event : ProcessEvent} {asked : Set Value}

/-- The params that the requests ask with. -/
def askedParams (lib : Serde) (calls : List ProcessCall) : Set Value :=
  {params | ∃ call ∈ calls, call.params lib = some params}

theorem params_of_parsed (parsed : parseBody lib req.body = .ok (bodyStr, rpcReq)) :
    (ProcessCall.request env req).params lib = some (requestParams rpcReq) := by
  simp only [ProcessCall.params, parsed]

theorem cacheCalls_of_parsed (answer : ProcessAnswer)
    (parsed : parseBody lib req.body = .ok (bodyStr, rpcReq)) :
    ProcessEvent.cacheCalls lib ⟨.request env req, some answer⟩ =
      [.getCached (requestMethod rpcReq) (requestParams rpcReq) env.cacheInstant] ++
        (answer.stored lib env).toList.map fun value =>
          .setCache (requestMethod rpcReq) (requestParams rpcReq) value env.storeInstant := by
  simp only [ProcessEvent.cacheCalls, parsed, List.singleton_append]

theorem not_stored {answer : ProcessAnswer}
    (origin : answer.origin = .refused ∨ answer.origin = .cacheHit) :
    answer.stored lib env = none := by
  rcases origin with origin | origin
  · simp only [ProcessAnswer.stored, origin]
  · simp only [ProcessAnswer.stored, origin]

/-- A lookup that changes nothing. -/
theorem lawful_turnedAway {s : LatencyEngine} {calls : List CacheCall} {answer : ProcessAnswer}
    (lawful : s.Lawful lib asked calls) (origin : answer.origin = .refused) :
    s.Lawful lib asked
      (calls ++ ProcessEvent.cacheCalls lib ⟨.request env req, some answer⟩) := by
  cases parsed : parseBody lib req.body with
  | error response => simpa [ProcessEvent.cacheCalls, parsed] using lawful
  | ok read =>
    obtain ⟨bodyStr, rpcReq⟩ := read
    rw [cacheCalls_of_parsed answer parsed, not_stored (.inl origin)]
    exact lawful.retains (LatencyEngine.retains_refl _ s) nofun

/-- One event keeps the law. -/
theorem step_lawful (printing : Set.InjOn lib.toString asked)
    (member : ∀ params, event.call.params lib = some params → params ∈ asked)
    (lawful : p.shared.latencyEngine.Lawful lib asked
      (done.flatMap (ProcessEvent.cacheCalls lib)))
    (step : p.Performs lib event p') :
    p'.shared.latencyEngine.Lawful lib asked
      ((done ++ [event]).flatMap (ProcessEvent.cacheCalls lib)) := by
  rw [List.flatMap_append, List.flatMap_singleton]
  cases step.took with
  | @request env req h handled =>
    have looks {engine : LatencyEngine} {rpcReq : Value} {found : Option Value}
        (lookup : p.shared.latencyEngine.getCached lib (requestMethod rpcReq)
          (requestParams rpcReq) env.cacheInstant = .ok (engine, found)) :
        engine.Lawful lib asked (done.flatMap (ProcessEvent.cacheCalls lib) ++
          [.getCached (requestMethod rpcReq) (requestParams rpcReq) env.cacheInstant]) := by
      have kept : LatencyEngine.Retains
          (CacheCall.getCached (requestMethod rpcReq) (requestParams rpcReq)
            env.cacheInstant).instant p.shared.latencyEngine engine :=
        LatencyEngine.getCached_retains lookup
      exact lawful.retains kept nofun
    cases rpcHandler_caches handled with
    | turnedAway origin effects same =>
      exact lawful_turnedAway (lawful.congr (congrArg LatencyEngine.caches same)) origin
    | hit parsed lookup origin response same =>
      rw [cacheCalls_of_parsed h.answer parsed, not_stored (.inr origin)]
      exact (looks lookup).congr same
    | missed parsed lookup origin stores =>
      rw [cacheCalls_of_parsed h.answer parsed, ← List.append_assoc]
      have asks := member _ (params_of_parsed parsed)
      exact ((looks lookup).storing printing asks).congr stores
  | cleanup cleaned => simpa [ProcessEvent.cacheCalls] using lawful
  | @evictExpired now engine evicted =>
    have kept : LatencyEngine.Retains (CacheCall.evictExpired now).instant
        p.shared.latencyEngine engine := LatencyEngine.evictTiers_retains evicted
    exact lawful.retains kept nofun
  | slotReply => simpa [ProcessEvent.cacheCalls] using lawful

theorem cacheCalls_instants (event : ProcessEvent) :
    ∀ call ∈ event.cacheCalls lib, call.instant ∈ event.call.instants := by
  obtain ⟨call, answer⟩ := event
  cases call with
  | request env req =>
    cases answer with
    | none => simp [ProcessEvent.cacheCalls]
    | some answer =>
      cases parsed : parseBody lib req.body with
      | error response => simp [ProcessEvent.cacheCalls, parsed]
      | ok read =>
        rw [cacheCalls_of_parsed answer parsed]
        simp [ProcessCall.instants, CacheCall.instant]
  | cleanup now => simp [ProcessEvent.cacheCalls]
  | evictExpired now =>
    simp [ProcessEvent.cacheCalls, ProcessCall.instants, CacheCall.instant]
  | slotReply reply => simp [ProcessEvent.cacheCalls]

/-- The history invariant. -/
theorem run_lawful (printing : Set.InjOn lib.toString asked)
    (run : Run (Performs lib) (start config walletTracker batteryMode) events p)
    (member : ∀ event ∈ events, ∀ params, event.call.params lib = some params → params ∈ asked) :
    p.shared.latencyEngine.Lawful lib asked (events.flatMap (ProcessEvent.cacheCalls lib)) := by
  let J (done : List ProcessEvent) (p : Process) : Prop :=
    (∀ event ∈ done, ∀ params, event.call.params lib = some params → params ∈ asked) →
      p.shared.latencyEngine.Lawful lib asked (done.flatMap (ProcessEvent.cacheCalls lib))
  have keeps (done : List ProcessEvent) (p : Process) (event : ProcessEvent) (p' : Process)
      (before : J done p) (step : p.Performs lib event p') : J (done ++ [event]) p' := by
    intro asks
    obtain ⟨earlier, own⟩ := List.forall_mem_append.mp asks
    exact step_lawful printing (own event List.mem_cons_self) (before earlier) step
  have empty : J [] (start config walletTracker batteryMode) := by
    refine fun _ => ⟨nofun, ?_⟩
    rintro _ _ _ _ _ _ _ _ ⟨before, after, split, _⟩
    simp at split
  exact run.history keeps empty member

/-- Calls on the caches come in the order of the clock. -/
theorem cacheCalls_passed {before after : List ProcessEvent}
    (ordered : (((before ++ event :: after).map ProcessEvent.call).flatMap
      ProcessCall.instants).Pairwise (· ≤ ·)) :
    ∀ call ∈ before.flatMap (ProcessEvent.cacheCalls lib), ∀ now ∈ event.call.instants,
      call.instant ≤ now := by
  rw [List.map_append, List.flatMap_append] at ordered
  obtain ⟨_, _, across⟩ := List.pairwise_append.mp ordered
  intro call called now read
  obtain ⟨earlier, member, own⟩ := List.mem_flatMap.mp called
  refine across call.instant ?_ now ?_
  · exact List.mem_flatMap.mpr ⟨earlier.call, List.mem_map_of_mem member,
      cacheCalls_instants earlier call own⟩
  · exact List.mem_flatMap.mpr ⟨event.call, by simp, read⟩

/-- A request that gets to the caches is answered from them exactly with the latest value stored
for its method and equal params, if that is younger than the method's time to live. -/
theorem cached_reply_law (lib : Serde) (config : Config)
    (walletTracker : Option WalletRewardTracker) (batteryMode : Bool) (calls : List ProcessCall)
    (printing : Set.InjOn lib.toString (askedParams lib calls))
    (ordered : (calls.flatMap ProcessCall.instants).Pairwise (· ≤ ·)) :
    ∀ before env req answer after bodyStr rpcReq,
      (start config walletTracker batteryMode).observe lib calls =
        before ++ ⟨.request env req, some answer⟩ :: after →
      parseBody lib req.body = .ok (bodyStr, rpcReq) →
      answer.origin ≠ .refused ∨ answer.effects ≠ [] →
      ∀ value, answer.origin = .cacheHit ∧ answer.response = .of 200 (.json value) ↔
        Recent lib before (requestMethod rpcReq) (requestParams rpcReq) env.cacheInstant
          value := by
  intro before env req answer after bodyStr rpcReq observed parsed admitted value
  obtain ⟨⟨p', run⟩, sub⟩ := observe_run lib (start config walletTracker batteryMode) calls
  have inOrder := ordered.sublist (observed_sublist lib
    (start config walletTracker batteryMode) calls ProcessCall.instants)
  rw [observed] at run sub inOrder
  have asked : ∀ event ∈ before ++ ⟨.request env req, some answer⟩ :: after, ∀ params,
      event.call.params lib = some params → params ∈ askedParams lib calls :=
    fun event member params own => ⟨event.call, sub.subset (List.mem_map_of_mem member), own⟩
  have member : requestParams rpcReq ∈ askedParams lib calls :=
    asked ⟨.request env req, some answer⟩ (by simp) _ (params_of_parsed parsed)
  obtain ⟨p, first, rest⟩ := run_append_iff.mp run
  obtain ⟨_, step, _⟩ := run_cons_iff.mp rest
  have lawful := run_lawful printing first fun event member =>
    asked event (List.mem_append_left _ member)
  have passed : ∀ call ∈ before.flatMap (ProcessEvent.cacheCalls lib),
      call.instant ≤ env.cacheInstant := fun call called =>
    cacheCalls_passed inOrder call called env.cacheInstant (by simp [ProcessCall.instants])
  unfold Recent
  rw [← lawful.live_iff printing member passed]
  cases step.took with
  | @request _ _ h handled =>
    cases rpcHandler_caches handled with
    | turnedAway origin effects same =>
      exact absurd admitted (not_or.mpr ⟨fun passed => passed origin, fun posts => posts effects⟩)
    | hit parsed' lookup origin response same =>
      obtain ⟨rfl, rfl⟩ := Prod.mk.inj (Except.ok.inj (parsed.symm.trans parsed'))
      obtain ⟨found, _⟩ := LatencyEngine.getCached_ok lookup
      rw [← found, Option.some.injEq]
      constructor
      · rintro ⟨_, served⟩
        obtain same := response.symm.trans served
        simpa [Response.of] using same
      · rintro rfl
        exact ⟨origin, response⟩
    | missed parsed' lookup origin stores =>
      obtain ⟨rfl, rfl⟩ := Prod.mk.inj (Except.ok.inj (parsed.symm.trans parsed'))
      obtain ⟨found, _⟩ := LatencyEngine.getCached_ok lookup
      rw [← found]
      exact iff_of_false (fun served => origin served.1) (Option.some_ne_none value ∘ Eq.symm)

/-! Two clients that ask for the same balance one nanosecond apart. -/

theorem secondBalance_hit {s : SharedState} (balance : BalanceStored balanceSerde s) :
    ∃ h, rpcHandler balanceSerde secondBalance.env s secondBalance.request = .ok h ∧
      h.answer.origin = .cacheHit ∧ h.answer.response = .of 200 (.json balanceReply) := by
  obtain ⟨h, handled, hit, own⟩ := secondBalance_handled balanceSerde_reads balance
  refine ⟨h, handled, hit, ?_⟩
  cases rpcHandler_caches handled with
  | turnedAway origin effects same => cases hit.symm.trans origin
  | hit parsed lookup origin response same =>
    rw [ownReply_json (by simp [origin]) (by simp [origin]) response] at own
    obtain rfl := Option.some.inj own
    exact response
  | missed parsed lookup origin stores => exact absurd hit origin

def twoBalances : List ProcessCall :=
  [.request firstBalance.env firstBalance.request, .request secondBalance.env secondBalance.request]

theorem twoBalances_params {params : Value}
    (asked : params ∈ askedParams balanceSerde twoBalances) :
    params = requestParams (balanceCall 1) := by
  obtain ⟨call, member, own⟩ := asked
  simp only [twoBalances, List.mem_cons, List.not_mem_nil, or_false] at member
  rcases member with rfl | rfl
  · rw [params_of_parsed (firstBalance_parsed balanceSerde_reads.first)] at own
    exact (Option.some.inj own).symm
  · rw [params_of_parsed (secondBalance_parsed balanceSerde_reads.second)] at own
    exact (Option.some.inj own).symm

theorem cached_reply_law_balance : ∃ first second,
    (start devnetConfig none false).observe balanceSerde twoBalances =
      [⟨.request firstBalance.env firstBalance.request, some first⟩,
        ⟨.request secondBalance.env secondBalance.request, some second⟩] ∧
    second.origin = .cacheHit ∧
    Recent balanceSerde [⟨.request firstBalance.env firstBalance.request, some first⟩] "getBalance"
      (requestParams (balanceCall 2)) secondBalance.env.cacheInstant balanceReply := by
  obtain ⟨h₁, handled₁, balance⟩ := firstBalance_handled balanceSerde_reads
  obtain ⟨h₂, handled₂, origin, response⟩ := secondBalance_hit balance
  have observed : (start devnetConfig none false).observe balanceSerde twoBalances =
      [⟨.request firstBalance.env firstBalance.request, some h₁.answer⟩,
        ⟨.request secondBalance.env secondBalance.request, some h₂.answer⟩] := by
    let p := start devnetConfig none false
    have first : rpcHandler balanceSerde
        { firstBalance.env with currentSlot := p.slotCache.currentSlot } p.shared
        firstBalance.request = .ok h₁ := handled₁
    have second : rpcHandler balanceSerde
        { secondBalance.env with currentSlot := p.slotCache.currentSlot } h₁.state
        secondBalance.request = .ok h₂ := handled₂
    rw [twoBalances, observe_request first,
      observe_request (p := { p with shared := h₁.state }) second]
    rfl
  refine ⟨h₁.answer, h₂.answer, observed, origin, ?_⟩
  exact (cached_reply_law balanceSerde devnetConfig none false twoBalances
    (fun x asked y asked' _ => (twoBalances_params asked).trans (twoBalances_params asked').symm)
    (by decide) _ _ _ _ _ _ _ observed (secondBalance_parsed balanceSerde_reads.second)
    (.inl (by simp [origin])) balanceReply).mp ⟨origin, response⟩

end Process

end Solnet.Daemon
