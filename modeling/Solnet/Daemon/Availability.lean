import Solnet.Daemon.ExitClients
import Solnet.Daemon.Process
import Solnet.Daemon.RateLimits
import Solnet.Daemon.ResponseCache
import Solnet.Daemon.Selection
import Solnet.Lib.Outcomes

/-! Every request is answered. The counters of the daemon stay within what their 64 bits hold,
so its checked arithmetic halts it nowhere; what can halt it is one answer of the verification
service. -/
namespace Solnet.Daemon
open Fallible

/-- The first eight bytes of the hash of a valid verdict end inside a character. -/
def BrahmanReply.cutsHash : BrahmanReply → Bool
  | .replied result =>
    let logicHash := (result.index "logic_hash").asStr.getD ""
    (result.index "verdict").asStr.getD "AMBIGUOUS" = "VALID" &&
      (8 ≤ logicHash.utf8ByteSize && !isCharBoundary 8 logicHash.toList)
  | _ => false

namespace ProcessCall

def isRequest : ProcessCall → Bool
  | .request _ _ => true
  | _ => false

/-- The latency that the handling of a request measures. -/
def latencyUs : ProcessCall → Nat
  | .request env _ => env.latencyUs
  | _ => 0

/-- The call is a request that meets a verdict with such a hash. -/
def cutsHash : ProcessCall → Bool
  | .request env _ => env.brahmanReply.cutsHash
  | _ => false

end ProcessCall

/-! The parts of the state. -/

namespace AttackPrevention

variable {s : AttackPrevention} {n clock now : Nat}

theorem Within.mono {m : Nat} (bound : Within n clock s) (more : n ≤ m) (passes : clock ≤ now) :
    Within m now s where
  started ip record found := (bound.started ip record found).trans passes
  seen ip record found := (bound.seen ip record found).trans passes
  counted ip record found := (bound.counted ip record found).trans more

theorem Within.isBanned (bound : Within n clock s) (client : String) (now : Nat) :
    Within n clock (s.isBanned client now).1 where
  started ip record found := bound.started ip record (isBanned_fst_requests s client now ▸ found)
  seen ip record found := bound.seen ip record (isBanned_fst_requests s client now ▸ found)
  counted ip record found := bound.counted ip record (isBanned_fst_requests s client now ▸ found)

end AttackPrevention

namespace LatencyEngine

/-- So many hits, so many latencies recorded, and so much latency in all. -/
structure MetricsWithin (hits answers spent : Nat) (metrics : MethodMetrics) : Prop where
  cacheHits : metrics.cacheHits ≤ hits
  requests : metrics.totalRequests ≤ answers
  latency : metrics.totalLatencyUs ≤ spent

structure Bounded (hits answers spent : Nat) (s : LatencyEngine) : Prop where
  entries : ∀ tier, Table.Holds (fun _ entry => entry.hits ≤ hits) (s.caches tier)
  metrics : Table.Holds (fun _ metrics => MetricsWithin hits answers spent metrics) s.latencyMetrics

variable {lib : Serde} {s : LatencyEngine} {method : String} {params value : Value}
  {hits answers spent hits' answers' spent' now latencyUs : Nat}

theorem MetricsWithin.mono {metrics : MethodMetrics}
    (within : MetricsWithin hits answers spent metrics) (more : hits ≤ hits')
    (others : answers ≤ answers') (longer : spent ≤ spent') :
    MetricsWithin hits' answers' spent' metrics :=
  ⟨within.cacheHits.trans more, within.requests.trans others, within.latency.trans longer⟩

theorem Bounded.mono (bounded : s.Bounded hits answers spent) (more : hits ≤ hits')
    (others : answers ≤ answers') (longer : spent ≤ spent') :
    s.Bounded hits' answers' spent' where
  entries tier key entry stored := (bounded.entries tier key entry stored).trans more
  metrics method metrics stored :=
    (bounded.metrics method metrics stored).mono more others longer

theorem Bounded.withCache {cache : Table String CacheEntry}
    (bounded : s.Bounded hits answers spent)
    (here : Table.Holds (fun _ entry => entry.hits ≤ hits) cache) (tier : CacheTier) :
    (s.withCache tier cache).Bounded hits answers spent where
  entries t key entry stored := by
    rw [lookup_withCache] at stored
    split at stored
    · exact here key entry stored
    · exact bounded.entries t key entry stored
  metrics := bounded.metrics

theorem Bounded.known (bounded : s.Bounded hits answers spent) (method : String) :
    MetricsWithin hits answers spent ((s.latencyMetrics.lookup method).getD .default) := by
  cases stored : s.latencyMetrics.lookup method with
  | none => exact ⟨Nat.zero_le hits, Nat.zero_le answers, Nat.zero_le spent⟩
  | some metrics => exact bounded.metrics method metrics stored

theorem Bounded.getCached (bounded : s.Bounded hits answers spent) (room : hits + 1 < 2 ^ 64) :
    Answers (fun x => x.1.Bounded (hits + 1) answers spent)
      (s.getCached lib method params now) := by
  have more := bounded.mono (Nat.le_succ hits) (Nat.le_refl answers) (Nat.le_refl spent)
  unfold LatencyEngine.getCached
  dsimp only
  split
  · exact .pure more
  · rename_i tier _
    split
    · exact .pure more
    · rename_i entry stored
      split
      · have few := bounded.entries tier _ entry stored
        have known := bounded.known method
        refine (answers_addWithin (by omega)).bind ?_
        rintro _ rfl
        refine (answers_addWithin (by have := known.cacheHits; omega)).bind ?_
        rintro _ rfl
        have counted := more.withCache ((more.entries tier).insert
          (a := buildCacheKey lib method params) (b := { entry with hits := entry.hits + 1 })
          (Nat.succ_le_succ few)) tier
        exact .pure ⟨counted.entries, counted.metrics.insert
          ⟨Nat.succ_le_succ known.cacheHits, known.requests, known.latency⟩⟩
      · exact .pure (more.withCache (more.entries tier).erase tier)

theorem Bounded.setCache (bounded : s.Bounded hits answers spent) (method : String)
    (params value : Value) (now : Nat) :
    (s.setCache lib method params value now).Bounded hits answers spent := by
  unfold LatencyEngine.setCache
  split
  · exact bounded
  · split
    · exact bounded
    · exact bounded.withCache ((bounded.entries _).insert (Nat.zero_le hits)) _

theorem Bounded.recordLatency (bounded : s.Bounded hits answers spent)
    (room : answers + 1 < 2 ^ 64) (fits : spent + latencyUs < 2 ^ 64) :
    Answers (Bounded hits (answers + 1) (spent + latencyUs))
      (s.recordLatency method latencyUs) := by
  have more := bounded.mono (Nat.le_refl hits) (Nat.le_succ answers)
    (Nat.le_add_right spent latencyUs)
  have known := bounded.known method
  refine (answers_addWithin (by have := known.requests; omega)).bind ?_
  rintro _ rfl
  refine (answers_addWithin (by have := known.latency; omega)).bind ?_
  rintro _ rfl
  exact .pure ⟨more.entries, more.metrics.insert ⟨known.cacheHits,
    Nat.succ_le_succ known.requests, Nat.add_le_add_right known.latency latencyUs⟩⟩

theorem Bounded.evictTiers (bounded : s.Bounded hits answers spent) (now : Nat)
    (tiers : List CacheTier) :
    Answers (Bounded hits answers spent) (tiers.foldlM (evictTier now) s) := by
  induction tiers generalizing s with
  | nil => exact .pure bounded
  | cons tier tiers ih =>
    rw [List.foldlM_cons]
    obtain ⟨cache, retained, evicted⟩ := s.evictTier_answers tier now
    rw [evicted, bind_of_ok]
    exact ih (bounded.withCache ((bounded.entries tier).retain retained) tier)

end LatencyEngine

namespace LoadBalancer

/-- No average is above what a tenth of the range holds, for every latency in milliseconds is
below it. -/
structure Calm (s : LoadBalancer) : Prop where
  strategy : s.strategy = .adaptive
  nodes : ∀ node ∈ s.nodes, node.currentConnections = 0 ∧ node.avgLatencyMs ≤ 2 ^ 64 / 1000

variable {s : LoadBalancer} {updated : List LoadBalancerNode} {endpoint : String}

theorem Calm.selectNode (calm : s.Calm) (random : UInt32) :
    Answers (fun x => x.1 = s) (s.selectNode random) := by
  unfold LoadBalancer.selectNode
  split
  · exact .pure rfl
  · rename_i first rest alive
    have none : ((first :: rest).map LoadBalancerNode.currentConnections).sum = 0 := by
      refine List.sum_eq_zero fun n member => ?_
      obtain ⟨node, held, rfl⟩ := List.mem_map.mp member
      rw [← alive] at held
      exact (calm.nodes node (List.mem_of_mem_filter held)).1
    have summed : (first :: rest).foldlM
        (fun sum node => checkedAdd 64 sum node.currentConnections) 0 = .ok 0 := by
      rw [sum_eq (by omega), none]
    simp only [calm.strategy]
    rw [summed, bind_of_ok]
    exact .pure rfl

theorem updateFirst_answers {P : LoadBalancerNode → Prop} {nodes : List LoadBalancerNode}
    {update : LoadBalancerNode → Checked LoadBalancerNode}
    (updates : ∀ node, P node → Answers P (update node)) (all : ∀ node ∈ nodes, P node) :
    Answers (fun updated => ∀ node ∈ updated, P node) (updateFirst endpoint update nodes) := by
  induction nodes with
  | nil => exact .pure all
  | cons node rest ih =>
    obtain ⟨here, others⟩ := List.forall_mem_cons.mp all
    rw [updateFirst]
    split
    · exact (updates node here).bind fun node' here' =>
        .pure (List.forall_mem_cons.mpr ⟨here', others⟩)
    · exact (ih others).bind fun rest' others' =>
        .pure (List.forall_mem_cons.mpr ⟨here, others'⟩)

theorem Calm.recordError (calm : s.Calm) (endpoint : String) :
    Answers Calm (s.recordError endpoint) := by
  refine (updateFirst_answers ?_ calm.nodes).bind fun _ all => .pure ⟨calm.strategy, all⟩
  exact fun node kept => .pure kept

theorem Calm.recordSuccess {latencyMs : Nat} (calm : s.Calm) (endpoint : String)
    (short : latencyMs ≤ 2 ^ 64 / 1000) : Answers Calm (s.recordSuccess endpoint latencyMs) := by
  refine (updateFirst_answers ?_ calm.nodes).bind fun _ all => .pure ⟨calm.strategy, all⟩
  rintro node ⟨idle, quick⟩
  refine (answers_addWithin (by omega)).bind ?_
  rintro _ rfl
  exact .pure ⟨idle, by dsimp only; omega⟩

end LoadBalancer

/-! The handler. -/

/-- So many checks of the limiter, answers from a cache, latencies recorded and rewards, with
the latency in all and the last reading of the clock. -/
structure Load where
  checks : Nat
  hits : Nat
  recorded : Nat
  latencyUs : Nat
  rewards : Nat
  clock : Nat

namespace Load

structure Below (t t' : Load) : Prop where
  checks : t.checks ≤ t'.checks
  hits : t.hits ≤ t'.hits
  recorded : t.recorded ≤ t'.recorded
  latency : t.latencyUs ≤ t'.latencyUs
  rewards : t.rewards ≤ t'.rewards
  clock : t.clock ≤ t'.clock

/-- At most so many requests of each kind. -/
def after (calls latencyUs clock : Nat) : Load := ⟨calls, calls, calls, latencyUs, calls, clock⟩

/-- One latency more. -/
def measured (t : Load) (latencyUs : Nat) : Load :=
  { t with recorded := t.recorded + 1, latencyUs := t.latencyUs + latencyUs }

/-- One reward more. -/
def rewarded (t : Load) : Load := { t with rewards := t.rewards + 1 }

theorem below_measured (t : Load) (latencyUs : Nat) : t.Below (t.measured latencyUs) :=
  ⟨Nat.le_refl _, Nat.le_refl _, Nat.le_succ _, Nat.le_add_right _ _, Nat.le_refl _, Nat.le_refl _⟩

theorem below_rewarded (t : Load) : t.Below t.rewarded :=
  ⟨Nat.le_refl _, Nat.le_refl _, Nat.le_refl _, Nat.le_refl _, Nat.le_succ _, Nat.le_refl _⟩

end Load

structure SharedState.Within (t : Load) (s : SharedState) : Prop where
  limiter : s.attackPrevention.Within t.checks t.clock
  permits : 0 < s.parallelExecutor.globalPermits
  balancer : s.loadBalancer.Calm
  engine : s.latencyEngine.Bounded t.hits t.recorded t.latencyUs
  rewards : ∀ tracker, s.walletTracker = some tracker → tracker.pendingLamports ≤ 100 * t.rewards

theorem SharedState.Within.mono {t t' : Load} {s : SharedState} (within : s.Within t)
    (below : t.Below t') : s.Within t' where
  limiter := within.limiter.mono below.checks below.clock
  permits := within.permits
  balancer := within.balancer
  engine := within.engine.mono below.hits below.recorded below.latency
  rewards tracker held :=
    (within.rewards tracker held).trans (Nat.mul_le_mul_left 100 below.rewards)

/-- There is room for one answer more. -/
structure Load.Room (t : Load) (latencyUs : Nat) : Prop where
  recorded : t.recorded + 1 < 2 ^ 64
  latency : t.latencyUs + latencyUs < 2 ^ 64
  rewards : 100 * (t.rewards + 1) < 2 ^ 64

variable {lib : Serde} {env : Env} {s : SharedState} {req : Request} {bodyStr method : String}
  {params rpcReq : Value} {effects : List Effect} {t : Load}

theorem screenClient_answers {checks clock : Nat} (limiter : s.attackPrevention.Within checks clock)
    (passes : clock ≤ env.banCheckSecs) (ordered : env.banCheckSecs ≤ env.rateSecs)
    (room : checks + 1 < 2 ^ 64) (fits : env.banSecs + 86400 < 2 ^ 64) :
    Answers (fun x => x.2.1.Within (checks + 1) env.rateSecs) (screenClient env s req) := by
  rw [screenClient_eq]
  split
  · refine .bind (P := fun x => x.1.Within (checks + 1) env.rateSecs) ?_ fun _ after => .pure after
    have asked := limiter.isBanned (extractIp req) env.banCheckSecs
    unfold checkClient
    generalize s.attackPrevention.isBanned (extractIp req) env.banCheckSecs = x at asked
    obtain ⟨prevention, banned⟩ := x
    cases banned with
    | true => exact .pure (asked.mono (Nat.le_succ checks) (passes.trans ordered))
    | false =>
      obtain ⟨after, result, checked, within⟩ :=
        asked.checkRateLimit (passes.trans ordered) room fits
      exact ⟨(after, result), checked, within⟩
  · exact .pure (limiter.mono (Nat.le_succ checks) (passes.trans ordered))

theorem recordRequest_answers (within : s.Within t) (room : 100 * (t.rewards + 1) < 2 ^ 64) :
    Answers (SharedState.Within t.rewarded) (recordRequest s) := by
  unfold recordRequest
  split
  · exact .pure (within.mono t.below_rewarded)
  · rename_i tracker held
    have few := within.rewards tracker held
    refine .bind (P := fun tracker => tracker.pendingLamports ≤ 100 * (t.rewards + 1)) ?_ ?_
    · refine (answers_addWithin (by omega)).bind ?_
      rintro _ rfl
      exact .pure (Nat.add_le_add_right few 100)
    · intro tracker counted
      exact .pure { within with rewards := fun _ same => Option.some.inj same ▸ counted }

theorem serveCached_answers (within : s.Within t) (room : t.Room env.latencyUs) (cached : Value) :
    Answers (fun h => h.state.Within (t.measured env.latencyUs).rewarded)
      (serveCached env s method cached) := by
  refine (within.engine.recordLatency room.recorded room.latency).bind fun engine recorded => ?_
  refine .bind (recordRequest_answers (t := t.measured env.latencyUs) ?_ room.rewards) ?_
  · exact { within with engine := recorded }
  · exact fun _ after => .pure after

theorem interceptGetSlot_answers (within : s.Within t) (room : t.Room env.latencyUs) :
    Answers (fun h => h.state.Within (t.measured env.latencyUs).rewarded)
      (interceptGetSlot lib env s method params rpcReq effects) := by
  refine (within.engine.recordLatency room.recorded room.latency).bind fun engine recorded => ?_
  refine .bind (recordRequest_answers (t := t.measured env.latencyUs) ?_ room.rewards) ?_
  · exact { within with engine := recorded.setCache _ _ _ _ }
  · exact fun _ after => .pure after

theorem postUpstream_answers (within : s.Within t) (room : t.Room env.latencyUs)
    (upstreamRpc : String) :
    Answers (fun h => h.state.Within (t.measured env.latencyUs).rewarded)
      (postUpstream lib env s upstreamRpc method params effects) := by
  have short : env.latencyUs / 1000 ≤ 2 ^ 64 / 1000 := by
    have fits := room.latency
    omega
  unfold postUpstream
  split
  · refine (within.balancer.recordError upstreamRpc).bind fun balancer calm => .pure ?_
    have failed : SharedState.Within t { s with
        loadBalancer := balancer
        circuitBreaker := s.circuitBreaker.recordFailure env.failureSecs } :=
      { within with balancer := calm }
    exact (failed.mono (t.below_measured env.latencyUs)).mono (Load.below_rewarded _)
  · refine (within.engine.recordLatency room.recorded room.latency).bind fun engine recorded => ?_
    refine (within.balancer.recordSuccess upstreamRpc short).bind fun balancer calm => ?_
    have posted : SharedState.Within (t.measured env.latencyUs) { s with
        latencyEngine := engine, loadBalancer := balancer } :=
      { within with engine := recorded, balancer := calm }
    dsimp only
    split
    · exact .pure (posted.mono (Load.below_rewarded _))
    · refine .bind (recordRequest_answers (t := t.measured env.latencyUs) ?_ room.rewards) ?_
      · exact { posted with }
      · intro after counted
        split
        · exact .pure counted
        · exact .pure { counted with engine := counted.engine.setCache _ _ _ _ }

/-- What halts a request. -/
def CutsHash (env : Env) (halt : Halt) : Prop :=
  halt = .slicePanic ∧ env.brahmanReply.cutsHash = true

theorem verifyWithBrahman_ends :
    Ends (fun _ => True) (CutsHash env)
      (verifyWithBrahman lib method params env.brahmanReply) := by
  unfold verifyWithBrahman
  split
  · exact .ok trivial
  · dsimp only
    split
    · exact .ok trivial
    · exact .ok trivial
    · rename_i result replied
      split
      · rename_i valid
        split
        · rename_i cut
          refine .error ⟨rfl, ?_⟩
          simp only [BrahmanReply.cutsHash, replied, valid, decide_true, Bool.true_and,
            Bool.and_eq_true, decide_eq_true_eq, Bool.not_eq_true']
          exact cut
        · exact .ok trivial
      · split
        · exact .ok trivial
        · exact .ok trivial

theorem forwardUpstream_ends (within : s.Within t) (room : t.Room env.latencyUs) :
    Ends (fun h => h.state.Within (t.measured env.latencyUs).rewarded) (CutsHash env)
      (forwardUpstream lib env s bodyStr method params effects) := by
  have refused := (within.mono (t.below_measured env.latencyUs)).mono (Load.below_rewarded _)
  unfold forwardUpstream
  split
  · exact .ok refused
  · refine (within.balancer.selectNode env.random).ends.bind ?_
    rintro ⟨balancer, selected⟩ same
    obtain rfl : balancer = s.loadBalancer := same
    refine verifyWithBrahman_ends.bind ?_
    rintro ⟨submission, verified⟩ -
    dsimp only
    split
    · exact .ok refused
    · exact (postUpstream_answers within room _).ends

theorem processRequest_ends (within : s.Within t) (room : t.Room env.latencyUs) :
    Ends (fun h => h.state.Within (t.measured env.latencyUs).rewarded) (CutsHash env)
      (processRequest lib env s bodyStr method params rpcReq effects) := by
  have counted : SharedState.Within t { s with
      attackPrevention := s.attackPrevention.incrementTotal } :=
    { within with limiter := ⟨within.limiter.started, within.limiter.seen, within.limiter.counted⟩ }
  unfold processRequest
  dsimp only
  split
  · exact (interceptGetSlot_answers counted room).ends
  · exact forwardUpstream_ends counted room

theorem acquire_answers {executor : ParallelExecutor} (permits : 0 < executor.globalPermits)
    (accountKey : Option String) :
    Answers (fun after => 0 < after.globalPermits) (executor.acquire accountKey) := by
  unfold ParallelExecutor.acquire
  rw [if_neg (Nat.pos_iff_ne_zero.mp permits)]
  split
  · split
    · exact .pure permits
    · exact .pure permits
  · exact .pure permits

theorem handleUncached_ends (within : s.Within t) (room : t.Room env.latencyUs) :
    Ends (fun h => h.state.Within (t.measured env.latencyUs).rewarded) (CutsHash env)
      (handleUncached lib env s req bodyStr rpcReq) := by
  refine (acquire_answers within.permits _).ends.bind fun executor permits => ?_
  have acquired : SharedState.Within t { s with parallelExecutor := executor } :=
    { within with permits := permits }
  dsimp only
  split
  · exact processRequest_ends acquired room
  · split
    · exact .ok ((acquired.mono (t.below_measured env.latencyUs)).mono (Load.below_rewarded _))
    · exact processRequest_ends acquired room

/-- A request counts once in each place at most. -/
theorem rpcHandler_ends (env : Env) {n spent clock : Nat} (within : s.Within (.after n spent clock))
    (passes : clock ≤ env.banCheckSecs) (ordered : env.banCheckSecs ≤ env.rateSecs)
    (few : 100 * (n + 1) < 2 ^ 64) (spends : spent + env.latencyUs < 2 ^ 64)
    (fits : env.banSecs + 86400 < 2 ^ 64) :
    Ends (fun h => h.state.Within (.after (n + 1) (spent + env.latencyUs) env.rateSecs))
      (CutsHash env) (rpcHandler lib env s req) := by
  have counts : n + 1 < 2 ^ 64 := by omega
  have room : Load.Room ⟨n + 1, n + 1, n, spent, n, env.rateSecs⟩ env.latencyUs :=
    ⟨counts, spends, few⟩
  refine (screenClient_answers within.limiter passes ordered counts fits).ends.bind ?_
  rintro ⟨battery, prevention, refusal⟩ checked
  have screened : SharedState.Within ⟨n + 1, n, n, spent, n, env.rateSecs⟩ { s with
      batteryGuard := battery, attackPrevention := prevention } :=
    { within with limiter := checked }
  have refused : SharedState.Within (.after (n + 1) (spent + env.latencyUs) env.rateSecs) { s with
      batteryGuard := battery, attackPrevention := prevention } :=
    screened.mono ⟨Nat.le_refl _, Nat.le_succ _, Nat.le_succ _, Nat.le_add_right _ _,
      Nat.le_succ _, Nat.le_refl _⟩
  dsimp only
  split
  · exact .ok refused
  · split
    · exact .ok refused
    · refine (screened.engine.getCached counts).ends.bind ?_
      rintro ⟨engine, found⟩ looked
      have asked : SharedState.Within ⟨n + 1, n + 1, n, spent, n, env.rateSecs⟩ { s with
          batteryGuard := battery, attackPrevention := prevention, latencyEngine := engine } :=
        { screened with engine := looked }
      dsimp only
      split
      · exact (serveCached_answers asked room _).ends
      · exact handleUncached_ends asked room

/-! The process. -/

namespace Process

variable {p : Process} {call : ProcessCall} {calls : List ProcessCall} {n spent clock : Nat}

/-- What halts one of the calls. -/
def HaltedBy (calls : List ProcessCall) (halt : Halt) : Prop :=
  halt = .slicePanic ∧ ∃ call ∈ calls, call.cutsHash = true

/-- A call ends at a later reading of the clock, with one answer if it is a request. -/
theorem perform_ends (within : p.shared.Within (.after n spent clock))
    (ordered : (clock :: call.readings).Pairwise (· ≤ ·))
    (few : 100 * (n + 1) < 2 ^ 64) (spends : spent + call.latencyUs < 2 ^ 64)
    (fits : ∀ now ∈ call.readings, now + 86400 < 2 ^ 64) :
    Ends (fun x => (∃ later ∈ clock :: call.readings,
        x.1.shared.Within (.after (n + 1) (spent + call.latencyUs) later)) ∧
        x.2.isSome = call.isRequest) (HaltedBy [call]) (p.perform lib call) := by
  have still : (Load.after n spent clock).Below (.after (n + 1) (spent + 0) clock) :=
    ⟨Nat.le_succ n, Nat.le_succ n, Nat.le_succ n, Nat.le_refl spent, Nat.le_succ n,
      Nat.le_refl clock⟩
  cases call with
  | request env req =>
    simp only [ProcessCall.readings, List.pairwise_cons, List.forall_mem_cons] at ordered fits
    obtain ⟨⟨passes, _⟩, ⟨reads, _⟩, _⟩ := ordered
    obtain ⟨_, _, fits, _⟩ := fits
    have handled : Ends _ (CutsHash env) (rpcHandler lib
        { env with currentSlot := p.slotCache.currentSlot } p.shared req) :=
      rpcHandler_ends { env with currentSlot := p.slotCache.currentSlot } within passes reads few
        spends fits
    refine (handled.mono (fun _ after => after) ?_).bind fun h after => .ok ⟨?_, rfl⟩
    · rintro halt ⟨rfl, cuts⟩
      exact ⟨rfl, _, List.mem_singleton.mpr rfl, cuts⟩
    · exact ⟨env.rateSecs, by simp [ProcessCall.readings], after⟩
  | cleanup now =>
    have passes : clock ≤ now := (List.pairwise_cons.mp ordered).1 now List.mem_cons_self
    obtain ⟨prevention, cleaned, limiter⟩ := within.limiter.cleanup passes
    have kept := within.mono still
    refine Answers.ends ⟨_, bind_ok_iff.mpr ⟨prevention, cleaned, rfl⟩, ⟨now, ?_, ?_⟩, rfl⟩
    · simp [ProcessCall.readings]
    · exact { kept with limiter := limiter }
  | evictExpired now =>
    have kept := within.mono still
    refine Answers.ends ((kept.engine.evictTiers now _).bind fun engine evicted => .pure ⟨?_, rfl⟩)
    exact ⟨clock, List.mem_cons_self, { kept with engine := evicted }⟩
  | slotReply reply =>
    exact .ok ⟨⟨clock, List.mem_cons_self, within.mono still⟩, rfl⟩

theorem serve_ends (within : p.shared.Within (.after n spent clock))
    (ordered : (clock :: calls.flatMap ProcessCall.readings).Pairwise (· ≤ ·))
    (few : 100 * (n + calls.length) < 2 ^ 64)
    (spends : spent + (calls.map ProcessCall.latencyUs).sum < 2 ^ 64)
    (fits : ∀ now ∈ calls.flatMap ProcessCall.readings, now + 86400 < 2 ^ 64) :
    Ends (fun x => x.2.length = calls.countP ProcessCall.isRequest) (HaltedBy calls)
      (p.serve lib calls) := by
  induction calls generalizing p n spent clock with
  | nil => exact .ok rfl
  | cons call calls ih =>
    rw [List.map_cons, List.sum_cons] at spends
    rw [List.length_cons] at few
    rw [List.flatMap_cons, List.forall_mem_append] at fits
    have own : (clock :: call.readings).Pairwise (· ≤ ·) := by
      rw [List.flatMap_cons, ← List.cons_append] at ordered
      exact (List.pairwise_append.mp ordered).1
    refine ((perform_ends within own (by omega) (by omega) fits.1).mono
      (fun _ after => after) ?_).bind ?_
    · rintro halt ⟨halts, other, member, cuts⟩
      obtain rfl := List.mem_singleton.mp member
      exact ⟨halts, other, List.mem_cons_self, cuts⟩
    · rintro ⟨p', answer⟩ ⟨⟨later, read, after⟩, answered⟩
      have rest := ih after (readings_after read ordered) (by omega) (by omega) fits.2
      refine (rest.mono (fun _ counted => counted) ?_).bind ?_
      · rintro halt ⟨halts, other, member, cuts⟩
        exact ⟨halts, other, List.mem_cons_of_mem _ member, cuts⟩
      · rintro ⟨_, answers⟩ counted
        refine .ok ?_
        dsimp only at answered counted ⊢
        rw [List.length_append, counted, List.countP_cons, ← answered]
        cases answer with
        | none => simp
        | some answer => simp [Nat.add_comm]

theorem new_within (config : Config) (tracked batteryMode : Bool)
    (permits : 0 < config.maxConcurrentRequests) :
    (SharedState.new config (if tracked then some .new else none) batteryMode).Within
      (.after 0 0 0) where
  limiter := (⟨nofun, nofun, nofun⟩ : AttackPrevention.new.Within 0 0)
  permits := permits
  balancer := by
    refine ⟨rfl, fun node member => ?_⟩
    obtain rfl := List.mem_singleton.mp member
    exact ⟨rfl, Nat.zero_le _⟩
  engine := (⟨fun _ => nofun, nofun⟩ : LatencyEngine.new.Bounded 0 0 0)
  rewards tracker held := by
    cases tracked with
    | true =>
      obtain rfl := Option.some.inj held
      exact Nat.le_refl 0
    | false => cases held

/-- Every request gets an answer, or the daemon is halted by a valid verdict whose hash has a
character across its eighth byte, and by nothing else. -/
theorem every_request_answered (lib : Serde) (config : Config) (tracked batteryMode : Bool)
    (calls : List ProcessCall) (permits : 0 < config.maxConcurrentRequests)
    (ordered : (calls.flatMap ProcessCall.readings).Pairwise (· ≤ ·))
    (few : 100 * calls.length < 2 ^ 64)
    (spends : (calls.map ProcessCall.latencyUs).sum < 2 ^ 64)
    (fits : ∀ now ∈ calls.flatMap ProcessCall.readings, now + 86400 < 2 ^ 64) :
    Ends (fun answers => answers.length = calls.countP ProcessCall.isRequest)
      (fun halt => halt = .slicePanic ∧ ∃ call ∈ calls, call.cutsHash = true)
      ((start config (if tracked then some .new else none) batteryMode).answers lib calls) := by
  refine (serve_ends (new_within config tracked batteryMode permits) ?_ ?_ ?_ fits).map
  · exact List.pairwise_cons.mpr ⟨fun _ _ => Nat.zero_le _, ordered⟩
  · rwa [Nat.zero_add]
  · rwa [Nat.zero_add]

theorem every_request_answered_rounds :
    Ends (fun answers => answers.length = 2)
      (fun halt => halt = .slicePanic ∧
        ∃ call ∈ [balanceAt 100, .cleanup 401, .slotReply none, balanceAt 402],
          call.cutsHash = true)
      ((start devnetConfig (some .new) false).answers balanceSerde
        [balanceAt 100, .cleanup 401, .slotReply none, balanceAt 402]) :=
  every_request_answered balanceSerde devnetConfig true false
    [balanceAt 100, .cleanup 401, .slotReply none, balanceAt 402] (by decide) (by decide)
    (by decide) (by decide) (by decide)

end Process

end Solnet.Daemon
