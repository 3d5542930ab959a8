import Solnet.Daemon.RpcProxy

/-! What one handling of a request can come to: which answers the node gives, which
values enter its caches, and what it sends to other hosts. -/
namespace Solnet.Daemon
open Fallible

variable {lib : Serde} {env : Env} {s s' : SharedState} {req : Request} {h : Handled}
  {bodyStr method : String} {params rpcReq : Value} {effects : List Effect}

/-! The branches of the handler, one constructor for each. -/

/-- How a post goes: it is not sent, its reply is not read, its reply is not JSON, or it is
answered. -/
inductive PostSteps (lib : Serde) (env : Env) (s : SharedState) (upstreamRpc method : String)
    (params : Value) (effects : List Effect) : Handled → Prop where
  | unsent {balancer : LoadBalancer} (reply : env.upstreamReply = .sendError)
      (failed : s.loadBalancer.recordError upstreamRpc = .ok balancer) :
      PostSteps lib env s upstreamRpc method params effects ⟨{ s with
        loadBalancer := balancer
        circuitBreaker := s.circuitBreaker.recordFailure env.failureSecs }, .of 502 .empty,
        .refused, effects⟩
  | unread {status : Nat} {engine : LatencyEngine} {balancer : LoadBalancer}
      (reply : env.upstreamReply = .responded status none)
      (recorded : s.latencyEngine.recordLatency method env.latencyUs = .ok engine)
      (succeeded : s.loadBalancer.recordSuccess upstreamRpc (env.latencyUs / 1000) =
        .ok balancer) :
      PostSteps lib env s upstreamRpc method params effects
        ⟨{ s with latencyEngine := engine, loadBalancer := balancer }, .of 502 .empty, .refused,
          effects⟩
  | unparsed {status : Nat} {responseBytes : ByteArray} {engine : LatencyEngine}
      {balancer : LoadBalancer} {rewarded : SharedState}
      (reply : env.upstreamReply = .responded status (some responseBytes))
      (recorded : s.latencyEngine.recordLatency method env.latencyUs = .ok engine)
      (succeeded : s.loadBalancer.recordSuccess upstreamRpc (env.latencyUs / 1000) =
        .ok balancer)
      (reward : recordRequest { s with
        latencyEngine := engine
        loadBalancer := balancer
        circuitBreaker := s.circuitBreaker.recordSuccess } = .ok rewarded)
      (read : lib.fromSlice responseBytes = none) :
      PostSteps lib env s upstreamRpc method params effects
        ⟨rewarded, .of 502 .empty, .refused, effects⟩
  | replied {status : Nat} {responseBytes : ByteArray} {json : Value} {engine : LatencyEngine}
      {balancer : LoadBalancer} {rewarded : SharedState}
      (reply : env.upstreamReply = .responded status (some responseBytes))
      (recorded : s.latencyEngine.recordLatency method env.latencyUs = .ok engine)
      (succeeded : s.loadBalancer.recordSuccess upstreamRpc (env.latencyUs / 1000) =
        .ok balancer)
      (reward : recordRequest { s with
        latencyEngine := engine
        loadBalancer := balancer
        circuitBreaker := s.circuitBreaker.recordSuccess } = .ok rewarded)
      (read : lib.fromSlice responseBytes = some json) :
      PostSteps lib env s upstreamRpc method params effects ⟨{ rewarded with
        latencyEngine :=
          rewarded.latencyEngine.setCache lib method params json env.storeInstant },
        .of 200 (.json (withProof lib json)), .upstream, effects⟩

theorem postUpstream_steps {upstreamRpc : String}
    (ok : postUpstream lib env s upstreamRpc method params effects = .ok h) :
    PostSteps lib env s upstreamRpc method params effects h := by
  unfold postUpstream at ok
  split at ok
  · rename_i unsent
    simp only [bind_ok_iff, pure, Except.pure, Except.ok.injEq] at ok
    obtain ⟨balancer, failed, rfl⟩ := ok
    exact .unsent unsent failed
  · rename_i status body reply
    simp only [bind_ok_iff] at ok
    obtain ⟨engine, recorded, balancer, succeeded, ok⟩ := ok
    cases body with
    | none =>
      obtain rfl := Except.ok.inj ok
      exact .unread reply recorded succeeded
    | some responseBytes =>
      obtain ⟨rewarded, reward, ok⟩ := bind_ok_iff.mp ok
      cases read : lib.fromSlice responseBytes with
      | none =>
        rw [read] at ok
        obtain rfl := Except.ok.inj ok
        exact .unparsed reply recorded succeeded reward read
      | some json =>
        rw [read] at ok
        obtain rfl := Except.ok.inj ok
        exact .replied reply recorded succeeded reward read

/-- The posts of a forwarded request: the verification first, if it is due, and then the
body. -/
def forwardPosts (env : Env) (submission : Option Submission) (upstreamRpc bodyStr : String) :
    List Effect :=
  (submission.toList.map fun submission => .brahmanPost submission env.brahmanReply) ++
    [.upstreamPost upstreamRpc bodyStr]

/-- How forwarding goes: the breaker is open, the verification blocks the request, or it is
posted. -/
inductive ForwardSteps (lib : Serde) (env : Env) (s : SharedState) (bodyStr method : String)
    (params : Value) (effects : List Effect) : Handled → Prop where
  | refused (tripped : s.circuitBreaker.isOpen env.breakerSecs = true) :
      ForwardSteps lib env s bodyStr method params effects
        ⟨s, .of 503 .empty, .refused, effects⟩
  | blocked {balancer : LoadBalancer} {selected : Option String} {submission : Option Submission}
      {violation : String} (closed : s.circuitBreaker.isOpen env.breakerSecs = false)
      (selection : s.loadBalancer.selectNode env.random = .ok (balancer, selected))
      (verification : verifyWithBrahman lib method params env.brahmanReply =
        .ok (submission, .error violation)) :
      ForwardSteps lib env s bodyStr method params effects
        ⟨{ s with loadBalancer := balancer },
          .of 403 (.json (.object [("error", .string violation)])), .refused, effects ++
            submission.toList.map fun submission => .brahmanPost submission env.brahmanReply⟩
  | posts {balancer : LoadBalancer} {selected : Option String} {submission : Option Submission}
      {passed : Bool} {h : Handled} (closed : s.circuitBreaker.isOpen env.breakerSecs = false)
      (selection : s.loadBalancer.selectNode env.random = .ok (balancer, selected))
      (verification : verifyWithBrahman lib method params env.brahmanReply =
        .ok (submission, .ok passed))
      (posted : postUpstream lib env { s with loadBalancer := balancer }
        (selected.getD s.solanaRpcUrl) method params
        (effects ++ forwardPosts env submission (selected.getD s.solanaRpcUrl) bodyStr) = .ok h) :
      ForwardSteps lib env s bodyStr method params effects h

theorem forwardUpstream_steps
    (ok : forwardUpstream lib env s bodyStr method params effects = .ok h) :
    ForwardSteps lib env s bodyStr method params effects h := by
  unfold forwardUpstream at ok
  split at ok
  · rename_i tripped
    obtain rfl := Except.ok.inj ok
    exact .refused tripped
  · rename_i closed
    have closed : s.circuitBreaker.isOpen env.breakerSecs = false := Bool.not_eq_true _ ▸ closed
    simp only [bind_ok_iff, Prod.exists] at ok
    obtain ⟨balancer, selected, selection, submission, verified, verification, ok⟩ := ok
    cases verified with
    | error violation =>
      obtain rfl := Except.ok.inj ok
      exact .blocked closed selection verification
    | ok passed =>
      rw [List.append_assoc] at ok
      exact .posts closed selection verification ok

/-- Where a request goes that no cache answers: to the mesh, or it is processed here. -/
inductive UncachedSteps (lib : Serde) (env : Env) (s : SharedState) (req : Request)
    (bodyStr : String) (rpcReq : Value) : Handled → Prop where
  | delivered {executor : ParallelExecutor} {meshNode : GeoNode} {status : Nat} {bytes : ByteArray}
      (found : meshTarget s (requestMethod rpcReq) = some meshNode)
      (delivered : env.meshReply = some (status, bytes)) :
      UncachedSteps lib env s req bodyStr rpcReq ⟨{ s with parallelExecutor := executor },
        .of status (.bytes bytes), .mesh, [.meshPost meshNode.endpoint req.body]⟩
  | stays {executor : ParallelExecutor} {effects : List Effect} {h : Handled}
      (stays : meshTarget s (requestMethod rpcReq) = none ∨ env.meshReply = none)
      (meshed : ∀ effect ∈ effects, ∃ endpoint, effect = .meshPost endpoint req.body)
      (processed : processRequest lib env { s with parallelExecutor := executor } bodyStr
        (requestMethod rpcReq) (requestParams rpcReq) rpcReq effects = .ok h) :
      UncachedSteps lib env s req bodyStr rpcReq h

theorem handleUncached_steps (ok : handleUncached lib env s req bodyStr rpcReq = .ok h) :
    UncachedSteps lib env s req bodyStr rpcReq h := by
  simp only [handleUncached, bind_ok_iff] at ok
  obtain ⟨executor, _, ok⟩ := ok
  split at ok
  · rename_i absent
    exact .stays (.inl absent) (by simp) ok
  · rename_i meshNode found
    split at ok
    · rename_i status bytes delivered
      obtain rfl := Except.ok.inj ok
      exact .delivered found delivered
    · rename_i undelivered
      exact .stays (.inr undelivered) (by simp) ok

/-- How a request goes: it is refused before or after its body is read, a cache answers it, or
none does. -/
inductive HandlerSteps (lib : Serde) (env : Env) (s : SharedState) (req : Request) :
    Handled → Prop where
  | screened {battery : BatteryGuard} {prevention : AttackPrevention} {response : Response}
      (screening : screenClient env s req = .ok (battery, prevention, some response)) :
      HandlerSteps lib env s req ⟨{ s with
        batteryGuard := battery, attackPrevention := prevention }, response, .refused, []⟩
  | unread {battery : BatteryGuard} {prevention : AttackPrevention} {response : Response}
      (screening : screenClient env s req = .ok (battery, prevention, none))
      (unread : parseBody lib req.body = .error response) :
      HandlerSteps lib env s req ⟨{ s with
        batteryGuard := battery, attackPrevention := prevention }, response, .refused, []⟩
  | cached {battery : BatteryGuard} {prevention : AttackPrevention} {bodyStr : String}
      {rpcReq value : Value} {engine : LatencyEngine} {h : Handled}
      (screening : screenClient env s req = .ok (battery, prevention, none))
      (parsed : parseBody lib req.body = .ok (bodyStr, rpcReq))
      (lookup : s.latencyEngine.getCached lib (requestMethod rpcReq) (requestParams rpcReq)
        env.cacheInstant = .ok (engine, some value))
      (serves : serveCached env { s with
        batteryGuard := battery, attackPrevention := prevention, latencyEngine := engine }
        (requestMethod rpcReq) value = .ok h) : HandlerSteps lib env s req h
  | uncached {battery : BatteryGuard} {prevention : AttackPrevention} {bodyStr : String}
      {rpcReq : Value} {engine : LatencyEngine} {h : Handled}
      (screening : screenClient env s req = .ok (battery, prevention, none))
      (parsed : parseBody lib req.body = .ok (bodyStr, rpcReq))
      (lookup : s.latencyEngine.getCached lib (requestMethod rpcReq) (requestParams rpcReq)
        env.cacheInstant = .ok (engine, none))
      (handles : handleUncached lib env { s with
        batteryGuard := battery, attackPrevention := prevention, latencyEngine := engine }
        req bodyStr rpcReq = .ok h) : HandlerSteps lib env s req h

theorem rpcHandler_steps (ok : rpcHandler lib env s req = .ok h) :
    HandlerSteps lib env s req h := by
  simp only [rpcHandler, bind_ok_iff, Prod.exists] at ok
  obtain ⟨battery, prevention, refusal, screening, ok⟩ := ok
  cases refusal with
  | some response =>
    obtain rfl := Except.ok.inj ok
    exact .screened screening
  | none =>
    cases parsed : parseBody lib req.body with
    | error response =>
      rw [parsed] at ok
      obtain rfl := Except.ok.inj ok
      exact .unread screening parsed
    | ok read =>
      obtain ⟨bodyStr, rpcReq⟩ := read
      rw [parsed] at ok
      simp only [bind_ok_iff, Prod.exists] at ok
      obtain ⟨engine, found, lookup, ok⟩ := ok
      cases found with
      | some value => exact .cached screening parsed lookup ok
      | none => exact .uncached screening parsed lookup ok

/-- A reward changes the tracker alone. -/
theorem recordRequest_ok (ok : recordRequest s = .ok s') :
    ∃ walletTracker, s' = { s with walletTracker } := by
  unfold recordRequest at ok
  split at ok
  · exact ⟨s.walletTracker, (Except.ok.inj ok).symm⟩
  · simp only [bind_ok_iff, pure, Except.pure, Except.ok.injEq] at ok
    obtain ⟨tracker, _, rfl⟩ := ok
    exact ⟨some tracker, rfl⟩

theorem recordRequest_engine (ok : recordRequest s = .ok s') :
    s'.latencyEngine = s.latencyEngine := by
  obtain ⟨_, rfl⟩ := recordRequest_ok ok
  rfl

theorem serveCached_ok {cached : Value} (ok : serveCached env s method cached = .ok h) :
    h.origin = .cacheHit ∧ h.response = .of 200 (.json cached) ∧ h.effects = [] ∧
      s.latencyEngine.Keeps h.state.latencyEngine := by
  simp only [serveCached, bind_ok_iff, pure, Except.pure, Except.ok.injEq] at ok
  obtain ⟨engine, recorded, rewarded, reward, rfl⟩ := ok
  refine ⟨rfl, rfl, rfl, ?_⟩
  rw [recordRequest_engine reward]
  exact LatencyEngine.recordLatency_keeps recorded

/-- The reply of the slot intercept: the member `cached` comes after the proof. -/
def slotReply (lib : Serde) (slot : Nat) (rpcReq : Value) : Value :=
  (withProof lib (slotResponse slot rpcReq)).insert "cached" (.bool true)

theorem interceptGetSlot_ok
    (ok : interceptGetSlot lib env s method params rpcReq effects = .ok h) :
    h.origin = .slotIntercept ∧
      h.response = .of 200 (.json (slotReply lib env.currentSlot rpcReq)) ∧
      h.effects = effects ∧
      s.latencyEngine.Adds lib method params (slotReply lib env.currentSlot rpcReq)
        h.state.latencyEngine := by
  simp only [interceptGetSlot, bind_ok_iff, pure, Except.pure, Except.ok.injEq] at ok
  obtain ⟨engine, recorded, rewarded, reward, rfl⟩ := ok
  refine ⟨rfl, rfl, rfl, ?_⟩
  rw [recordRequest_engine reward]
  exact (LatencyEngine.recordLatency_keeps recorded).adds (LatencyEngine.setCache_adds _ _ _ _ _ _)

structure UpstreamJson (lib : Serde) (env : Env) (json : Value) : Prop where
  read : ∃ status bytes, env.upstreamReply = .responded status (some bytes) ∧
    lib.fromSlice bytes = some json

inductive Forwarded (lib : Serde) (env : Env) (engine : LatencyEngine) (method : String)
    (params : Value) (h : Handled) : Prop where
  | failed (origin : h.origin = .refused) (keeps : engine.Keeps h.state.latencyEngine)
  | replied (json : Value) (read : UpstreamJson lib env json) (origin : h.origin = .upstream)
      (response : h.response = .of 200 (.json (withProof lib json)))
      (adds : engine.Adds lib method params json h.state.latencyEngine)

theorem postUpstream_ok {upstreamRpc : String}
    (ok : postUpstream lib env s upstreamRpc method params effects = .ok h) :
    h.effects = effects ∧ Forwarded lib env s.latencyEngine method params h := by
  cases postUpstream_steps ok with
  | unsent reply failed => exact ⟨rfl, .failed rfl fun _ stores => stores⟩
  | unread reply recorded succeeded =>
    exact ⟨rfl, .failed rfl (LatencyEngine.recordLatency_keeps recorded)⟩
  | unparsed reply recorded succeeded reward read =>
    refine ⟨rfl, .failed rfl ?_⟩
    rw [recordRequest_engine reward]
    exact LatencyEngine.recordLatency_keeps recorded
  | @replied status responseBytes json engine balancer rewarded reply recorded succeeded reward
      read =>
    refine ⟨rfl, .replied json ⟨status, responseBytes, reply, read⟩ rfl rfl ?_⟩
    simp only [recordRequest_engine reward]
    exact (LatencyEngine.recordLatency_keeps recorded).adds
      (LatencyEngine.setCache_adds _ _ _ _ _ _)

theorem forwardUpstream_ok
    (ok : forwardUpstream lib env s bodyStr method params effects = .ok h) :
    Forwarded lib env s.latencyEngine method params h ∧
      ((∀ endpoint body, .upstreamPost endpoint body ∈ h.effects →
        .upstreamPost endpoint body ∈ effects) ∨
      ∃ submission upstreamRpc passed,
        verifyWithBrahman lib method params env.brahmanReply = .ok (submission, .ok passed) ∧
        h.effects = effects ++ forwardPosts env submission upstreamRpc bodyStr) := by
  cases forwardUpstream_steps ok with
  | refused tripped => exact ⟨.failed rfl fun _ stores => stores, .inl fun _ _ posted => posted⟩
  | blocked closed selection verification =>
    refine ⟨.failed rfl fun _ stores => stores, .inl fun endpoint body posted => ?_⟩
    simpa using posted
  | posts closed selection verification posted =>
    obtain ⟨posts, forwarded⟩ := postUpstream_ok posted
    exact ⟨forwarded, .inr ⟨_, _, _, verification, posts⟩⟩

theorem verifyWithBrahman_ok {reply : BrahmanReply} {submission : Option Submission}
    {passed : Bool}
    (ok : verifyWithBrahman lib method params reply = .ok (submission, .ok passed)) :
    (method ∈ skipMethods ∧ submission = none) ∨
      (method ∉ skipMethods ∧ submission = some ⟨method, params⟩ ∧
        reply.verdict ≠ some "INVALID") := by
  unfold verifyWithBrahman at ok
  split at ok
  · rename_i skipped
    simp only [Except.ok.injEq, Prod.mk.injEq] at ok
    exact .inl ⟨skipped, ok.1.symm⟩
  · rename_i due
    refine .inr ⟨due, ?_⟩
    cases reply with
    | unreachable error => simp only [Except.ok.injEq, Prod.mk.injEq, reduceCtorEq, and_false] at ok
    | unparsable error => simp only [Except.ok.injEq, Prod.mk.injEq, reduceCtorEq, and_false] at ok
    | replied result =>
      simp only [BrahmanReply.verdict, ne_eq, Option.some.injEq]
      dsimp only at ok
      split at ok
      · rename_i valid
        split at ok
        · cases ok
        · simp only [Except.ok.injEq, Prod.mk.injEq] at ok
          rw [valid]
          exact ⟨ok.1.symm, by decide⟩
      · split at ok
        · simp only [Except.ok.injEq, Prod.mk.injEq, reduceCtorEq, and_false] at ok
        · rename_i passing
          simp only [Except.ok.injEq, Prod.mk.injEq] at ok
          exact ⟨ok.1.symm, passing⟩

/-- What comes of a parsed request that no cache answers, given the mesh node that its
method belongs to. -/
inductive Answer (lib : Serde) (env : Env) (engine : LatencyEngine) (target : Option GeoNode)
    (body : ByteArray) (rpcReq : Value) (h : Handled) : Prop where
  | refused (stays : target = none ∨ env.meshReply = none) (origin : h.origin = .refused)
      (keeps : engine.Keeps h.state.latencyEngine)
  | forwarded (node : GeoNode) (found : target = some node) (status : Nat) (bytes : ByteArray)
      (delivered : env.meshReply = some (status, bytes)) (origin : h.origin = .mesh)
      (response : h.response = .of status (.bytes bytes))
      (posts : h.effects = [.meshPost node.endpoint body])
      (keeps : engine.Keeps h.state.latencyEngine)
  | slotIntercept (stays : target = none ∨ env.meshReply = none)
      (slot : requestMethod rpcReq = "getSlot") (origin : h.origin = .slotIntercept)
      (response : h.response = .of 200 (.json (slotReply lib env.currentSlot rpcReq)))
      (adds : engine.Adds lib (requestMethod rpcReq) (requestParams rpcReq)
        (slotReply lib env.currentSlot rpcReq) h.state.latencyEngine)
  | upstream (stays : target = none ∨ env.meshReply = none) (json : Value)
      (read : UpstreamJson lib env json) (origin : h.origin = .upstream)
      (response : h.response = .of 200 (.json (withProof lib json)))
      (adds : engine.Adds lib (requestMethod rpcReq) (requestParams rpcReq) json
        h.state.latencyEngine)

theorem Answer.mono {engine engine' : LatencyEngine} {target : Option GeoNode} {body : ByteArray}
    (answer : Answer lib env engine' target body rpcReq h) (keeps : engine.Keeps engine') :
    Answer lib env engine target body rpcReq h := by
  cases answer with
  | refused stays origin kept => exact .refused stays origin fun P stores => kept P (keeps P stores)
  | forwarded node found status bytes delivered origin response posts kept =>
    exact .forwarded node found status bytes delivered origin response posts
      fun P stores => kept P (keeps P stores)
  | slotIntercept stays slot origin response adds =>
    exact .slotIntercept stays slot origin response (keeps.adds adds)
  | upstream stays json read origin response adds =>
    exact .upstream stays json read origin response (keeps.adds adds)

inductive Served (lib : Serde) (env : Env) (s : SharedState) (body : ByteArray)
    (rpcReq : Value) (h : Handled) : Prop where
  | cached (entry : CacheEntry)
      (found : s.latencyEngine.live lib (requestMethod rpcReq) (requestParams rpcReq)
        env.cacheInstant = some entry)
      (origin : h.origin = .cacheHit) (response : h.response = .of 200 (.json entry.value))
      (keeps : s.latencyEngine.Keeps h.state.latencyEngine)
  | uncached (missed : s.latencyEngine.live lib (requestMethod rpcReq) (requestParams rpcReq)
        env.cacheInstant = none)
      (answer : Answer lib env s.latencyEngine (meshTarget s (requestMethod rpcReq)) body
        rpcReq h)

/-- The posts of a handled request: to the upstream node only after a verification that
passed, or that the method skips. -/
def Verified (lib : Serde) (env : Env) (bodyStr : String) (rpcReq : Value)
    (effects : List Effect) : Prop :=
  (∀ endpoint body, .upstreamPost endpoint body ∉ effects) ∨
    ∃ earlier submission upstreamRpc passed,
      (∀ submission reply, .brahmanPost submission reply ∉ earlier) ∧
      (∀ endpoint body, .upstreamPost endpoint body ∉ earlier) ∧
      verifyWithBrahman lib (requestMethod rpcReq) (requestParams rpcReq) env.brahmanReply =
        .ok (submission, .ok passed) ∧
      effects = earlier ++ forwardPosts env submission upstreamRpc bodyStr

theorem processRequest_ok (target : Option GeoNode) (body : ByteArray)
    (ok : processRequest lib env s bodyStr (requestMethod rpcReq) (requestParams rpcReq) rpcReq
      effects = .ok h) (stays : target = none ∨ env.meshReply = none)
    (unverified : ∀ submission reply, .brahmanPost submission reply ∉ effects)
    (unposted : ∀ endpoint body, .upstreamPost endpoint body ∉ effects) :
    Answer lib env s.latencyEngine target body rpcReq h ∧
      Verified lib env bodyStr rpcReq h.effects := by
  unfold processRequest at ok
  split at ok
  · rename_i slot
    obtain ⟨origin, response, posts, adds⟩ := interceptGetSlot_ok ok
    exact ⟨.slotIntercept stays slot origin response adds, .inl (posts ▸ unposted)⟩
  · obtain ⟨forwarded, posts⟩ := forwardUpstream_ok ok
    constructor
    · cases forwarded with
      | failed origin keeps => exact .refused stays origin keeps
      | replied json read origin response adds =>
        exact .upstream stays json read origin response adds
    · rcases posts with nothing | ⟨submission, upstreamRpc, passed, verification, posts⟩
      · exact .inl fun endpoint body posted => unposted endpoint body (nothing endpoint body posted)
      · exact .inr ⟨effects, submission, upstreamRpc, passed, unverified, unposted, verification,
          posts⟩

theorem handleUncached_ok (ok : handleUncached lib env s req bodyStr rpcReq = .ok h) :
    Answer lib env s.latencyEngine (meshTarget s (requestMethod rpcReq)) req.body rpcReq h ∧
      Verified lib env bodyStr rpcReq h.effects := by
  cases handleUncached_steps ok with
  | @delivered _ meshNode status bytes found delivered =>
    exact ⟨.forwarded meshNode found status bytes delivered rfl rfl rfl fun _ stores => stores,
      .inl (by simp)⟩
  | @stays _ effects _ stays meshed processed =>
    have unverified : ∀ submission reply, .brahmanPost submission reply ∉ effects := by
      intro submission reply posted
      obtain ⟨endpoint, mesh⟩ := meshed _ posted
      cases mesh
    have unposted : ∀ endpoint body, .upstreamPost endpoint body ∉ effects := by
      intro endpoint body posted
      obtain ⟨endpoint, mesh⟩ := meshed _ posted
      cases mesh
    have answered := processRequest_ok (meshTarget s (requestMethod rpcReq)) req.body processed
      stays unverified unposted
    exact answered

def Screened (env : Env) (s : SharedState) (req : Request) : Prop :=
  ∃ battery prevention, screenClient env s req = .ok (battery, prevention, none)

structure Admitted (lib : Serde) (env : Env) (s : SharedState) (req : Request)
    (bodyStr : String) (rpcReq : Value) : Prop where
  screened : Screened env s req
  parsed : parseBody lib req.body = .ok (bodyStr, rpcReq)

theorem rpcHandler_ok (ok : rpcHandler lib env s req = .ok h) :
    (h.origin = .refused ∧ (∀ bodyStr rpcReq, ¬ Admitted lib env s req bodyStr rpcReq) ∧
      s.latencyEngine.Keeps h.state.latencyEngine ∧ h.effects = []) ∨
      ∃ bodyStr rpcReq, Admitted lib env s req bodyStr rpcReq ∧
        Served lib env s req.body rpcReq h ∧ Verified lib env bodyStr rpcReq h.effects := by
  cases rpcHandler_steps ok with
  | screened screening =>
    refine .inl ⟨rfl, fun bodyStr rpcReq admitted => ?_, fun _ stores => stores, rfl⟩
    obtain ⟨_, _, passed⟩ := admitted.screened
    cases screening.symm.trans passed
  | unread screening unread =>
    refine .inl ⟨rfl, fun bodyStr rpcReq admitted => ?_, fun _ stores => stores, rfl⟩
    cases unread.symm.trans admitted.parsed
  | @cached battery prevention bodyStr rpcReq value engine _ screening parsed lookup serves =>
    refine .inr ⟨bodyStr, rpcReq, ⟨⟨battery, prevention, screening⟩, parsed⟩, ?_⟩
    obtain ⟨answer, keeps⟩ := LatencyEngine.getCached_ok lookup
    obtain ⟨entry, live, rfl⟩ := Option.map_eq_some_iff.mp answer.symm
    obtain ⟨origin, response, posts, served⟩ := serveCached_ok serves
    refine ⟨.cached entry live origin response fun P stores => served P (keeps P stores), ?_⟩
    rw [posts]
    exact .inl (by simp)
  | @uncached battery prevention bodyStr rpcReq engine _ screening parsed lookup handles =>
    refine .inr ⟨bodyStr, rpcReq, ⟨⟨battery, prevention, screening⟩, parsed⟩, ?_⟩
    obtain ⟨answer, keeps⟩ := LatencyEngine.getCached_ok lookup
    obtain ⟨computed, posts⟩ := handleUncached_ok handles
    exact ⟨.uncached (Option.map_eq_none_iff.mp answer.symm) (computed.mono keeps), posts⟩

/-! When a request gets through each stage. -/

theorem validateHost_true (host : String) (config : Config) : validateHost host config = true := by
  simp only [validateHost, ite_self]

theorem checkRateLimit_allowed {p : AttackPrevention} {ip : String} {now banNow : Nat}
    {record : IpRecord} (touched : AttackPrevention.touch (p.ipRequests.lookup ip) now = .ok record)
    (few : record.count ≤ 100) : p.checkRateLimit ip now banNow =
      .ok ({ p with ipRequests := p.ipRequests.insert ip record }, .allowed) := by
  have soft : ¬ 1000 < record.count := by omega
  have allowed : ¬ 100 < record.count := by omega
  have counted : p.countRequest ip now =
      .ok ({ p with ipRequests := p.ipRequests.insert ip record }, some .allowed) := by
    rw [AttackPrevention.countRequest, touched, bind_of_ok]
    dsimp only
    rw [if_neg soft, if_neg allowed]
    rfl
  rw [AttackPrevention.checkRateLimit, counted, bind_of_ok]
  rfl

theorem screenClient_allowed {record : IpRecord}
    (accepts : s.batteryGuard.shouldAcceptRequest env.batterySecs = (s.batteryGuard, true))
    (unbanned : s.attackPrevention.bannedIps.lookup (extractIp req) = none)
    (touched : AttackPrevention.touch (s.attackPrevention.ipRequests.lookup (extractIp req))
      env.rateSecs = .ok record) (few : record.count ≤ 100) :
    screenClient env s req = .ok (s.batteryGuard, { s.attackPrevention with
      ipRequests := s.attackPrevention.ipRequests.insert (extractIp req) record }, none) := by
  have trusted : ¬ validateHost (req.host.getD "unknown") s.config = false := by
    rw [validateHost_true]
    exact Bool.noConfusion
  simp only [screenClient, accepts, if_neg trusted, AttackPrevention.isBanned, unbanned,
    checkRateLimit_allowed touched few, bind_of_ok, pure, Except.pure]

theorem parseBody_clean {text : String} (clean : AttackPrevention.scanPayload text = .clean)
    (parsed : lib.fromStr text = some rpcReq) :
    parseBody lib text.toUTF8 = .ok (text, rpcReq) := by
  simp only [parseBody, fromUTF8?_toUTF8, clean, parsed]

theorem acquire_ok (s : ParallelExecutor) (permits : 0 < s.globalPermits)
    (accountKey : Option String) :
    ∃ s', s.acquire accountKey = .ok s' ∧ s'.globalPermits = s.globalPermits := by
  unfold ParallelExecutor.acquire
  rw [if_neg (Nat.ne_of_gt permits)]
  cases accountKey with
  | none => exact ⟨s, rfl, rfl⟩
  | some key =>
    dsimp only
    split
    · exact ⟨s, rfl, rfl⟩
    · exact ⟨_, rfl, rfl⟩

theorem serveCached_untracked {engine : LatencyEngine} {cached : Value}
    (untracked : s.walletTracker = none)
    (recorded : s.latencyEngine.recordLatency method env.latencyUs = .ok engine) :
    serveCached env s method cached =
      .ok ⟨{ s with latencyEngine := engine }, .of 200 (.json cached), .cacheHit, []⟩ := by
  simp only [serveCached, recorded, bind_of_ok, recordRequest, untracked, pure, Except.pure]

theorem postUpstream_untracked {upstreamRpc : String} {engine : LatencyEngine}
    {balancer : LoadBalancer} {status : Nat} {bytes : ByteArray} {json : Value}
    (untracked : s.walletTracker = none)
    (reply : env.upstreamReply = .responded status (some bytes))
    (recorded : s.latencyEngine.recordLatency method env.latencyUs = .ok engine)
    (success : s.loadBalancer.recordSuccess upstreamRpc (env.latencyUs / 1000) = .ok balancer)
    (read : lib.fromSlice bytes = some json) :
    postUpstream lib env s upstreamRpc method params effects = .ok ⟨{ s with
      latencyEngine := engine.setCache lib method params json env.storeInstant
      loadBalancer := balancer
      circuitBreaker := s.circuitBreaker.recordSuccess },
      .of 200 (.json (withProof lib json)), .upstream, effects⟩ := by
  simp only [postUpstream, reply, recorded, success, bind_of_ok, recordRequest, untracked, read,
    pure, Except.pure]

section Stages

variable {battery : BatteryGuard} {prevention : AttackPrevention} {engine : LatencyEngine}
  (screened : screenClient env s req = .ok (battery, prevention, none))
  (parsed : parseBody lib req.body = .ok (bodyStr, rpcReq))
include screened parsed

theorem rpcHandler_cached {value : Value}
    (lookup : s.latencyEngine.getCached lib (requestMethod rpcReq) (requestParams rpcReq)
      env.cacheInstant = .ok (engine, some value)) :
    rpcHandler lib env s req = serveCached env { s with
      batteryGuard := battery, attackPrevention := prevention, latencyEngine := engine }
      (requestMethod rpcReq) value := by
  simp only [rpcHandler, screened, parsed, lookup, bind, Except.bind]

theorem rpcHandler_posts {submission : Option Submission} {upstreamRpc : String} {passed : Bool}
    (lookup : s.latencyEngine.getCached lib (requestMethod rpcReq) (requestParams rpcReq)
      env.cacheInstant = .ok (engine, none))
    (permits : 0 < s.parallelExecutor.globalPermits)
    (stays : meshTarget s (requestMethod rpcReq) = none)
    (other : requestMethod rpcReq ≠ "getSlot")
    (closed : s.circuitBreaker.isOpen env.breakerSecs = false)
    (selected : s.loadBalancer.selectNode env.random = .ok (s.loadBalancer, some upstreamRpc))
    (verified : verifyWithBrahman lib (requestMethod rpcReq) (requestParams rpcReq)
      env.brahmanReply = .ok (submission, .ok passed)) :
    ∃ executor, executor.globalPermits = s.parallelExecutor.globalPermits ∧
      rpcHandler lib env s req = postUpstream lib env { s with
        batteryGuard := battery
        attackPrevention := prevention.incrementTotal
        latencyEngine := engine
        parallelExecutor := executor }
        upstreamRpc (requestMethod rpcReq) (requestParams rpcReq)
        (forwardPosts env submission upstreamRpc bodyStr) := by
  obtain ⟨executor, acquired, same⟩ := acquire_ok s.parallelExecutor permits
    (((requestParams rpcReq).getItem 0).bind Value.asStr)
  have stays' := stays
  unfold meshTarget at stays'
  refine ⟨executor, same, ?_⟩
  simp only [rpcHandler, screened, parsed, lookup, bind, Except.bind, handleUncached, acquired,
    meshTarget, stays', processRequest, if_neg other, forwardUpstream, closed, selected, verified,
    Bool.false_eq_true, if_false, Option.getD_some, List.nil_append, forwardPosts]

end Stages

/-! A daemon on the devnet, and an environment whose clocks rest but for the cache's. -/

def devnetState (shard : ShardType) : SharedState :=
  .new ⟨"https://api.devnet.solana.com", 8080, shard, .asiaSouth, 100, "production", ""⟩ none false

def envAt (instant : Nat) (brahmanReply : BrahmanReply) (upstreamReply : UpstreamReply) : Env where
  batterySecs := 0
  banCheckSecs := 0
  rateSecs := 0
  banSecs := 0
  cacheInstant := instant
  storeInstant := instant
  latencyUs := 1
  currentSlot := 0
  meshReply := none
  breakerSecs := 0
  failureSecs := 0
  random := 0
  brahmanReply := brahmanReply
  upstreamReply := upstreamReply

end Solnet.Daemon
