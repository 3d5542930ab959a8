import Solnet.Daemon.Replies

/-! The verdicts on forwarded requests. The circuit breaker, the load balancer and the
reward tracker each hear of a post, at different points of the handler. -/
namespace Solnet.Daemon
open Fallible Runs

inductive Verdict where
  | success
  | failure
  deriving DecidableEq, Repr

structure Records where
  breaker : List Verdict
  balancer : List Verdict
  rewards : Nat
  deriving DecidableEq, Repr

def LoadBalancer.lists (s : LoadBalancer) (endpoint : String) : Bool :=
  s.nodes.any (·.endpoint = endpoint)

/-- A state with what was recorded on the way to it. -/
structure Noting where
  state : SharedState
  records : Records

namespace Noting

def start (s : SharedState) : Noting := ⟨s, ⟨[], [], 0⟩⟩

/-- The balancer records a verdict on a node that it lists, and none on another. -/
def balanced (x : Noting) (endpoint : String) (verdict : Verdict) (balancer : LoadBalancer) :
    Noting where
  state := { x.state with loadBalancer := balancer }
  records := if x.state.loadBalancer.lists endpoint then
      { x.records with balancer := x.records.balancer ++ [verdict] }
    else x.records

def recordError (x : Noting) (endpoint : String) : Checked Noting := do
  let balancer ← x.state.loadBalancer.recordError endpoint
  return x.balanced endpoint .failure balancer

def recordSuccess (x : Noting) (endpoint : String) (latencyMs : Nat) : Checked Noting := do
  let balancer ← x.state.loadBalancer.recordSuccess endpoint latencyMs
  return x.balanced endpoint .success balancer

def breakerFailure (x : Noting) (now : Nat) : Noting where
  state := { x.state with circuitBreaker := x.state.circuitBreaker.recordFailure now }
  records := { x.records with breaker := x.records.breaker ++ [.failure] }

def breakerSuccess (x : Noting) : Noting where
  state := { x.state with circuitBreaker := x.state.circuitBreaker.recordSuccess }
  records := { x.records with breaker := x.records.breaker ++ [.success] }

def recordRequest (x : Noting) : Checked Noting := do
  let s ← Daemon.recordRequest x.state
  return ⟨s, if x.state.walletTracker.isSome then
      { x.records with rewards := x.records.rewards + 1 }
    else x.records⟩

/-- Nothing more is recorded before the answer. -/
def answer (x : Noting) (response : Response) (origin : Origin) (effects : List Effect) :
    Handled × Records :=
  (⟨x.state, response, origin, effects⟩, x.records)

end Noting

/-- `postUpstream` with notes of what it records. -/
def postUpstreamNoted (lib : Serde) (env : Env) (s : SharedState) (upstreamRpc method : String)
    (params : Value) (effects : List Effect) : Checked (Handled × Records) :=
  match env.upstreamReply with
  | .sendError => do
    let x ← (Noting.start s).recordError upstreamRpc
    return (x.breakerFailure env.failureSecs).answer (.of 502 .empty) .refused effects
  | .responded _ body => do
    let engine ← s.latencyEngine.recordLatency method env.latencyUs
    let x ← (Noting.start { s with latencyEngine := engine }).recordSuccess upstreamRpc
      (env.latencyUs / 1000)
    match body with
    | none => return x.answer (.of 502 .empty) .refused effects
    | some responseBytes =>
      let x ← x.breakerSuccess.recordRequest
      match lib.fromSlice responseBytes with
      | none => return x.answer (.of 502 .empty) .refused effects
      | some responseJson =>
        let engine := x.state.latencyEngine.setCache lib method params responseJson
          env.storeInstant
        let x : Noting := { x with state := { x.state with latencyEngine := engine } }
        return x.answer (.of 200 (.json (withProof lib responseJson))) .upstream effects

/-- What one verdict makes of the breaker. -/
def Verdict.onBreaker (now : Nat) (breaker : CircuitBreaker) : Verdict → CircuitBreaker
  | success => { breaker with failures := 0 }
  | failure => { breaker with failures := (breaker.failures + 1) % 2 ^ 32, lastFailure := now }

/-- What one verdict makes of a node of the balancer. -/
def Verdict.onNode (latencyMs : Nat) (node : LoadBalancerNode) : Verdict → LoadBalancerNode
  | success => { node with
      totalRequests := (node.totalRequests + 1) % 2 ^ 64
      avgLatencyMs := (node.avgLatencyMs * 9 + latencyMs) / 10 }
  | failure => { node with errorCount := (node.errorCount + 1) % 2 ^ 64 }

/-- What one verdict makes of the tracker: a success earns a reward. -/
def Verdict.onTracker : Verdict → WalletRewardTracker → WalletRewardTracker
  | success, tracker => { tracker with
      sessionRequests := (tracker.sessionRequests + 1) % 2 ^ 64
      pendingLamports := tracker.pendingLamports + 100 }
  | failure, tracker => tracker

/-- The first node with the endpoint is as after one verdict, and the other nodes as before. -/
def NodeMarked (verdict : Verdict) (latencyMs : Nat) (endpoint : String)
    (nodes nodes' : List LoadBalancerNode) : Prop :=
  ∃ front node back, nodes = front ++ node :: back ∧
    (∀ other ∈ front, other.endpoint ≠ endpoint) ∧ node.endpoint = endpoint ∧
    nodes' = front ++ verdict.onNode latencyMs node :: back

/-- The breaker, the nodes and the tracker are as after one verdict on the endpoint. -/
structure Marked (verdict : Verdict) (env : Env) (endpoint : String) (s s' : SharedState) :
    Prop where
  breaker : s'.circuitBreaker = verdict.onBreaker env.failureSecs s.circuitBreaker
  balancer : NodeMarked verdict (env.latencyUs / 1000) endpoint s.loadBalancer.nodes
    s'.loadBalancer.nodes
  tracker : s'.walletTracker = s.walletTracker.map verdict.onTracker

/-- The breaker and the balancer each record one verdict, the same, and are changed by it alone;
a tracker rewards a success, and success is what the client gets. -/
def OneVerdict (env : Env) (s : SharedState) (endpoint : String) (records : Records)
    (h : Handled) : Prop :=
  ∃ verdict, records.breaker = [verdict] ∧ records.balancer = [verdict] ∧
    (s.walletTracker ≠ none → records.rewards = if verdict = .success then 1 else 0) ∧
    Marked verdict env endpoint s h.state ∧ (verdict = .success ↔ h.response.status = 200)

inductive Outcome where
  | sendError
  | unread
  | unparsed
  | replied
  deriving DecidableEq, Repr

def outcome (lib : Serde) (env : Env) : Outcome :=
  match env.upstreamReply with
  | .sendError => .sendError
  | .responded _ none => .unread
  | .responded _ (some responseBytes) =>
    if (lib.fromSlice responseBytes).isSome then .replied else .unparsed

/-- The post fails to be sent, or its answer is read to the end and is JSON. -/
def Conclusive (lib : Serde) (env : Env) : Prop :=
  outcome lib env = .sendError ∨ outcome lib env = .replied

/-- What a post to a listed node records. -/
def Outcome.records (walletTracker : Option WalletRewardTracker) : Outcome → Records
  | .sendError => ⟨[.failure], [.failure], 0⟩
  | .unread => ⟨[], [.success], 0⟩
  | .unparsed | .replied => ⟨[.success], [.success], walletTracker.isSome.toNat⟩

def Outcome.rewarded : Outcome → Bool
  | .unparsed | .replied => true
  | _ => false

def Outcome.status : Outcome → Nat
  | .replied => 200
  | _ => 502

def Effect.isUpstreamPost : Effect → Bool
  | .upstreamPost _ _ => true
  | _ => false

def Handled.posted (h : Handled) : Bool := h.effects.any Effect.isUpstreamPost

/-- The node answers from its cache, or knows the slot. -/
def Handled.own (h : Handled) : Bool := h.origin = .cacheHit || h.origin = .slotIntercept

/-- What a request leaves as it is until it is posted. -/
structure Untouched (s s' : SharedState) : Prop where
  url : s'.solanaRpcUrl = s.solanaRpcUrl
  breaker : s'.circuitBreaker = s.circuitBreaker
  nodes : s'.loadBalancer.nodes = s.loadBalancer.nodes

/-- A handling that comes to a post. -/
structure Post (lib : Serde) (env : Env) (s : SharedState) (req : Request) where
  before : SharedState
  upstreamRpc : String
  method : String
  params : Value
  earlier : List Effect
  bodyStr : String
  same : Untouched s before
  tracker : before.walletTracker = s.walletTracker
  chosen : upstreamRpc = s.solanaRpcUrl ∨ s.loadBalancer.lists upstreamRpc = true
  handled : rpcHandler lib env s req = postUpstream lib env before upstreamRpc method params
    (earlier ++ [.upstreamPost upstreamRpc bodyStr])

def Post.noted {lib : Serde} {env : Env} {s : SharedState} {req : Request}
    (post : Post lib env s req) : Checked (Handled × Records) :=
  postUpstreamNoted lib env post.before post.upstreamRpc post.method post.params
    (post.earlier ++ [.upstreamPost post.upstreamRpc post.bodyStr])

def SharedState.sessionRequests (s : SharedState) : Option Nat :=
  s.walletTracker.map WalletRewardTracker.sessionRequests

def Rewarded (s s' : SharedState) : Prop :=
  s'.sessionRequests = s.sessionRequests.map fun n => (n + 1) % 2 ^ 64

inductive Course (lib : Serde) (env : Env) (s : SharedState) (req : Request) (h : Handled) :
    Prop where
  | idle (unposted : h.posted = false) (own : h.own = false) (same : Untouched s h.state)
      (tracker : h.state.walletTracker = s.walletTracker)
  | answered (unposted : h.posted = false) (own : h.own = true) (same : Untouched s h.state)
      (rewarded : Rewarded s h.state)
  | posted (post : Post lib env s req)

/-- A node that is selected when none is alive is listed all the same. -/
def FallbackListed (s : SharedState) : Prop :=
  s.loadBalancer.lists s.solanaRpcUrl = true

variable {lib : Serde} {env : Env} {s : SharedState} {req : Request} {h : Handled}
  {records : Records} {upstreamRpc method : String} {params : Value} {effects : List Effect}

theorem postUpstreamNoted_erases :
    (Prod.fst <$> postUpstreamNoted lib env s upstreamRpc method params effects) =
      postUpstream lib env s upstreamRpc method params effects := by
  cases reply : env.upstreamReply with
  | sendError =>
    simp only [postUpstreamNoted, postUpstream, reply, Noting.recordError, bind_assoc, pure_bind,
      map_bind, map_pure]
    rfl
  | responded status body =>
    simp only [postUpstreamNoted, postUpstream, reply, Noting.recordSuccess, bind_assoc, pure_bind,
      map_bind]
    cases body with
    | none => simp only [map_pure]; rfl
    | some responseBytes =>
      cases read : lib.fromSlice responseBytes with
      | none =>
        simp only [Noting.recordRequest, bind_assoc, pure_bind, map_bind, map_pure, read]
        rfl
      | some json =>
        simp only [Noting.recordRequest, bind_assoc, pure_bind, map_bind, map_pure, read]
        rfl

theorem noted_records (listed : s.loadBalancer.lists upstreamRpc = true)
    (noted : postUpstreamNoted lib env s upstreamRpc method params effects = .ok (h, records)) :
    records = (outcome lib env).records s.walletTracker := by
  unfold postUpstreamNoted at noted
  cases reply : env.upstreamReply with
  | sendError =>
    simp only [reply, Noting.recordError, bind_ok_iff, pure, Except.pure, Except.ok.injEq,
      Noting.balanced, Noting.start, listed] at noted
    obtain ⟨_, ⟨balancer, _, rfl⟩, same⟩ := noted
    obtain ⟨_, rfl⟩ := Prod.mk.inj same
    simp only [outcome, reply]
    rfl
  | responded status body =>
    simp only [reply, Noting.recordSuccess, bind_ok_iff, pure, Except.pure, Except.ok.injEq,
      Noting.balanced, Noting.start, listed] at noted
    obtain ⟨engine, _, _, ⟨balancer, _, rfl⟩, noted⟩ := noted
    cases body with
    | none =>
      obtain ⟨_, rfl⟩ := Prod.mk.inj (Except.ok.inj noted)
      simp only [outcome, reply]
      rfl
    | some responseBytes =>
      simp only [Noting.recordRequest, Noting.breakerSuccess, bind_ok_iff, pure, Except.pure,
        Except.ok.injEq] at noted
      obtain ⟨_, ⟨rewarded, _, rfl⟩, noted⟩ := noted
      cases read : lib.fromSlice responseBytes with
      | none =>
        simp only [read, Except.ok.injEq] at noted
        obtain ⟨_, rfl⟩ := Prod.mk.inj noted
        simp only [outcome, reply, read]
        cases s.walletTracker with
        | none => rfl
        | some tracker => rfl
      | some json =>
        simp only [read, Except.ok.injEq] at noted
        obtain ⟨_, rfl⟩ := Prod.mk.inj noted
        simp only [outcome, reply, read]
        cases s.walletTracker with
        | none => rfl
        | some tracker => rfl

theorem oneVerdict_iff {endpoint : String} {o : Outcome}
    (recorded : records = o.records s.walletTracker) (answered : h.response.status = o.status)
    (unsent : o = .sendError → Marked .failure env endpoint s h.state)
    (replied : o = .replied → Marked .success env endpoint s h.state) :
    OneVerdict env s endpoint records h ↔ o = .sendError ∨ o = .replied := by
  subst recorded
  cases o with
  | sendError =>
    refine iff_of_true ⟨.failure, rfl, rfl, fun _ => rfl, unsent rfl, ?_⟩ (.inl rfl)
    simp [answered, Outcome.status]
  | unread =>
    refine iff_of_false ?_ (by simp)
    rintro ⟨verdict, none, _⟩
    cases none
  | unparsed =>
    refine iff_of_false ?_ (by simp)
    rintro ⟨verdict, success, _, _, _, sameAnswer⟩
    obtain rfl := (List.cons.inj success).1
    simp [answered, Outcome.status] at sameAnswer
  | replied =>
    refine iff_of_true ⟨.success, rfl, rfl, fun tracked => ?_, replied rfl, ?_⟩ (.inr rfl)
    · rw [Outcome.records, Option.isSome_iff_ne_none.mpr tracked]
      rfl
    · simp [answered, Outcome.status]

/-! The way to a post. -/

theorem weightedPick_listed {nodes : List LoadBalancerNode} {pick : Int} {endpoint : String}
    (picked : weightedPick pick nodes = .ok (some endpoint)) :
    ∃ node ∈ nodes, node.endpoint = endpoint := by
  induction nodes generalizing pick with
  | nil => cases picked
  | cons node rest ih =>
    simp only [weightedPick, bind_ok_iff] at picked
    obtain ⟨left, _, picked⟩ := picked
    split at picked
    · obtain rfl := Option.some.inj (Except.ok.inj picked)
      exact ⟨node, List.mem_cons_self, rfl⟩
    · obtain ⟨other, member, same⟩ := ih picked
      exact ⟨other, List.mem_cons_of_mem _ member, same⟩

theorem lists_iff {balancer : LoadBalancer} {endpoint : String} :
    balancer.lists endpoint = true ↔ ∃ node ∈ balancer.nodes, node.endpoint = endpoint := by
  simp only [LoadBalancer.lists, List.any_eq_true, decide_eq_true_eq]

theorem selectNode_ok {balancer balancer' : LoadBalancer} {random : UInt32}
    {selected : Option String} (ok : balancer.selectNode random = .ok (balancer', selected)) :
    balancer'.nodes = balancer.nodes ∧
      ∀ endpoint, selected = some endpoint → balancer.lists endpoint = true := by
  have alive : ∀ node ∈ balancer.nodes.filter LoadBalancerNode.alive, ∀ endpoint,
      node.endpoint = endpoint → balancer.lists endpoint = true := fun node member endpoint same =>
    lists_iff.mpr ⟨node, List.mem_of_mem_filter member, same⟩
  have least : ∀ (key : LoadBalancerNode → Nat) (endpoint : String),
      ((balancer.nodes.filter LoadBalancerNode.alive).argmin key).map LoadBalancerNode.endpoint =
        some endpoint → balancer.lists endpoint = true := by
    intro key endpoint found
    obtain ⟨node, least, same⟩ := Option.map_eq_some_iff.mp found
    exact alive node (List.argmin_mem least) endpoint same
  cases LoadBalancer.selectNode_selects ok with
  | noneAlive none => exact ⟨rfl, fun _ none => nomatch none⟩
  | roundRobin listed strategy =>
    rw [listed] at alive
    refine ⟨rfl, fun endpoint found => ?_⟩
    obtain ⟨node, taken, same⟩ := Option.map_eq_some_iff.mp found
    exact alive node (List.mem_of_getElem? taken) endpoint same
  | leastConnections listed strategy => exact ⟨rfl, listed ▸ least _⟩
  | latencyBased listed strategy => exact ⟨rfl, listed ▸ least _⟩
  | @weightless first rest listed strategy summed =>
    rw [listed] at alive
    exact ⟨rfl, fun endpoint found => alive first List.mem_cons_self endpoint
      (Option.some.inj found)⟩
  | @weighted first rest _ picked listed strategy summed positive walked =>
    rw [listed] at alive
    refine ⟨rfl, fun endpoint found => ?_⟩
    cases picked with
    | none => exact alive first List.mem_cons_self endpoint (Option.some.inj found)
    | some picked =>
      obtain ⟨node, member, same⟩ := weightedPick_listed walked
      exact alive node member endpoint (same.trans (Option.some.inj found))
  | adaptive listed strategy summed => exact ⟨rfl, listed ▸ least _⟩

theorem Untouched.trans {s₁ s₂ s₃ : SharedState} (first : Untouched s₁ s₂)
    (second : Untouched s₂ s₃) : Untouched s₁ s₃ where
  url := second.url.trans first.url
  breaker := second.breaker.trans first.breaker
  nodes := second.nodes.trans first.nodes

theorem recordRequest_marks {s' : SharedState} (ok : recordRequest s = .ok s') :
    Untouched s s' ∧ s'.walletTracker = s.walletTracker.map Verdict.success.onTracker := by
  unfold recordRequest at ok
  split at ok
  · rename_i untracked
    obtain rfl := Except.ok.inj ok
    refine ⟨⟨rfl, rfl, rfl⟩, ?_⟩
    rw [untracked]
    rfl
  · rename_i tracker tracked
    simp only [bind_ok_iff, pure, Except.pure, Except.ok.injEq] at ok
    obtain ⟨tracker', recorded, rfl⟩ := ok
    simp only [WalletRewardTracker.recordRequest, bind_ok_iff, pure, Except.pure,
      Except.ok.injEq] at recorded
    obtain ⟨pending, added, rfl⟩ := recorded
    obtain ⟨_, rfl⟩ := addWithin_ok_iff.mp added
    refine ⟨⟨rfl, rfl, rfl⟩, ?_⟩
    rw [tracked]
    rfl

theorem recordRequest_rewarded {s' : SharedState} (ok : recordRequest s = .ok s') :
    Untouched s s' ∧ Rewarded s s' := by
  obtain ⟨untouched, tracker⟩ := recordRequest_marks ok
  refine ⟨untouched, ?_⟩
  rw [Rewarded, SharedState.sessionRequests, SharedState.sessionRequests, tracker,
    Option.map_map, Option.map_map]
  rfl

theorem rewarded_from {before after : SharedState}
    (tracker : before.walletTracker = s.walletTracker)
    (rewarded : Rewarded before after) : Rewarded s after := by
  unfold Rewarded SharedState.sessionRequests at rewarded ⊢
  rwa [tracker] at rewarded

theorem forwardUpstream_course {before : SharedState} {bodyStr : String}
    (handled : rpcHandler lib env s req = .ok h)
    (ok : forwardUpstream lib env before bodyStr method params effects = .ok h)
    (same : Untouched s before) (tracker : before.walletTracker = s.walletTracker)
    (unposted : effects.any Effect.isUpstreamPost = false) : Course lib env s req h := by
  cases forwardUpstream_steps ok with
  | refused tripped => exact .idle unposted rfl same tracker
  | blocked closed selection verification =>
    obtain ⟨nodes, _⟩ := selectNode_ok selection
    refine .idle ?_ rfl ⟨same.url, same.breaker, nodes.trans same.nodes⟩ tracker
    simp [Handled.posted, List.any_append, unposted, Effect.isUpstreamPost, List.any_map]
  | @posts balancer selected submission passed _ closed selection verification posted =>
    obtain ⟨nodes, listed⟩ := selectNode_ok selection
    have same' : Untouched s { before with loadBalancer := balancer } :=
      ⟨same.url, same.breaker, nodes.trans same.nodes⟩
    rw [forwardPosts, ← List.append_assoc] at posted
    refine .posted ⟨_, selected.getD before.solanaRpcUrl, method, params, _, bodyStr, same',
      tracker, ?_, handled.trans posted.symm⟩
    cases selected with
    | none => exact .inl same.url
    | some endpoint =>
      refine .inr ?_
      have found := listed endpoint rfl
      unfold LoadBalancer.lists at found ⊢
      rwa [same.nodes] at found

theorem interceptGetSlot_course {before : SharedState} {rpcReq : Value}
    (ok : interceptGetSlot lib env before method params rpcReq effects = .ok h)
    (same : Untouched s before) (tracker : before.walletTracker = s.walletTracker)
    (unposted : effects.any Effect.isUpstreamPost = false) : Course lib env s req h := by
  simp only [interceptGetSlot, bind_ok_iff, pure, Except.pure, Except.ok.injEq] at ok
  obtain ⟨engine, _, after, recorded, rfl⟩ := ok
  obtain ⟨untouched, rewarded⟩ := recordRequest_rewarded recorded
  refine .answered unposted rfl (same.trans ?_) (rewarded_from tracker rewarded)
  exact ⟨untouched.url, untouched.breaker, untouched.nodes⟩

theorem serveCached_course {before : SharedState} {cached : Value}
    (ok : serveCached env before method cached = .ok h) (same : Untouched s before)
    (tracker : before.walletTracker = s.walletTracker) : Course lib env s req h := by
  simp only [serveCached, bind_ok_iff, pure, Except.pure, Except.ok.injEq] at ok
  obtain ⟨engine, _, after, recorded, rfl⟩ := ok
  obtain ⟨untouched, rewarded⟩ := recordRequest_rewarded recorded
  refine .answered rfl rfl (same.trans ?_) (rewarded_from tracker rewarded)
  exact ⟨untouched.url, untouched.breaker, untouched.nodes⟩

theorem processRequest_course {before : SharedState} {bodyStr : String} {rpcReq : Value}
    (handled : rpcHandler lib env s req = .ok h)
    (ok : processRequest lib env before bodyStr method params rpcReq effects = .ok h)
    (same : Untouched s before) (tracker : before.walletTracker = s.walletTracker)
    (unposted : effects.any Effect.isUpstreamPost = false) : Course lib env s req h := by
  have counted : Untouched s { before with
      attackPrevention := before.attackPrevention.incrementTotal } :=
    ⟨same.url, same.breaker, same.nodes⟩
  unfold processRequest at ok
  split at ok
  · exact interceptGetSlot_course ok counted tracker unposted
  · exact forwardUpstream_course handled ok counted tracker unposted

theorem handleUncached_course {before : SharedState} {bodyStr : String} {rpcReq : Value}
    (handled : rpcHandler lib env s req = .ok h)
    (ok : handleUncached lib env before req bodyStr rpcReq = .ok h) (same : Untouched s before)
    (tracker : before.walletTracker = s.walletTracker) : Course lib env s req h := by
  cases handleUncached_steps ok with
  | delivered found delivered =>
    exact .idle rfl rfl ⟨same.url, same.breaker, same.nodes⟩ tracker
  | @stays _ effects _ stays meshed processed =>
    have unposted : effects.any Effect.isUpstreamPost = false := by
      refine List.any_eq_false.mpr fun effect member => ?_
      obtain ⟨endpoint, rfl⟩ := meshed effect member
      exact Bool.noConfusion
    exact processRequest_course handled processed ⟨same.url, same.breaker, same.nodes⟩ tracker
      unposted

theorem rpcHandler_course (ok : rpcHandler lib env s req = .ok h) : Course lib env s req h := by
  cases rpcHandler_steps ok with
  | screened screening => exact .idle rfl rfl ⟨rfl, rfl, rfl⟩ rfl
  | unread screening unread => exact .idle rfl rfl ⟨rfl, rfl, rfl⟩ rfl
  | cached screening parsed lookup serves => exact serveCached_course serves ⟨rfl, rfl, rfl⟩ rfl
  | uncached screening parsed lookup handles =>
    exact handleUncached_course ok handles ⟨rfl, rfl, rfl⟩ rfl

/-! Runs. -/

/-- What a post leaves behind in the tracker and in the table of nodes. -/
structure PostKeeps (lib : Serde) (env : Env) (s s' : SharedState) : Prop where
  url : s'.solanaRpcUrl = s.solanaRpcUrl
  nodes : ∀ endpoint, s'.loadBalancer.lists endpoint = s.loadBalancer.lists endpoint
  paid : (outcome lib env).rewarded = true → Rewarded s s'
  unpaid : (outcome lib env).rewarded = false → s'.sessionRequests = s.sessionRequests

theorem updateFirst_lists {update : LoadBalancerNode → Checked LoadBalancerNode}
    {nodes nodes' : List LoadBalancerNode} (endpoint : String)
    (named : ∀ node node', update node = .ok node' → node'.endpoint = node.endpoint)
    (ok : LoadBalancer.updateFirst endpoint update nodes = .ok nodes') :
    nodes'.map LoadBalancerNode.endpoint = nodes.map LoadBalancerNode.endpoint := by
  induction nodes generalizing nodes' with
  | nil =>
    obtain rfl := Except.ok.inj ok
    rfl
  | cons node rest ih =>
    unfold LoadBalancer.updateFirst at ok
    split at ok
    · simp only [bind_ok_iff, pure, Except.pure, Except.ok.injEq] at ok
      obtain ⟨node', updated, rfl⟩ := ok
      simp only [List.map_cons, named node node' updated]
    · simp only [bind_ok_iff, pure, Except.pure, Except.ok.injEq] at ok
      obtain ⟨rest', updated, rfl⟩ := ok
      simp only [List.map_cons, ih updated]

theorem lists_congr {balancer balancer' : LoadBalancer}
    (same : balancer'.nodes.map LoadBalancerNode.endpoint =
      balancer.nodes.map LoadBalancerNode.endpoint) (endpoint : String) :
    balancer'.lists endpoint = balancer.lists endpoint := by
  have byNames : ∀ b : LoadBalancer, b.lists endpoint =
      (b.nodes.map LoadBalancerNode.endpoint).any (· = endpoint) := fun b => by
    rw [LoadBalancer.lists, List.any_map]
    rfl
  rw [byNames, byNames, same]

theorem recordSuccess_lists {balancer balancer' : LoadBalancer} {latencyMs : Nat}
    (ok : balancer.recordSuccess upstreamRpc latencyMs = .ok balancer') (endpoint : String) :
    balancer'.lists endpoint = balancer.lists endpoint := by
  simp only [LoadBalancer.recordSuccess, bind_ok_iff, pure, Except.pure, Except.ok.injEq] at ok
  obtain ⟨nodes, updated, rfl⟩ := ok
  refine lists_congr (updateFirst_lists upstreamRpc (fun node node' moved => ?_) updated) endpoint
  simp only [LoadBalancer.movingAverage, bind_ok_iff, pure, Except.pure, Except.ok.injEq] at moved
  obtain ⟨total, _, rfl⟩ := moved
  rfl

theorem recordError_lists {balancer balancer' : LoadBalancer}
    (ok : balancer.recordError upstreamRpc = .ok balancer') (endpoint : String) :
    balancer'.lists endpoint = balancer.lists endpoint := by
  simp only [LoadBalancer.recordError, bind_ok_iff, pure, Except.pure, Except.ok.injEq] at ok
  obtain ⟨nodes, updated, rfl⟩ := ok
  refine lists_congr (updateFirst_lists upstreamRpc (fun node node' counted => ?_) updated) endpoint
  obtain rfl := Except.ok.inj counted
  rfl

/-- An update of the first node with the endpoint leaves the other nodes as they are. -/
theorem updateFirst_splits {update : LoadBalancerNode → Checked LoadBalancerNode}
    {nodes nodes' : List LoadBalancerNode} {endpoint : String}
    (listed : ∃ node ∈ nodes, node.endpoint = endpoint)
    (ok : LoadBalancer.updateFirst endpoint update nodes = .ok nodes') :
    ∃ front node back node', nodes = front ++ node :: back ∧
      (∀ other ∈ front, other.endpoint ≠ endpoint) ∧ node.endpoint = endpoint ∧
      update node = .ok node' ∧ nodes' = front ++ node' :: back := by
  induction nodes generalizing nodes' with
  | nil =>
    obtain ⟨_, member, _⟩ := listed
    cases member
  | cons first rest ih =>
    unfold LoadBalancer.updateFirst at ok
    split at ok
    · rename_i here
      simp only [bind_ok_iff, pure, Except.pure, Except.ok.injEq] at ok
      obtain ⟨node', updated, rfl⟩ := ok
      exact ⟨[], first, rest, node', rfl, nofun, here, updated, rfl⟩
    · rename_i elsewhere
      simp only [bind_ok_iff, pure, Except.pure, Except.ok.injEq] at ok
      obtain ⟨rest', updated, rfl⟩ := ok
      have later : ∃ node ∈ rest, node.endpoint = endpoint := by
        obtain ⟨node, member, named⟩ := listed
        rcases List.mem_cons.mp member with rfl | member
        · exact absurd named elsewhere
        · exact ⟨node, member, named⟩
      obtain ⟨front, node, back, node', rfl, others, named, moved, rfl⟩ := ih later updated
      exact ⟨first :: front, node, back, node', rfl,
        List.forall_mem_cons.mpr ⟨elsewhere, others⟩, named, moved, rfl⟩

theorem recordError_marks {balancer balancer' : LoadBalancer} (latencyMs : Nat)
    (listed : balancer.lists upstreamRpc = true)
    (ok : balancer.recordError upstreamRpc = .ok balancer') :
    NodeMarked .failure latencyMs upstreamRpc balancer.nodes balancer'.nodes := by
  simp only [LoadBalancer.recordError, bind_ok_iff, pure, Except.pure, Except.ok.injEq] at ok
  obtain ⟨nodes, updated, rfl⟩ := ok
  obtain ⟨front, node, back, _, split, others, named, counted, rfl⟩ :=
    updateFirst_splits (lists_iff.mp listed) updated
  obtain rfl := Except.ok.inj counted
  exact ⟨front, node, back, split, others, named, rfl⟩

theorem recordSuccess_marks {balancer balancer' : LoadBalancer} {latencyMs : Nat}
    (listed : balancer.lists upstreamRpc = true)
    (ok : balancer.recordSuccess upstreamRpc latencyMs = .ok balancer') :
    NodeMarked .success latencyMs upstreamRpc balancer.nodes balancer'.nodes := by
  simp only [LoadBalancer.recordSuccess, bind_ok_iff, pure, Except.pure, Except.ok.injEq] at ok
  obtain ⟨nodes, updated, rfl⟩ := ok
  obtain ⟨front, node, back, _, split, others, named, moved, rfl⟩ :=
    updateFirst_splits (lists_iff.mp listed) updated
  simp only [LoadBalancer.movingAverage, bind_ok_iff, pure, Except.pure, Except.ok.injEq] at moved
  obtain ⟨total, added, rfl⟩ := moved
  obtain ⟨_, rfl⟩ := addWithin_ok_iff.mp added
  exact ⟨front, node, back, split, others, named, rfl⟩

/-- The verdicts that agree with the client's answer change the state as one verdict does. -/
theorem postUpstream_marks (listed : s.loadBalancer.lists upstreamRpc = true)
    (ok : postUpstream lib env s upstreamRpc method params effects = .ok h) :
    (outcome lib env = .sendError → Marked .failure env upstreamRpc s h.state) ∧
      (outcome lib env = .replied → Marked .success env upstreamRpc s h.state) := by
  cases postUpstream_steps ok with
  | unsent reply failed =>
    have unsent : outcome lib env = .sendError := by simp only [outcome, reply]
    rw [unsent]
    exact ⟨fun _ => ⟨rfl, recordError_marks _ listed failed, Option.map_id'.symm⟩, nofun⟩
  | unread reply recorded succeeded =>
    have unread : outcome lib env = .unread := by simp only [outcome, reply]
    rw [unread]
    exact ⟨nofun, nofun⟩
  | unparsed reply recorded succeeded reward read =>
    have unparsed : outcome lib env = .unparsed := by simp [outcome, reply, read]
    rw [unparsed]
    exact ⟨nofun, nofun⟩
  | replied reply recorded succeeded reward read =>
    have replied : outcome lib env = .replied := by simp [outcome, reply, read]
    obtain ⟨untouched, tracker⟩ := recordRequest_marks reward
    have marked := recordSuccess_marks listed succeeded
    rw [replied]
    exact ⟨nofun, fun _ => ⟨untouched.breaker, untouched.nodes ▸ marked, tracker⟩⟩

theorem postUpstream_keeps
    (ok : postUpstream lib env s upstreamRpc method params effects = .ok h) :
    PostKeeps lib env s h.state ∧ h.response.status = (outcome lib env).status := by
  have keepsNodes {balancer : LoadBalancer} {rewarded : SharedState}
      (succeeded : s.loadBalancer.recordSuccess upstreamRpc (env.latencyUs / 1000) = .ok balancer)
      (nodes : rewarded.loadBalancer.nodes = balancer.nodes) (endpoint : String) :
      rewarded.loadBalancer.lists endpoint = s.loadBalancer.lists endpoint := by
    rw [← recordSuccess_lists succeeded endpoint, LoadBalancer.lists, nodes]
    rfl
  cases postUpstream_steps ok with
  | unsent reply failed =>
    have unsent : outcome lib env = .sendError := by simp only [outcome, reply]
    rw [unsent]
    refine ⟨⟨rfl, recordError_lists failed, ?_, fun _ => rfl⟩, rfl⟩
    simp [unsent, Outcome.rewarded]
  | unread reply recorded succeeded =>
    have unread : outcome lib env = .unread := by simp only [outcome, reply]
    rw [unread]
    refine ⟨⟨rfl, recordSuccess_lists succeeded, ?_, fun _ => rfl⟩, rfl⟩
    simp [unread, Outcome.rewarded]
  | unparsed reply recorded succeeded reward read =>
    have unparsed : outcome lib env = .unparsed := by simp [outcome, reply, read]
    obtain ⟨untouched, rewarded⟩ := recordRequest_rewarded reward
    rw [unparsed]
    refine ⟨⟨untouched.url, keepsNodes succeeded untouched.nodes, fun _ => rewarded, ?_⟩, rfl⟩
    simp [unparsed, Outcome.rewarded]
  | replied reply recorded succeeded reward read =>
    have replied : outcome lib env = .replied := by simp [outcome, reply, read]
    obtain ⟨untouched, rewarded⟩ := recordRequest_rewarded reward
    rw [replied]
    refine ⟨⟨untouched.url, keepsNodes succeeded untouched.nodes, fun _ => rewarded, ?_⟩, rfl⟩
    simp [replied, Outcome.rewarded]

theorem Post.kept (post : Post lib env s req) (handled : rpcHandler lib env s req = .ok h) :
    PostKeeps lib env post.before h.state ∧ h.response.status = (outcome lib env).status ∧
      h.posted = true ∧ h.own = false := by
  have ok := post.handled.symm.trans handled
  obtain ⟨keeps, status⟩ := postUpstream_keeps ok
  obtain ⟨effects, forwarded⟩ := postUpstream_ok ok
  refine ⟨keeps, status, ?_, ?_⟩
  · rw [Handled.posted, effects]
    simp [Effect.isUpstreamPost]
  · cases forwarded with
    | failed origin keeps => simp [Handled.own, origin]
    | replied json read origin response adds => simp [Handled.own, origin]

theorem Untouched.lists {s' : SharedState} (same : Untouched s s') (endpoint : String) :
    s'.loadBalancer.lists endpoint = s.loadBalancer.lists endpoint := by
  unfold LoadBalancer.lists
  rw [same.nodes]

theorem handledTo_fallbackListed (s : SharedState) (arrival : Arrival) (s' : SharedState)
    (listed : FallbackListed s) (step : HandledTo lib s arrival s') : FallbackListed s' := by
  obtain ⟨h, handled, rfl⟩ := step
  unfold FallbackListed at listed ⊢
  cases rpcHandler_course handled with
  | idle unposted own same tracker => rwa [same.lists, same.url]
  | answered unposted own same rewarded => rwa [same.lists, same.url]
  | posted post =>
    obtain ⟨keeps, _⟩ := post.kept handled
    rwa [keeps.nodes, keeps.url, post.same.lists, post.same.url]

theorem fallbackListed_new (config : Config) (walletTracker : Option WalletRewardTracker)
    (batteryMode : Bool) : FallbackListed (.new config walletTracker batteryMode) := by
  simp [FallbackListed, LoadBalancer.lists, SharedState.new, LoadBalancer.addNode]

/-- What a request does before its post changes none of the three. -/
theorem Marked.since {verdict : Verdict} {endpoint : String} {before after : SharedState}
    (marked : Marked verdict env endpoint before after) (same : Untouched s before)
    (tracker : before.walletTracker = s.walletTracker) :
    Marked verdict env endpoint s after where
  breaker := by rw [marked.breaker, same.breaker]
  balancer := same.nodes ▸ marked.balancer
  tracker := by rw [marked.tracker, tracker]

theorem Post.oneVerdict_iff (listed : FallbackListed s) (post : Post lib env s req)
    (handled : rpcHandler lib env s req = .ok h) :
    ∃ records, post.noted = .ok (h, records) ∧
      (OneVerdict env s post.upstreamRpc records h ↔ Conclusive lib env) := by
  have erased := postUpstreamNoted_erases.trans (post.handled.symm.trans handled)
  cases noted : post.noted with
  | error halt =>
    unfold Post.noted at noted
    rw [noted] at erased
    cases erased
  | ok noting =>
    have same := noted
    unfold Post.noted at same
    rw [same] at erased
    obtain rfl : noting.1 = h := Except.ok.inj erased
    refine ⟨noting.2, rfl, ?_⟩
    have chosen : post.before.loadBalancer.lists post.upstreamRpc = true := by
      rw [post.same.lists]
      exact post.chosen.elim (fun fallback => fallback ▸ listed) id
    have recorded := noted_records chosen same
    rw [post.tracker] at recorded
    obtain ⟨unsent, replied⟩ := postUpstream_marks chosen (post.handled.symm.trans handled)
    exact Daemon.oneVerdict_iff recorded (post.kept handled).2.1
      (fun failed => (unsent failed).since post.same post.tracker)
      fun read => (replied read).since post.same post.tracker

/-- How many requests were answered from here, and how many posts with 200. -/
structure Tally where
  own : Nat
  answered : Nat
  deriving DecidableEq, Repr

def Tally.note (lib : Serde) (s : SharedState) (arrival : Arrival) (tally : Tally) : Tally :=
  match rpcHandler lib arrival.env s arrival.request with
  | .error _ => tally
  | .ok h => ⟨tally.own + h.own.toNat,
      tally.answered + (h.posted && h.response.status = 200).toNat⟩

theorem Tally.note_ok {arrival : Arrival} (tally : Tally)
    (handled : rpcHandler lib arrival.env s arrival.request = .ok h) :
    tally.note lib s arrival = ⟨tally.own + h.own.toNat,
      tally.answered + (h.posted && h.response.status = 200).toNat⟩ := by
  rw [Tally.note, handled]

/-- A request that is posted gets an outcome that the trackers agree on. -/
def PostsConclude (lib : Serde) (s : SharedState) (arrival : Arrival) : Prop :=
  ∀ h, rpcHandler lib arrival.env s arrival.request = .ok h → h.posted = true →
    Conclusive lib arrival.env

def Paid (x : SharedState × Tally) (tracked : Bool) : Prop :=
  x.1.sessionRequests = if tracked then some ((x.2.own + x.2.answered) % 2 ^ 64) else none

theorem Paid.rewarded {x : SharedState × Tally} {tracked : Bool} {s' : SharedState}
    {tally : Tally} (paid : Paid x tracked) (rewarded : Rewarded x.1 s')
    (counted : tally.own + tally.answered = x.2.own + x.2.answered + 1) :
    Paid (s', tally) tracked := by
  unfold Paid at paid ⊢
  rw [rewarded, paid, counted]
  cases tracked with
  | false => rfl
  | true => simp only [if_true, Option.map_some, Nat.mod_add_mod]

theorem paid_step {tracked : Bool} (x : SharedState × Tally) (arrival : Arrival)
    (y : SharedState × Tally) (paid : Paid x tracked)
    (step : Runs.Traced (HandledTo lib) (Tally.note lib) x arrival y)
    (concludes : PostsConclude lib x.1 arrival) : Paid y tracked := by
  obtain ⟨s, tally⟩ := x
  obtain ⟨s', tally'⟩ := y
  obtain ⟨⟨h, handled, rfl⟩, rfl⟩ := step
  simp only [Tally.note, handled]
  cases rpcHandler_course handled with
  | idle unposted own same tracker =>
    unfold Paid SharedState.sessionRequests at paid ⊢
    simpa only [tracker, own, unposted, Bool.false_and, Bool.toNat_false, Nat.add_zero] using paid
  | answered unposted own same rewarded =>
    apply paid.rewarded rewarded
    simp only [own, unposted, Bool.toNat_true, Bool.false_and, Bool.toNat_false]
    omega
  | posted post =>
    obtain ⟨keeps, status, posted, own⟩ := post.kept handled
    rcases concludes h handled posted with unsent | replied
    · have same := keeps.unpaid (by rw [unsent]; rfl)
      rw [unsent] at status
      unfold SharedState.sessionRequests at same
      rw [post.tracker] at same
      unfold Paid SharedState.sessionRequests at paid ⊢
      simpa [same, own, status, Outcome.status] using paid
    · have rewarded := keeps.paid (by rw [replied]; rfl)
      rw [replied] at status
      apply paid.rewarded (rewarded_from post.tracker rewarded)
      simp [own, posted, status, Outcome.status]
      omega

/-- A posted request leaves one verdict exactly when it fails to be sent or its answer is
JSON. In a run where every post does, the session counts the requests that were answered
from here and the posts that were answered with 200. -/
theorem one_verdict_iff_conclusive (lib : Serde) (config : Config) (tracked batteryMode : Bool)
    (arrivals : List Arrival) (s : SharedState) (tally : Tally)
    (run : Run (Runs.Traced (HandledTo lib) (Tally.note lib))
      (.new config (if tracked then some .new else none) batteryMode, ⟨0, 0⟩) arrivals
      (s, tally)) :
    (∀ (arrival : Arrival) (h : Handled),
      rpcHandler lib arrival.env s arrival.request = .ok h → h.posted = true →
      Nonempty (Post lib arrival.env s arrival.request) ∧
      ∀ post : Post lib arrival.env s arrival.request, ∃ records,
        post.noted = .ok (h, records) ∧
        (OneVerdict arrival.env s post.upstreamRpc records h ↔ Conclusive lib arrival.env)) ∧
    (Run (Guarded (Runs.Traced (HandledTo lib) (Tally.note lib))
        fun x arrival => PostsConclude lib x.1 arrival)
      (.new config (if tracked then some .new else none) batteryMode, ⟨0, 0⟩) arrivals
      (s, tally) →
      s.sessionRequests =
        if tracked then some ((tally.own + tally.answered) % 2 ^ 64) else none) := by
  constructor
  · intro arrival h handled posted
    have listed : FallbackListed (s, tally).1 := run.invariant
      (I := fun x => FallbackListed x.1)
      (fun x a y listed step => handledTo_fallbackListed x.1 a y.1 listed step.1)
      (fallbackListed_new config _ batteryMode)
    refine ⟨?_, fun post => post.oneVerdict_iff listed handled⟩
    cases rpcHandler_course handled with
    | idle unposted => cases posted.symm.trans unposted
    | answered unposted => cases posted.symm.trans unposted
    | posted post => exact ⟨post⟩
  · intro guarded
    have paid : Paid (s, tally) tracked := guarded.invariant (I := fun x => Paid x tracked)
      (fun x a y paid step => paid_step x a y paid step.1 step.2) (by cases tracked <;> rfl)
    exact paid

/-! A node with a wallet asks for a balance: one answer is JSON, one is not. -/

def walletState : SharedState :=
  .new ⟨"https://api.devnet.solana.com", 8080, .general, .asiaSouth, 100, "production", ""⟩
    (some .new) false

def plainBalance : Arrival where
  request := firstBalance.request
  env := envAt 0 (.unreachable "") (.responded 502 (some "Bad Gateway".toUTF8))

structure ReadsPlain (lib : Serde) : Prop where
  request : lib.fromStr (balanceBody "1") = some (balanceCall 1)
  reply : lib.fromStr "Bad Gateway" = none

theorem balanceSerde_readsPlain : ReadsPlain balanceSerde where
  request := balanceSerde_reads.first
  reply := by
    have first : "Bad Gateway" ≠ balanceBody "1" := by decide
    have second : "Bad Gateway" ≠ balanceBody "2" := by decide
    have reply : "Bad Gateway" ≠ balanceReplyText := by decide
    simp only [Serde.fromStr, balanceSerde, fromUTF8?_toUTF8, Option.bind_some, if_neg first,
      if_neg second, if_neg reply]

theorem plainBalance_handled (reads : ReadsPlain lib) :
    ∃ h, rpcHandler lib plainBalance.env walletState plainBalance.request = .ok h ∧
      h.posted = true := by
  obtain ⟨executor, handled⟩ := firstBalance_posts (some .new)
    (.responded 502 (some "Bad Gateway".toUTF8)) reads.request
  have unread : lib.fromSlice "Bad Gateway".toUTF8 = none := reads.reply
  simp only [postUpstream, envAt, unread] at handled
  exact ⟨_, handled, rfl⟩

theorem walletBalance_handled :
    ∃ h, rpcHandler balanceSerde firstBalance.env walletState firstBalance.request = .ok h ∧
      h.posted = true ∧ h.own = false ∧ h.response.status = 200 := by
  obtain ⟨executor, handled⟩ := firstBalance_posts (some .new)
    (.responded 200 (some balanceReplyText.toUTF8)) balanceSerde_reads.first
  have read : balanceSerde.fromSlice balanceReplyText.toUTF8 = some balanceReply :=
    balanceSerde_reads.reply
  simp only [postUpstream, envAt, read] at handled
  exact ⟨_, handled, rfl, rfl, rfl⟩

theorem plain_balance_has_two_verdicts :
    (∃ lib, ReadsPlain lib) ∧ ∀ lib, ReadsPlain lib →
      ¬ ∀ (config : Config) (tracked batteryMode : Bool) (arrivals : List Arrival)
        (s : SharedState), Run (HandledTo lib)
          (.new config (if tracked then some .new else none) batteryMode) arrivals s →
        ∀ (arrival : Arrival) (h : Handled),
          rpcHandler lib arrival.env s arrival.request = .ok h → h.posted = true →
          ∀ post : Post lib arrival.env s arrival.request, ∃ records,
            post.noted = .ok (h, records) ∧
              OneVerdict arrival.env s post.upstreamRpc records h := by
  refine ⟨⟨balanceSerde, balanceSerde_readsPlain⟩, fun lib reads agree => ?_⟩
  obtain ⟨h, handled, posted⟩ := plainBalance_handled reads
  have fresh := agree _ true false [] walletState (.nil _) plainBalance h handled posted
  cases rpcHandler_course handled with
  | idle unposted => cases posted.symm.trans unposted
  | answered unposted => cases posted.symm.trans unposted
  | posted post =>
    obtain ⟨records, noted, oneVerdict⟩ := fresh post
    obtain ⟨records', noted', verdict_iff⟩ :=
      post.oneVerdict_iff (fallbackListed_new _ _ false) handled
    obtain ⟨_, rfl⟩ := Prod.mk.inj (Except.ok.inj (noted.symm.trans noted'))
    have unread : lib.fromSlice "Bad Gateway".toUTF8 = none := reads.reply
    have unparsed : outcome lib plainBalance.env = .unparsed := by
      simp only [outcome, plainBalance, envAt, unread, Option.isSome_none, Bool.false_eq_true,
        if_false]
    rcases verdict_iff.mp oneVerdict with unsent | replied
    · cases unparsed.symm.trans unsent
    · cases unparsed.symm.trans replied

theorem wallet_balance_counted :
    ∃ s : SharedState, Run (HandledTo balanceSerde) walletState [firstBalance] s ∧
      s.sessionRequests = some 1 := by
  obtain ⟨h, handled, posted, own, status⟩ := walletBalance_handled
  have replied : outcome balanceSerde firstBalance.env = .replied := by
    have read : balanceSerde.fromSlice balanceReplyText.toUTF8 = some balanceReply :=
      balanceSerde_reads.reply
    simp only [outcome, firstBalance, envAt, read, Option.isSome_some, if_true]
  have noted : Tally.note balanceSerde walletState firstBalance ⟨0, 0⟩ = ⟨0, 1⟩ := by
    rw [Tally.note_ok ⟨0, 0⟩ handled]
    simp [posted, own, status]
  have step : Runs.Traced (HandledTo balanceSerde) (Tally.note balanceSerde) (walletState, ⟨0, 0⟩)
      firstBalance (h.state, ⟨0, 1⟩) := ⟨⟨h, handled, rfl⟩, noted.symm⟩
  have counted := (one_verdict_iff_conclusive balanceSerde _ true false [firstBalance] h.state
    ⟨0, 1⟩ (.cons step (.nil _))).2
  exact ⟨h.state, .cons ⟨h, handled, rfl⟩ (.nil _),
    counted (.cons ⟨step, fun _ _ _ => .inr replied⟩ (.nil _))⟩

end Solnet.Daemon
