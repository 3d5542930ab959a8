import Solnet.Daemon.Handling
import Solnet.Lib.Runs

/-! The replies of a node over whole runs: which id they carry, and whether the proof
they carry verifies. Both depend on earlier requests through the caches. -/
namespace Solnet.Daemon
open Runs

/-- A request with what its handling reads from outside. -/
structure Arrival where
  request : Request
  env : Env

def Handled.ownReply (h : Handled) : Option Value :=
  if h.origin = .refused ∨ h.origin = .mesh ∨ h.response.status ≠ 200 then none
  else
    match h.response.body with
    | .json reply => some reply
    | _ => none

/-- The id of the request that stored the entry under a tier and a key. -/
abbrev Authors := CacheTier → String → Value

/-- The authors after a handling: a computed reply is stored under the request's key. -/
def Authors.after (lib : Serde) (authors : Authors) (arrival : Arrival) (h : Handled) : Authors :=
  match parseBody lib arrival.request.body with
  | .error _ => authors
  | .ok (_, rpcReq) => fun tier key =>
    if (h.origin = .slotIntercept ∨ h.origin = .upstream) ∧
        CacheTtl.getCacheTier (requestMethod rpcReq) = some tier ∧
        key = buildCacheKey lib (requestMethod rpcReq) (requestParams rpcReq) then
      rpcReq.index "id"
    else authors tier key

structure Traced where
  state : SharedState
  authors : Authors

/-- The upstream node echoes the id it is sent. -/
def UpstreamEchoes (lib : Serde) (arrival : Arrival) : Prop :=
  ∀ bodyStr rpcReq json, parseBody lib arrival.request.body = .ok (bodyStr, rpcReq) →
    UpstreamJson lib arrival.env json → json.index "id" = rpcReq.index "id"

def Handles (lib : Serde) (t : Traced) (arrival : Arrival) (t' : Traced) : Prop :=
  UpstreamEchoes lib arrival ∧
    ∃ h, rpcHandler lib arrival.env t.state arrival.request = .ok h ∧
      t' = ⟨h.state, t.authors.after lib arrival h⟩

def Traced.start (s : SharedState) : Traced :=
  ⟨{ s with latencyEngine := .new }, fun _ _ => .null⟩

/-- The reply to a request has the id of that request. An absent id reads as null. -/
def EchoesId (lib : Serde) (t : Traced) (arrival : Arrival) : Prop :=
  ∀ h bodyStr rpcReq reply, rpcHandler lib arrival.env t.state arrival.request = .ok h →
    parseBody lib arrival.request.body = .ok (bodyStr, rpcReq) → h.ownReply = some reply →
    reply.index "id" = rpcReq.index "id"

/-- A request that finds a live entry has the id of the request that stored it. -/
def SameAuthor (lib : Serde) (t : Traced) (arrival : Arrival) : Prop :=
  ∀ bodyStr rpcReq entry tier,
    Admitted lib arrival.env t.state arrival.request bodyStr rpcReq →
    t.state.latencyEngine.live lib (requestMethod rpcReq) (requestParams rpcReq)
      arrival.env.cacheInstant = some entry →
    CacheTtl.getCacheTier (requestMethod rpcReq) = some tier →
    t.authors tier (buildCacheKey lib (requestMethod rpcReq) (requestParams rpcReq)) =
      rpcReq.index "id"

/-- Every cached reply has the id of its author. -/
def Attributed (t : Traced) : Prop :=
  t.state.latencyEngine.Stores fun tier key value => value.index "id" = t.authors tier key

variable {lib : Serde} {t t' : Traced} {arrival : Arrival} {h : Handled} {rpcReq : Value}
  {bodyStr : String}

theorem index_withProof (response : Value) :
    (withProof lib response).index "id" = response.index "id" :=
  Value.index_insert _ _ (by decide)

theorem index_slotReply (slot : Nat) : (slotReply lib slot rpcReq).index "id" =
    rpcReq.index "id" := by
  rw [slotReply, Value.index_insert _ _ (by decide), index_withProof]
  rfl

theorem ownReply_not_own (origin : h.origin = .refused ∨ h.origin = .mesh) :
    h.ownReply = none :=
  if_pos (origin.imp id .inl)

theorem ownReply_json {reply : Value} (computed : h.origin ≠ .refused) (own : h.origin ≠ .mesh)
    (response : h.response = .of 200 (.json reply)) : h.ownReply = some reply := by
  have answers : ¬ (h.origin = .refused ∨ h.origin = .mesh ∨ h.response.status ≠ 200) := by
    simp only [computed, own, response, Response.of, ne_eq, not_true_eq_false, or_false,
      not_false_eq_true]
  rw [Handled.ownReply, if_neg answers, response]
  rfl

/-- An answer that is the node's own reply is that of the slot intercept or of the upstream
node. -/
theorem ownReply_of_answer {env : Env} {engine : LatencyEngine} {target : Option GeoNode}
    {body : ByteArray} {reply : Value} (answer : Answer lib env engine target body rpcReq h)
    (own : h.ownReply = some reply) :
    (target = none ∨ env.meshReply = none) ∧
      (requestMethod rpcReq = "getSlot" ∧ reply = slotReply lib env.currentSlot rpcReq ∨
        ∃ json, UpstreamJson lib env json ∧ reply = withProof lib json) := by
  cases answer with
  | refused stays origin keeps =>
    rw [ownReply_not_own (.inl origin)] at own
    cases own
  | forwarded node found status bytes delivered origin response posts keeps =>
    rw [ownReply_not_own (.inr origin)] at own
    cases own
  | slotIntercept stays slot origin response adds =>
    rw [ownReply_json (by simp [origin]) (by simp [origin]) response] at own
    exact ⟨stays, .inl ⟨slot, (Option.some.inj own).symm⟩⟩
  | upstream stays json read origin response adds =>
    rw [ownReply_json (by simp [origin]) (by simp [origin]) response] at own
    exact ⟨stays, .inr ⟨json, read, (Option.some.inj own).symm⟩⟩

theorem after_parsed (authors : Authors)
    (parsed : parseBody lib arrival.request.body = .ok (bodyStr, rpcReq)) (tier : CacheTier)
    (key : String) : authors.after lib arrival h tier key =
      if (h.origin = .slotIntercept ∨ h.origin = .upstream) ∧
          CacheTtl.getCacheTier (requestMethod rpcReq) = some tier ∧
          key = buildCacheKey lib (requestMethod rpcReq) (requestParams rpcReq) then
        rpcReq.index "id"
      else authors tier key := by
  simp only [Authors.after, parsed]

theorem after_idle (authors : Authors) (slot : h.origin ≠ .slotIntercept)
    (upstream : h.origin ≠ .upstream) : authors.after lib arrival h = authors := by
  unfold Authors.after
  split
  · rfl
  · simp only [slot, upstream, or_self, false_and, if_false]

theorem Attributed.adds {value : Value} (attributed : Attributed t)
    (parsed : parseBody lib arrival.request.body = .ok (bodyStr, rpcReq))
    (stored : h.origin = .slotIntercept ∨ h.origin = .upstream)
    (echoes : value.index "id" = rpcReq.index "id")
    (adds : t.state.latencyEngine.Adds lib (requestMethod rpcReq) (requestParams rpcReq) value
      h.state.latencyEngine) : Attributed ⟨h.state, t.authors.after lib arrival h⟩ := by
  refine adds _ (fun tier key entry found => ?_) fun tier tiered => ?_
  · dsimp only
    rw [after_parsed t.authors parsed]
    by_cases own : CacheTtl.getCacheTier (requestMethod rpcReq) = some tier ∧
        key = buildCacheKey lib (requestMethod rpcReq) (requestParams rpcReq)
    · exact .inl own
    · rw [if_neg fun hit => own hit.2]
      exact .inr (attributed tier key entry found)
  · dsimp only
    rw [after_parsed t.authors parsed, if_pos ⟨stored, tiered, rfl⟩]
    exact echoes

theorem Attributed.keeps (attributed : Attributed t) (slot : h.origin ≠ .slotIntercept)
    (upstream : h.origin ≠ .upstream)
    (keeps : t.state.latencyEngine.Keeps h.state.latencyEngine) :
    Attributed ⟨h.state, t.authors.after lib arrival h⟩ := by
  rw [after_idle t.authors slot upstream]
  exact keeps _ attributed

theorem handles_attributed (t : Traced) (arrival : Arrival) (t' : Traced)
    (attributed : Attributed t) (handles : Handles lib t arrival t') : Attributed t' := by
  obtain ⟨echoes, h, handled, rfl⟩ := handles
  rcases rpcHandler_ok handled with ⟨origin, _, keeps, _⟩ | ⟨bodyStr, rpcReq, admitted, served, _⟩
  · exact attributed.keeps (by simp [origin]) (by simp [origin]) keeps
  · cases served with
    | cached entry found origin response keeps =>
      exact attributed.keeps (by simp [origin]) (by simp [origin]) keeps
    | uncached missed answer =>
      cases answer with
      | refused stays origin keeps =>
        exact attributed.keeps (by simp [origin]) (by simp [origin]) keeps
      | forwarded node found status bytes delivered origin response posts keeps =>
        exact attributed.keeps (by simp [origin]) (by simp [origin]) keeps
      | slotIntercept stays slot origin response adds =>
        exact attributed.adds admitted.parsed (.inl origin)
          (index_slotReply arrival.env.currentSlot) adds
      | upstream stays json read origin response adds =>
        exact attributed.adds admitted.parsed (.inr origin)
          (echoes bodyStr rpcReq json admitted.parsed read) adds

theorem echoesId_iff (t : Traced) (arrival : Arrival) (t' : Traced) (attributed : Attributed t)
    (handles : Handles lib t arrival t') : EchoesId lib t arrival ↔ SameAuthor lib t arrival := by
  obtain ⟨echoes, h, handled, _⟩ := handles
  constructor
  · intro right bodyStr rpcReq entry tier admitted live tiered
    obtain ⟨tier', tiered', stored⟩ := LatencyEngine.live_stored live
    obtain rfl := Option.some.inj (tiered.symm.trans tiered')
    rcases rpcHandler_ok handled with ⟨_, refused, _⟩ | ⟨bodyStr', rpcReq', admitted', served, _⟩
    · exact absurd admitted (refused bodyStr rpcReq)
    · obtain ⟨_, rfl⟩ := Prod.mk.inj (Except.ok.inj (admitted.parsed.symm.trans admitted'.parsed))
      cases served with
      | cached entry' found origin response keeps =>
        obtain rfl := Option.some.inj (live.symm.trans found)
        have reply := ownReply_json (by simp [origin]) (by simp [origin]) response
        exact (attributed tier _ entry stored).symm.trans
          (right h bodyStr rpcReq entry.value handled admitted.parsed reply)
      | uncached missed answer => cases live.symm.trans missed
  · intro same h' bodyStr rpcReq reply handled' parsed own
    obtain rfl := Except.ok.inj (handled.symm.trans handled')
    rcases rpcHandler_ok handled with ⟨origin, _⟩ | ⟨bodyStr', rpcReq', admitted, served, _⟩
    · rw [ownReply_not_own (.inl origin)] at own
      cases own
    · obtain ⟨_, rfl⟩ := Prod.mk.inj (Except.ok.inj (parsed.symm.trans admitted.parsed))
      cases served with
      | cached entry found origin response keeps =>
        rw [ownReply_json (by simp [origin]) (by simp [origin]) response] at own
        obtain rfl := Option.some.inj own
        obtain ⟨tier, tiered, stored⟩ := LatencyEngine.live_stored found
        exact (attributed tier _ entry stored).trans
          (same bodyStr' rpcReq entry tier admitted found tiered)
      | uncached missed answer =>
        obtain ⟨_, ⟨_, rfl⟩ | ⟨json, read, rfl⟩⟩ := ownReply_of_answer answer own
        · exact index_slotReply arrival.env.currentSlot
        · exact (index_withProof json).trans (echoes bodyStr rpcReq json parsed read)

theorem start_attributed (s : SharedState) : Attributed (.start s) := by
  intro tier key entry found
  cases found

/-- Every reply of a run has the id of its request exactly when every request of the run
that is served from a cache entry has the id of the request that stored the entry. -/
theorem id_echo_iff_same_author (lib : Serde) (s : SharedState) (arrivals : List Arrival) :
    EachStep (Handles lib) (EchoesId lib) (.start s) arrivals ↔
      EachStep (Handles lib) (SameAuthor lib) (.start s) arrivals :=
  eachStep_congr handles_attributed echoesId_iff (start_attributed s)

/-! Proofs. -/

/-- One request of a run, whatever the upstream node answers. -/
def HandledTo (lib : Serde) (s : SharedState) (arrival : Arrival) (s' : SharedState) : Prop :=
  ∃ h, rpcHandler lib arrival.env s arrival.request = .ok h ∧ h.state = s'

theorem handledTo_deterministic : Deterministic (HandledTo lib) := by
  rintro s arrival _ _ ⟨h, handled, rfl⟩ ⟨h', handled', rfl⟩
  rw [Except.ok.inj (handled.symm.trans handled')]

def CarriesProof (lib : Serde) (reply : Value) : Prop :=
  ∀ members, reply = .object members → ∃ proof : RpcProof,
    reply.get "solnet_proof" = some proof.toValue ∧
      MerkleVerifier.verifyProof lib (reply.remove "solnet_proof") proof = true

def ServesProof (lib : Serde) (s : SharedState) (arrival : Arrival) : Prop :=
  ∀ h reply, rpcHandler lib arrival.env s arrival.request = .ok h → h.ownReply = some reply →
    CarriesProof lib reply

/-- An admitted request finds no live entry. It goes to the mesh, or it is not the slot
request and what the upstream node answers has no proof of its own. -/
def ProvedAfresh (lib : Serde) (s : SharedState) (arrival : Arrival) : Prop :=
  ∀ bodyStr rpcReq, Admitted lib arrival.env s arrival.request bodyStr rpcReq →
    s.latencyEngine.live lib (requestMethod rpcReq) (requestParams rpcReq)
      arrival.env.cacheInstant = none ∧
    ((meshTarget s (requestMethod rpcReq) ≠ none ∧ arrival.env.meshReply ≠ none) ∨
      (requestMethod rpcReq ≠ "getSlot" ∧
        ∀ json, UpstreamJson lib arrival.env json → json.get "solnet_proof" = none))

theorem withProof_carries {response : Value} (unproved : response.get "solnet_proof" = none) :
    CarriesProof lib (withProof lib response) := by
  intro members proved
  cases response with
  | object before =>
    refine ⟨(MerkleVerifier.generateProof lib (.object before)).2, ?_, ?_⟩
    · simp only [withProof, Value.insert, Value.get, Members.lookup_insert, if_true]
    · have same : (withProof lib (.object before)).remove "solnet_proof" = .object before := by
        simp only [withProof, Value.insert, Value.remove, Members.remove_insert,
          Members.remove_of_lookup_none unproved]
      rw [same]
      exact verify_generated lib _
  | _ => cases proved

theorem servesProof_of_afresh (s : SharedState) (arrival : Arrival) (s' : SharedState)
    (_ : HandledTo lib s arrival s') (afresh : ProvedAfresh lib s arrival) :
    ServesProof lib s arrival := by
  intro h reply handled own
  rcases rpcHandler_ok handled with ⟨origin, _⟩ | ⟨bodyStr, rpcReq, admitted, served, _⟩
  · rw [ownReply_not_own (.inl origin)] at own
    cases own
  · obtain ⟨dead, leaves⟩ := afresh bodyStr rpcReq admitted
    cases served with
    | cached entry found origin response keeps => cases dead.symm.trans found
    | uncached missed answer =>
      obtain ⟨stays, replied⟩ := ownReply_of_answer answer own
      rcases leaves with ⟨found, delivered⟩ | ⟨other, unproved⟩
      · exact absurd stays (not_or.mpr ⟨found, delivered⟩)
      · rcases replied with ⟨slot, _⟩ | ⟨json, read, rfl⟩
        · exact absurd slot other
        · exact withProof_carries (unproved json read)

/-- In a run whose admitted requests all find no live entry, are not slot requests that
stay here, and get no proof from the upstream node, every proof served verifies. -/
theorem proofs_verify_when_afresh (lib : Serde) (s s' : SharedState) (arrivals : List Arrival)
    (run : Run (Guarded (HandledTo lib) (ProvedAfresh lib)) s arrivals s') :
    EachStep (HandledTo lib) (ServesProof lib) s arrivals :=
  run.eachStep handledTo_deterministic servesProof_of_afresh

/-! Two clients that ask for the same balance one nanosecond apart. -/

def balanceBody (id : String) : String :=
  "\x7b\"jsonrpc\":\"2.0\",\"id\":" ++ id ++
    ",\"method\":\"getBalance\",\"params\":[\"11111111111111111111111111111111\"]\x7d"

def balanceCall (id : Int) : Value :=
  .object [("id", .number (.int id)), ("jsonrpc", .string "2.0"), ("method", .string "getBalance"),
    ("params", .array [.string "11111111111111111111111111111111"])]

def balanceReplyText : String :=
  "\x7b\"jsonrpc\":\"2.0\",\"result\":\x7b\"value\":0\x7d,\"id\":1\x7d"

def balanceReply : Value :=
  .object [("id", .number (.int 1)), ("jsonrpc", .string "2.0"),
    ("result", .object [("value", .number (.int 0))])]

structure ReadsBalance (lib : Serde) : Prop where
  first : lib.fromStr (balanceBody "1") = some (balanceCall 1)
  second : lib.fromStr (balanceBody "2") = some (balanceCall 2)
  reply : lib.fromStr balanceReplyText = some balanceReply

/-- Parsing, printing and the digest, on just what this exchange needs of them. -/
def balanceSerde : Serde where
  fromSlice bytes := (String.fromUTF8? bytes).bind fun text =>
    if text = balanceBody "1" then some (balanceCall 1)
    else if text = balanceBody "2" then some (balanceCall 2)
    else if text = balanceReplyText then some balanceReply
    else none
  toString
    | .array _ => "[\"11111111111111111111111111111111\"]"
    | _ => "\x7b\"id\":1,\"jsonrpc\":\"2.0\",\"result\":\x7b\"value\":0\x7d\x7d"
  sha256Hex _ := "577ee580530f853c56c1967f52e6879ce60ec5746ca3a742ef036f6240d7dd3a"

theorem balanceSerde_reads : ReadsBalance balanceSerde where
  first := by
    simp only [Serde.fromStr, balanceSerde, fromUTF8?_toUTF8, Option.bind_some, if_true]
  second := by
    have other : balanceBody "2" ≠ balanceBody "1" := by decide
    simp only [Serde.fromStr, balanceSerde, fromUTF8?_toUTF8, Option.bind_some, if_neg other,
      if_true]
  reply := by
    have first : balanceReplyText ≠ balanceBody "1" := by decide
    have second : balanceReplyText ≠ balanceBody "2" := by decide
    simp only [Serde.fromStr, balanceSerde, fromUTF8?_toUTF8, Option.bind_some, if_neg first,
      if_neg second, if_true]

def firstBalance : Arrival where
  request := ⟨none, none, (balanceBody "1").toUTF8⟩
  env := envAt 0 (.unreachable "") (.responded 200 (some balanceReplyText.toUTF8))

def secondBalance : Arrival where
  request := ⟨none, none, (balanceBody "2").toUTF8⟩
  env := envAt 1 (.unreachable "") .sendError

theorem rpcHandler_hit {env : Env} {s : SharedState} {req : Request} {battery : BatteryGuard}
    {prevention : AttackPrevention} {tier : CacheTier} {entry : CacheEntry}
    {metrics : MethodMetrics}
    (screened : screenClient env s req = .ok (battery, prevention, none))
    (parsed : parseBody lib req.body = .ok (bodyStr, rpcReq)) (untracked : s.walletTracker = none)
    (tiered : CacheTtl.getCacheTier (requestMethod rpcReq) = some tier)
    (stored : (s.latencyEngine.caches tier).lookup
      (buildCacheKey lib (requestMethod rpcReq) (requestParams rpcReq)) = some entry)
    (fresh : env.cacheInstant - entry.cachedAt < entry.ttl) (hits : entry.hits + 1 < 2 ^ 64)
    (known : s.latencyEngine.latencyMetrics.lookup (requestMethod rpcReq) = some metrics)
    (room : metrics.cacheHits + 1 < 2 ^ 64 ∧ metrics.totalRequests + 1 < 2 ^ 64 ∧
      metrics.totalLatencyUs + env.latencyUs < 2 ^ 64) :
    ∃ h, rpcHandler lib env s req = .ok h ∧ h.origin = .cacheHit ∧
      h.ownReply = some entry.value := by
  obtain ⟨engine, lookup, counted⟩ :=
    LatencyEngine.getCached_hit tiered stored fresh hits known room.1
  obtain ⟨engine', recorded⟩ := LatencyEngine.recordLatency_known counted room.2.1 room.2.2
  refine ⟨_, (rpcHandler_cached screened parsed lookup).trans
    (serveCached_untracked untracked recorded), rfl, rfl⟩

structure BalanceStored (lib : Serde) (s : SharedState) : Prop where
  battery : s.batteryGuard = .new false
  unbanned : s.attackPrevention.bannedIps.lookup "unknown" = none
  counted : s.attackPrevention.ipRequests.lookup "unknown" = some ⟨1, 0, 0⟩
  untracked : s.walletTracker = none
  stored : (s.latencyEngine.caches .l2).lookup (buildCacheKey lib (requestMethod (balanceCall 2))
    (requestParams (balanceCall 2))) = some ⟨balanceReply, 0, 2_000_000_000, 0⟩
  known : s.latencyEngine.latencyMetrics.lookup "getBalance" = some ⟨1, 0, 1, 1, 1⟩

theorem firstBalance_parsed (read : lib.fromStr (balanceBody "1") = some (balanceCall 1)) :
    parseBody lib firstBalance.request.body = .ok (balanceBody "1", balanceCall 1) :=
  parseBody_clean (by decide +kernel) read

theorem secondBalance_parsed (read : lib.fromStr (balanceBody "2") = some (balanceCall 2)) :
    parseBody lib secondBalance.request.body = .ok (balanceBody "2", balanceCall 2) :=
  parseBody_clean (by decide +kernel) read

/-- The first request goes to the upstream node, whatever that node replies. -/
theorem firstBalance_posts (walletTracker : Option WalletRewardTracker)
    (upstreamReply : UpstreamReply)
    (read : lib.fromStr (balanceBody "1") = some (balanceCall 1)) :
    ∃ executor : ParallelExecutor, rpcHandler lib (envAt 0 (.unreachable "") upstreamReply)
        { devnetState .general with walletTracker } firstBalance.request =
      postUpstream lib (envAt 0 (.unreachable "") upstreamReply)
        { devnetState .general with
          walletTracker
          attackPrevention := { (devnetState .general).attackPrevention with
            ipRequests :=
              (devnetState .general).attackPrevention.ipRequests.insert "unknown" ⟨1, 0, 0⟩
            totalRequests := 1 }
          parallelExecutor := executor }
        "https://api.devnet.solana.com" "getBalance" (requestParams (balanceCall 1))
        (forwardPosts (envAt 0 (.unreachable "") upstreamReply) none
          "https://api.devnet.solana.com" (balanceBody "1")) := by
  let env := envAt 0 (.unreachable "") upstreamReply
  let s := { devnetState .general with walletTracker }
  have touched : AttackPrevention.touch (s.attackPrevention.ipRequests.lookup
      (extractIp firstBalance.request)) env.rateSecs = .ok ⟨1, 0, 0⟩ := rfl
  have screened : screenClient env s firstBalance.request = .ok (_, _, none) :=
    screenClient_allowed rfl rfl touched (by decide)
  have missed : s.latencyEngine.getCached lib (requestMethod (balanceCall 1))
      (requestParams (balanceCall 1)) env.cacheInstant = .ok (.new, none) := rfl
  have verified : verifyWithBrahman lib (requestMethod (balanceCall 1))
      (requestParams (balanceCall 1)) env.brahmanReply = .ok (none, .ok true) := rfl
  have permits : 0 < s.parallelExecutor.globalPermits := Nat.succ_pos 99
  obtain ⟨executor, _, handled⟩ := rpcHandler_posts screened (firstBalance_parsed read) missed
    permits rfl (by decide) rfl rfl verified
  exact ⟨executor, handled⟩

theorem firstBalance_recorded :
    LatencyEngine.new.recordLatency "getBalance" 1 =
      .ok ⟨fun _ => ∅, AList.insert "getBalance" ⟨1, 0, 1, 1, 1⟩ ∅⟩ :=
  rfl

theorem firstBalance_handled (reads : ReadsBalance lib) :
    ∃ h, rpcHandler lib firstBalance.env (devnetState .general) firstBalance.request = .ok h ∧
      BalanceStored lib h.state := by
  obtain ⟨executor, handled⟩ := firstBalance_posts none
    (.responded 200 (some balanceReplyText.toUTF8)) reads.first
  rw [postUpstream_untracked rfl rfl firstBalance_recorded rfl reads.reply] at handled
  exact ⟨_, handled, rfl, rfl, rfl, rfl, AList.lookup_insert _, rfl⟩

theorem secondBalance_handled {s : SharedState} (reads : ReadsBalance lib)
    (balance : BalanceStored lib s) :
    ∃ h, rpcHandler lib secondBalance.env s secondBalance.request = .ok h ∧
      h.origin = .cacheHit ∧ h.ownReply = some balanceReply := by
  have unbanned : s.attackPrevention.bannedIps.lookup (extractIp secondBalance.request) = none :=
    balance.unbanned
  have accepts : s.batteryGuard.shouldAcceptRequest secondBalance.env.batterySecs =
      (s.batteryGuard, true) := by
    rw [balance.battery]
    rfl
  have touched : AttackPrevention.touch (s.attackPrevention.ipRequests.lookup
      (extractIp secondBalance.request)) secondBalance.env.rateSecs = .ok ⟨2, 0, 0⟩ := by
    rw [show extractIp secondBalance.request = "unknown" from rfl, balance.counted]
    rfl
  exact rpcHandler_hit (screenClient_allowed accepts unbanned touched (by decide))
    (secondBalance_parsed reads.second) balance.untracked rfl balance.stored (by decide)
    (by decide) balance.known (by decide)

theorem id_echo_fails_on_repeated_balance :
    (∃ lib, ReadsBalance lib) ∧ ∀ lib, ReadsBalance lib →
      ¬ ∀ (s : SharedState) (arrivals : List Arrival),
        EachStep (Handles lib) (EchoesId lib) (.start s) arrivals := by
  refine ⟨⟨balanceSerde, balanceSerde_reads⟩, fun lib reads right => ?_⟩
  obtain ⟨h₁, handled₁, balance⟩ := firstBalance_handled reads
  obtain ⟨h₂, handled₂, _, own⟩ := secondBalance_handled reads balance
  have echoes₁ : UpstreamEchoes lib firstBalance := by
    rintro bodyStr rpcReq json parsed ⟨status, bytes, reply, read⟩
    have same := (firstBalance_parsed reads.first).symm.trans parsed
    obtain ⟨_, rfl⟩ := Prod.mk.inj (Except.ok.inj same)
    obtain ⟨_, same⟩ := UpstreamReply.responded.inj reply
    obtain rfl := Option.some.inj same
    obtain rfl := Option.some.inj (reads.reply.symm.trans read)
    rfl
  have echoes₂ : UpstreamEchoes lib secondBalance := by
    rintro _ _ json _ ⟨status, bytes, reply, _⟩
    cases reply
  have second := right (devnetState .general) [firstBalance, secondBalance] [firstBalance]
    secondBalance [] _ _ rfl (.cons ⟨echoes₁, h₁, handled₁, rfl⟩ (.nil _))
    ⟨echoes₂, h₂, handled₂, rfl⟩
  have same : Value.number (.int 1) = .number (.int 2) :=
    second h₂ _ _ _ handled₂ (secondBalance_parsed reads.second) own
  cases same

theorem proof_verifies_on_first_balance :
    EachStep (HandledTo balanceSerde) (ServesProof balanceSerde) (devnetState .general)
      [firstBalance] := by
  obtain ⟨h, handled, _⟩ := firstBalance_handled balanceSerde_reads
  refine proofs_verify_when_afresh balanceSerde (devnetState .general) h.state [firstBalance]
    (.cons ⟨⟨h, handled, rfl⟩, ?_⟩ (.nil _))
  intro bodyStr rpcReq admitted
  obtain ⟨_, rfl⟩ := Prod.mk.inj (Except.ok.inj
    ((firstBalance_parsed balanceSerde_reads.first).symm.trans admitted.parsed))
  refine ⟨rfl, .inr ⟨by decide, ?_⟩⟩
  rintro json ⟨status, bytes, reply, read⟩
  obtain ⟨_, same⟩ := UpstreamReply.responded.inj reply
  obtain rfl := Option.some.inj same
  obtain rfl := Option.some.inj (balanceSerde_reads.reply.symm.trans read)
  rfl

theorem proof_missing_on_repeated_balance :
    (∃ lib, ReadsBalance lib) ∧ ∀ lib, ReadsBalance lib →
      ¬ ∀ (s : SharedState) (arrivals : List Arrival),
        EachStep (HandledTo lib) (ServesProof lib) s arrivals := by
  refine ⟨⟨balanceSerde, balanceSerde_reads⟩, fun lib reads proved => ?_⟩
  obtain ⟨h₁, handled₁, balance⟩ := firstBalance_handled reads
  obtain ⟨h₂, handled₂, _, own⟩ := secondBalance_handled reads balance
  have second := proved (devnetState .general) [firstBalance, secondBalance] [firstBalance]
    secondBalance [] _ _ rfl (.cons ⟨h₁, handled₁, rfl⟩ (.nil _)) ⟨h₂, handled₂, rfl⟩
  obtain ⟨proof, present, _⟩ := second h₂ _ handled₂ own _ rfl
  cases present

end Solnet.Daemon
