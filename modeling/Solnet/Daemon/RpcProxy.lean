import Mathlib.Data.List.DropRight
import Solnet.Daemon.AttackPrevention
import Solnet.Daemon.LatencyEngine
import Solnet.Daemon.Routing
import Solnet.Daemon.Upstream

/-! The JSON-RPC entry point. A request is handled against the shared state and an
environment: the clock readings the handler makes and what other hosts answer it.
What it sends to other hosts is listed. The security headers, the logs and the parts of
the state that no other part of the handler reads are left out. -/
namespace Solnet.Daemon
open Fallible

structure Config where
  solanaRpcUrl : String
  httpPort : Nat
  shardType : ShardType
  region : Region
  maxConcurrentRequests : Nat
  envMode : String
  whitelistIp : String
  deriving DecidableEq, Repr

structure BatteryGuard where
  batteryMode : Bool
  batteryLevel : Nat
  isCharging : Bool
  throttled : Bool
  deriving DecidableEq, Repr

def BatteryGuard.new (batteryMode : Bool) : BatteryGuard := ⟨batteryMode, 100, true, false⟩

def BatteryGuard.shouldAcceptRequest (s : BatteryGuard) (now : Nat) : BatteryGuard × Bool :=
  if s.batteryMode = false then (s, true)
  else if s.isCharging then ({ s with throttled := false }, true)
  else if s.batteryLevel < 20 then ({ s with throttled := true }, false)
  else if s.batteryLevel < 40 then ({ s with throttled := true }, now % 2 = 0)
  else ({ s with throttled := false }, true)

/-- The permits of the semaphores that nobody holds. -/
structure ParallelExecutor where
  accountLocks : Table String Nat
  globalPermits : Nat

def ParallelExecutor.new (maxConcurrent : Nat) : ParallelExecutor := ⟨∅, maxConcurrent⟩

/-- The global permit is given back when the handler returns, so only the new account
lock stays; no one acquires that lock. -/
def ParallelExecutor.acquire (s : ParallelExecutor) (accountKey : Option String) :
    Checked ParallelExecutor :=
  if s.globalPermits = 0 then .error .waits
  else
    match accountKey with
    | some key =>
      if key ∈ s.accountLocks then .ok s
      else .ok { s with accountLocks := s.accountLocks.insert key 1 }
    | none => .ok s

structure SharedState where
  solanaRpcUrl : String
  circuitBreaker : CircuitBreaker
  shardRouter : ShardRouter
  parallelExecutor : ParallelExecutor
  geoRouter : GeoRouter
  loadBalancer : LoadBalancer
  attackPrevention : AttackPrevention
  walletTracker : Option WalletRewardTracker
  latencyEngine : LatencyEngine
  config : Config
  batteryGuard : BatteryGuard

structure Request where
  host : Option String
  forwardedFor : Option String
  body : ByteArray

inductive Body where
  | empty
  | text (content : String)
  | json (content : Value)
  | bytes (content : ByteArray)

structure Response where
  status : Nat
  body : Body
  retryAfter : Option Nat

def Response.of (status : Nat) (body : Body) : Response := ⟨status, body, none⟩

inductive BrahmanReply where
  | unreachable (error : String)
  | unparsable (error : String)
  | replied (result : Value)

inductive UpstreamReply where
  | sendError
  | responded (status : Nat) (body : Option ByteArray)

/-- What one handling of a request reads from outside: clocks in seconds, instants in
nanoseconds, the cached slot, a random number, and the answers of other hosts. A mesh
node that does not answer gives no reply. -/
structure Env where
  batterySecs : Nat
  banCheckSecs : Nat
  rateSecs : Nat
  banSecs : Nat
  cacheInstant : Nat
  storeInstant : Nat
  latencyUs : Nat
  currentSlot : Nat
  meshReply : Option (Nat × ByteArray)
  breakerSecs : Nat
  failureSecs : Nat
  random : UInt32
  brahmanReply : BrahmanReply
  upstreamReply : UpstreamReply

structure Submission where
  method : String
  params : Value

inductive Effect where
  | meshPost (endpoint : String) (body : ByteArray)
  | brahmanPost (submission : Submission) (reply : BrahmanReply)
  | upstreamPost (endpoint : String) (body : String)

/-- Where a response comes from: this node refuses or fails, or it answers from one of
three places, or it passes on what a mesh node answered. -/
inductive Origin where
  | refused
  | cacheHit
  | mesh
  | slotIntercept
  | upstream
  deriving DecidableEq, Repr

structure Handled where
  state : SharedState
  response : Response
  origin : Origin
  effects : List Effect

/-! Screening. -/

def isBlank (c : Char) : Bool := c = ' ' || c = '\t'

/-- Header values are visible ASCII, blanks and tabs. -/
def extractIp (req : Request) : String :=
  match req.forwardedFor with
  | some value =>
    String.ofList (((value.toList.takeWhile (· ≠ ',')).dropWhile isBlank).rdropWhile isBlank)
  | none => "unknown"

def startsWith (text start : String) : Bool := decide (start.toList <+: text.toList)
def endsWith (text ending : String) : Bool := decide (ending.toList <:+ text.toList)

def validateHost (host : String) (config : Config) : Bool :=
  if host = "localhost" || host = "127.0.0.1" || host = "[::1]" ||
      host = "healthcheck.railway.app" || startsWith host "localhost:" ||
      startsWith host "127.0.0.1:" || startsWith host "[::1]:" then true
  else if config.whitelistIp ≠ "" &&
      (host = config.whitelistIp || startsWith host (config.whitelistIp ++ ":")) then true
  else if config.envMode = "development" &&
      (startsWith host "192.168." || startsWith host "10.") then true
  else if ["solnet-production.up.railway.app", "up.railway.app", "railway.internal"].any
      fun h => host = h || endsWith host ("." ++ h) || startsWith host (h ++ ":") then true
  else true

/-- The checks before the body is read: a refusal, or none. -/
def screenClient (env : Env) (s : SharedState) (req : Request) :
    Checked (BatteryGuard × AttackPrevention × Option Response) :=
  let clientIp := extractIp req
  match s.batteryGuard.shouldAcceptRequest env.batterySecs with
  | (battery, false) =>
    .ok (battery, s.attackPrevention, some <| .of 503 <| .json <| .object
      [("error", .string "node throttled — low battery"), ("retry_after", .number (.int 30))])
  | (battery, true) =>
    if validateHost (req.host.getD "unknown") s.config = false then
      .ok (battery, s.attackPrevention, some <| .of 400 <| .text "Invalid Host header")
    else
      match s.attackPrevention.isBanned clientIp env.banCheckSecs with
      | (prevention, true) =>
        .ok (battery, prevention, some <| .of 403 <| .text "IP Banned for abuse")
      | (prevention, false) => do
        let (prevention, result) ← prevention.checkRateLimit clientIp env.rateSecs env.banSecs
        match result with
        | .banned => return (battery, prevention, some <| .of 403 <| .text "IP Banned for abuse")
        | .limited retryAfter =>
          return (battery, prevention,
            some ⟨429, .text "Rate limit exceeded", some retryAfter⟩)
        | .allowed => return (battery, prevention, none)

def parseBody (lib : Serde) (body : ByteArray) : Except Response (String × Value) :=
  match String.fromUTF8? body with
  | none => .error (.of 400 .empty)
  | some bodyStr =>
    match AttackPrevention.scanPayload bodyStr with
    | .blocked reason => .error (.of 400 (.text ("Malicious payload: " ++ reason)))
    | .clean =>
      match lib.fromStr bodyStr with
      | none => .error (.of 400 .empty)
      | some rpcReq => .ok (bodyStr, rpcReq)

def requestMethod (rpcReq : Value) : String :=
  ((rpcReq.get "method").bind Value.asStr).getD "unknown"

def requestParams (rpcReq : Value) : Value := (rpcReq.get "params").getD .null

/-! Answering. -/

def recordRequest (s : SharedState) : Checked SharedState :=
  match s.walletTracker with
  | none => .ok s
  | some tracker => do
    let tracker ← tracker.recordRequest
    return { s with walletTracker := some tracker }

def serveCached (env : Env) (s : SharedState) (method : String) (cached : Value) :
    Checked Handled := do
  let engine ← s.latencyEngine.recordLatency method env.latencyUs
  let s ← recordRequest { s with latencyEngine := engine }
  return ⟨s, .of 200 (.json cached), .cacheHit, []⟩

/-- The mesh node a request is forwarded to, when this shard does not handle it. -/
def meshTarget (s : SharedState) (method : String) : Option GeoNode :=
  if s.shardRouter.shouldHandle method then none
  else s.geoRouter.findBestNode s.config.region

/-- The slot reply before the proof: an absent id becomes null. -/
def slotResponse (slot : Nat) (rpcReq : Value) : Value :=
  .object [("id", (rpcReq.get "id").getD .null), ("jsonrpc", .string "2.0"),
    ("result", .number (.int slot))]

def withProof (lib : Serde) (response : Value) : Value :=
  response.insert "solnet_proof" (MerkleVerifier.generateProof lib response).2.toValue

def interceptGetSlot (lib : Serde) (env : Env) (s : SharedState) (method : String)
    (params rpcReq : Value) (effects : List Effect) : Checked Handled := do
  let response := (withProof lib (slotResponse env.currentSlot rpcReq)).insert "cached"
    (.bool true)
  let engine ← s.latencyEngine.recordLatency method env.latencyUs
  let engine := engine.setCache lib method params response env.storeInstant
  let s ← recordRequest { s with latencyEngine := engine }
  return ⟨s, .of 200 (.json response), .slotIntercept, effects⟩

/-! Verification. -/

def skipMethods : List String :=
  ["getBalance", "getSlot", "getBlock", "getTransaction", "getAccountInfo",
    "getRecentBlockhash", "getLatestBlockhash"]

/-- The payload posted for a submission. -/
def Submission.karakaPayload (lib : Serde) (submission : Submission) : Value :=
  .object [("karaka_protocol", .object [
      ("karta", .object [("constraints", .array []), ("lemma", .string "sender"),
        ("surface", .string "sender")]),
      ("kriya", .object [("resolved_root", .string "transfer"),
        ("surface", .string submission.method)])]),
    ("raw_input", .string (submission.method ++ " " ++ lib.toString submission.params))]

def BrahmanReply.verdict : BrahmanReply → Option String
  | .replied result => some ((result.index "verdict").asStr.getD "AMBIGUOUS")
  | _ => none

def isCharBoundary : Nat → List Char → Bool
  | 0, _ => true
  | _ + 1, [] => false
  | n + 1, c :: rest => c.utf8Size ≤ n + 1 && isCharBoundary (n + 1 - c.utf8Size) rest

/-- The submission that was posted, if any, and the answer to the handler. The first
eight bytes of a valid verdict's hash are logged, which panics inside a character. -/
def verifyWithBrahman (lib : Serde) (method : String) (params : Value) (reply : BrahmanReply) :
    Checked (Option Submission × Except String Bool) :=
  if method ∈ skipMethods then .ok (none, .ok true)
  else
    let submission : Submission := ⟨method, params⟩
    match reply with
    | .unreachable error => .ok (some submission, .error ("Brahman unreachable: " ++ error))
    | .unparsable error => .ok (some submission, .error ("Brahman parse error: " ++ error))
    | .replied result =>
      let verdict := (result.index "verdict").asStr.getD "AMBIGUOUS"
      let logicHash := (result.index "logic_hash").asStr.getD ""
      if verdict = "VALID" then
        if 8 ≤ logicHash.utf8ByteSize ∧ isCharBoundary 8 logicHash.toList = false then
          .error .slicePanic
        else .ok (some submission, .ok true)
      else if verdict = "INVALID" then
        .ok (some submission, .error
          ("Transaction blocked by Brahman: " ++ lib.toString (result.index "violations")))
      else .ok (some submission, .ok true)

/-! Forwarding. -/

def postUpstream (lib : Serde) (env : Env) (s : SharedState) (upstreamRpc method : String)
    (params : Value) (effects : List Effect) : Checked Handled :=
  match env.upstreamReply with
  | .sendError => do
    let balancer ← s.loadBalancer.recordError upstreamRpc
    let s := { s with
      loadBalancer := balancer
      circuitBreaker := s.circuitBreaker.recordFailure env.failureSecs }
    return ⟨s, .of 502 .empty, .refused, effects⟩
  | .responded _ body => do
    let engine ← s.latencyEngine.recordLatency method env.latencyUs
    let balancer ← s.loadBalancer.recordSuccess upstreamRpc (env.latencyUs / 1000)
    let s := { s with latencyEngine := engine, loadBalancer := balancer }
    match body with
    | none => return ⟨s, .of 502 .empty, .refused, effects⟩
    | some responseBytes =>
      let s ← recordRequest { s with circuitBreaker := s.circuitBreaker.recordSuccess }
      match lib.fromSlice responseBytes with
      | none => return ⟨s, .of 502 .empty, .refused, effects⟩
      | some responseJson =>
        -- the reply is cached before its proof is inserted
        let engine := s.latencyEngine.setCache lib method params responseJson env.storeInstant
        return ⟨{ s with latencyEngine := engine }, .of 200 (.json (withProof lib responseJson)),
          .upstream, effects⟩

def forwardUpstream (lib : Serde) (env : Env) (s : SharedState) (bodyStr method : String)
    (params : Value) (effects : List Effect) : Checked Handled :=
  if s.circuitBreaker.isOpen env.breakerSecs then
    .ok ⟨s, .of 503 .empty, .refused, effects⟩
  else do
    let (balancer, selected) ← s.loadBalancer.selectNode env.random
    let s := { s with loadBalancer := balancer }
    let upstreamRpc := selected.getD s.solanaRpcUrl
    let (submission, verified) ← verifyWithBrahman lib method params env.brahmanReply
    let effects := effects ++
      submission.toList.map fun submission => .brahmanPost submission env.brahmanReply
    match verified with
    | .error violation =>
      return ⟨s, .of 403 (.json (.object [("error", .string violation)])), .refused, effects⟩
    | .ok _ =>
      postUpstream lib env s upstreamRpc method params
        (effects ++ [.upstreamPost upstreamRpc bodyStr])

def processRequest (lib : Serde) (env : Env) (s : SharedState) (bodyStr method : String)
    (params rpcReq : Value) (effects : List Effect) : Checked Handled :=
  let s := { s with attackPrevention := s.attackPrevention.incrementTotal }
  if method = "getSlot" then interceptGetSlot lib env s method params rpcReq effects
  else forwardUpstream lib env s bodyStr method params effects

def handleUncached (lib : Serde) (env : Env) (s : SharedState) (req : Request)
    (bodyStr : String) (rpcReq : Value) : Checked Handled := do
  let method := requestMethod rpcReq
  let params := requestParams rpcReq
  let accountKey := (params.getItem 0).bind Value.asStr
  let executor ← s.parallelExecutor.acquire accountKey
  let s := { s with parallelExecutor := executor }
  match meshTarget s method with
  | none => processRequest lib env s bodyStr method params rpcReq []
  | some meshNode =>
    let effects := [Effect.meshPost meshNode.endpoint req.body]
    match env.meshReply with
    | some (status, bytes) => return ⟨s, .of status (.bytes bytes), .mesh, effects⟩
    | none => processRequest lib env s bodyStr method params rpcReq effects

def rpcHandler (lib : Serde) (env : Env) (s : SharedState) (req : Request) :
    Checked Handled := do
  let (battery, prevention, refusal) ← screenClient env s req
  let s := { s with batteryGuard := battery, attackPrevention := prevention }
  match refusal with
  | some response => return ⟨s, response, .refused, []⟩
  | none =>
    match parseBody lib req.body with
    | .error response => return ⟨s, response, .refused, []⟩
    | .ok (bodyStr, rpcReq) =>
      let method := requestMethod rpcReq
      let params := requestParams rpcReq
      let (engine, cached) ← s.latencyEngine.getCached lib method params env.cacheInstant
      let s := { s with latencyEngine := engine }
      match cached with
      | some value => serveCached env s method value
      | none => handleUncached lib env s req bodyStr rpcReq

/-! What `main` starts with. -/

def localNode (config : Config) : GeoNode :=
  ⟨"local", "http://0.0.0.0:" ++ toString config.httpPort, config.region, 0, 0, true⟩

def SharedState.new (config : Config) (walletTracker : Option WalletRewardTracker)
    (batteryMode : Bool) : SharedState where
  solanaRpcUrl := config.solanaRpcUrl
  circuitBreaker := .new
  shardRouter := ⟨config.shardType⟩
  parallelExecutor := .new config.maxConcurrentRequests
  geoRouter := (GeoRouter.new config.region).registerNode (localNode config)
  loadBalancer := (LoadBalancer.new .adaptive).addNode config.solanaRpcUrl 100
  attackPrevention := .new
  walletTracker := walletTracker
  latencyEngine := .new
  config := config
  batteryGuard := .new batteryMode

end Solnet.Daemon
