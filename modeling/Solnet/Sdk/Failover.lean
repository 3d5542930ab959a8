import Solnet.Sdk.Connection
import Solnet.Sdk.PeerDiscovery

/-! The requests of the SDK. The method `_rpcRequest` of the class tries one endpoint. What it
calls when that fails is not itself: the connection has a property of this name from the base
constructor, and the prototype of the base class has none. The telemetry and the figures kept
for it are left out. -/
namespace Solnet.Sdk
open Solnet.Daemon

/-- An endpoint is missing when there are no peers to take one from. -/
structure SolnetConnection extends Connection where
  solnetEndpoint : Option String
  privacy : Bool
  initialized : Bool
  peerDiscovery : PeerDiscovery

/-- How a call of the method ends. A call of `super._rpcRequest` is a `TypeError`. -/
inductive RpcResult where
  | threw (error : String)
  | answered (value : Value)
  | base (result : BaseResult)
  | typeError

/-- A call that is over, with its posts and the endpoints whose attempts failed. -/
structure Called where
  result : RpcResult
  connection : SolnetConnection
  posts : List SdkPost
  failed : List (Option String)

/-- A reply without a result is taken for the result. -/
def withResult (data : Value) : Value :=
  if (data.get "result").isSome then data else .object [("result", data)]

def requestBody (privacy : Bool) (id : Nat) (method params : String) : Except String RequestBody :=
  if privacy then do
    let encodedLayer ← btoa (requestText id method params)
    return .onion ⟨encodedLayer, exitId⟩
  else .ok (.plain (requestText id method params))

/-- What is read from a response, unless reading it throws. -/
def FetchReply.value : FetchReply → Option Value
  | rejected | responded _ .empty | responded _ .unreadable | responded _ (.json .null) => none
  | responded status (.json data) => if succeeds status then some (withResult data) else none

namespace SolnetConnection

variable (web : Web) (method params : String)

def ensureInitialized (c : SolnetConnection) (round : (peers : List String) → Round peers) :
    SolnetConnection :=
  if c.initialized then c
  else
    let (ranked, peerDiscovery) := c.peerDiscovery.rankPeers (round c.peerDiscovery.peers)
    { c with
      solnetEndpoint := ranked.head?.or c.solnetEndpoint
      peerDiscovery
      initialized := true }

/-- The post of the `try` of a call, unless something throws before it. -/
def attemptPost (hostOf : String → Option String) (now : Nat) (c : SolnetConnection) :
    Option SdkPost := do
  let endpoint ← c.solnetEndpoint
  let body ← (requestBody c.privacy now method params).toOption
  let host ← hostOf endpoint
  return ⟨if c.privacy then endpoint ++ "/onion" else endpoint, some host, body⟩

/-- The posts of the `try` and what it returns, unless something in it throws. -/
def attempt (c : SolnetConnection) : List SdkPost × Option Value :=
  match c.attemptPost method params web.hostOf web.now with
  | none => ([], none)
  | some post => ([post], (web.fetch 0 post).value)

/-- `this._rpcRequest`: the property that the base constructor sets comes before the method. -/
def thisRpcRequest (n : Nat) (c : SolnetConnection) : List SdkPost × BaseResult :=
  c.toConnection.rpcRequest web method params n

/-- The connection after its switch to the best peer. -/
def switched (c : SolnetConnection) : SolnetConnection :=
  { c with solnetEndpoint := c.peerDiscovery.getBestPeer }

/-- The `catch` of a call that has made the posts. -/
def caught (posts : List SdkPost) (c : SolnetConnection) : Called :=
  let nextBest := c.peerDiscovery.getBestPeer
  if nextBest ≠ c.solnetEndpoint then
    let (sent, result) := c.switched.thisRpcRequest web method params posts.length
    ⟨.base result, c.switched, posts ++ sent, [c.solnetEndpoint]⟩
  else ⟨.typeError, c, posts, [c.solnetEndpoint]⟩

/-- The `try` of a call with its `catch`. -/
def tried (c : SolnetConnection) : Called :=
  match attempt web method params c with
  | (posts, some value) => ⟨.answered value, c, posts, []⟩
  | (posts, none) => c.caught web method params posts

/-- The method `_rpcRequest` of the class. -/
def rpcRequest (round : (peers : List String) → Round peers) (c : SolnetConnection) : Called :=
  match validateRpcMethod method with
  | .error e => ⟨.threw e, c, [], []⟩
  | .ok _ => (c.ensureInitialized round).tried web method params

end SolnetConnection

namespace SolnetConnection

/-- The method is refused, the endpoint in use answers, or no other peer is alive. -/
def Covers (web : Web) (method params : String) (c : SolnetConnection) : Prop :=
  validateRpcMethod method ≠ .ok () ∨
    (attempt web method params c).2.isSome ∨
    ∀ peer health, c.peerDiscovery.Reports peer health → health.alive = true →
      some peer = c.solnetEndpoint

variable {web : Web} {method params : String} {round : (peers : List String) → Round peers}
  {c s : SolnetConnection}

theorem ensureInitialized_eq (ready : c.initialized = true) : c.ensureInitialized round = c :=
  if_pos ready

theorem rpcRequest_refused {e : String} (refused : validateRpcMethod method = .error e) :
    rpcRequest web method params round c = ⟨.threw e, c, [], []⟩ := by
  rw [rpcRequest, refused]

theorem rpcRequest_valid (valid : validateRpcMethod method = .ok ()) :
    rpcRequest web method params round c =
      (c.ensureInitialized round).tried web method params := by
  rw [rpcRequest, valid]

def healthy (latency : String → Int) (peers : List String) : Round peers where
  probes := peers.map fun peer => (peer, .answered (latency peer) true (.object []))
  completed := peers.map fun peer => (peer, .answered (latency peer) true (.object []))
  ofPeers := by
    rw [List.map_map]
    exact List.map_id peers
  perm := .refl _

def allHealthy : (peers : List String) → Round peers := healthy fun _ => 10

def threePeers : PeerDiscovery := .new ["https://a", "https://b", "https://c"]

/-- A connection to the first of the peers, made with that endpoint. -/
def threeAlive (latency : String → Int) : SolnetConnection :=
  ⟨⟨"https://a"⟩, some "https://a", false, true,
    (threePeers.rankPeers (healthy latency threePeers.peers)).2⟩

def alike : SolnetConnection := threeAlive fun _ => 10

def down : Web := ⟨some, 0, "", fun _ _ => .rejected⟩

theorem tried_down (c : SolnetConnection) :
    ∃ posts, tried down "getSlot" "[]" c = c.caught down "getSlot" "[]" posts := by
  unfold tried attempt
  cases c.attemptPost "getSlot" "[]" down.hostOf down.now with
  | none => exact ⟨[], rfl⟩
  | some post => exact ⟨[post], rfl⟩

end SolnetConnection

end Solnet.Sdk
