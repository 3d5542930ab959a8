import Mathlib.Data.List.MinMax

/-! Which daemon serves a method: the shard table and the table of mesh nodes. The
nodes of a table stand in the order in which an iteration visits them. -/
namespace Solnet.Daemon

inductive ShardType where
  | deFi
  | nft
  | general
  deriving DecidableEq, Repr

structure ShardRouter where
  shardType : ShardType
  deriving DecidableEq, Repr

namespace ShardRouter

def deFiMethods : List String :=
  ["sendTransaction", "simulateTransaction", "getLatestBlockhash", "getFeeForMessage",
    "getRecentPrioritizationFees", "getTokenAccountBalance", "getTokenAccountsByOwner"]

def nftMethods : List String :=
  ["getAccountInfo", "getMultipleAccounts", "getProgramAccounts", "getTokenLargestAccounts",
    "getTokenSupply"]

/-- `method_map`: the second loop inserts over the first. -/
def methodMap (method : String) : Option ShardType :=
  if method ∈ nftMethods then some .nft
  else if method ∈ deFiMethods then some .deFi
  else none

def shouldHandle (s : ShardRouter) (method : String) : Bool :=
  match methodMap method with
  | some requiredShard => requiredShard = s.shardType
  | none => s.shardType = .general

end ShardRouter

inductive Region where
  | asiaSouth
  | asiaEast
  | europeWest
  | usEast
  | usWest
  | southAmerica
  | africa
  | middleEast
  deriving DecidableEq, Repr

def Region.nearestRegions : Region → List Region
  | .asiaSouth => [.asiaEast, .middleEast, .europeWest]
  | .asiaEast => [.asiaSouth, .usWest, .europeWest]
  | .europeWest => [.usEast, .middleEast, .asiaSouth]
  | .usEast => [.europeWest, .usWest, .southAmerica]
  | .usWest => [.asiaEast, .usEast, .asiaSouth]
  | .southAmerica => [.usEast, .europeWest, .africa]
  | .africa => [.europeWest, .middleEast, .southAmerica]
  | .middleEast => [.europeWest, .asiaSouth, .africa]

structure GeoNode where
  peerId : String
  endpoint : String
  region : Region
  latencyMs : Nat
  loadPercent : Nat
  alive : Bool
  deriving DecidableEq, Repr

structure GeoRouter where
  nodes : List GeoNode
  localRegion : Region
  deriving DecidableEq, Repr

namespace GeoRouter

def new (localRegion : Region) : GeoRouter := ⟨[], localRegion⟩

def registerNode (s : GeoRouter) (node : GeoNode) : GeoRouter :=
  { s with nodes := s.nodes.filter (fun n => n.peerId ≠ node.peerId) ++ [node] }

def findBestNode (s : GeoRouter) (clientRegion : Region) : Option GeoNode :=
  let same := s.nodes.filter fun n =>
    n.region = clientRegion && n.alive && n.loadPercent < 80
  let adjacent (region : Region) := s.nodes.filter fun n =>
    n.region = region && n.alive && n.loadPercent < 90
  (same.argmin GeoNode.latencyMs).or <|
    (clientRegion.nearestRegions.findSome? fun region =>
      (adjacent region).argmin GeoNode.latencyMs).or <|
    (s.nodes.filter GeoNode.alive).argmin GeoNode.latencyMs

end GeoRouter

end Solnet.Daemon
