import Mathlib.Data.List.MinMax
import Solnet.Daemon.Checked

/-! What stands between the handler and the upstream node: the load balancer, the
circuit breaker and the reward tracker. Atomic counters wrap; plain arithmetic is
checked. A least element is the first of the least, as with `min_by_key`. -/
namespace Solnet.Daemon
open Fallible

structure LoadBalancerNode where
  endpoint : String
  weight : Nat
  currentConnections : Nat
  totalRequests : Nat
  errorCount : Nat
  avgLatencyMs : Nat
  alive : Bool
  deriving DecidableEq, Repr

inductive Strategy where
  | roundRobin
  | leastConnections
  | weightedRoundRobin
  | latencyBased
  | adaptive
  deriving DecidableEq, Repr

structure LoadBalancer where
  nodes : List LoadBalancerNode
  strategy : Strategy
  roundRobinCounter : Nat
  deriving DecidableEq, Repr

def weightedPick (pick : Int) : List LoadBalancerNode → Checked (Option String)
  | [] => .ok none
  | node :: rest => do
    let pick ← withinI32 .subOverflow (pick - asI32 node.weight)
    if pick ≤ 0 then return some node.endpoint else weightedPick pick rest

namespace LoadBalancer

def new (strategy : Strategy) : LoadBalancer := ⟨[], strategy, 0⟩

def addNode (s : LoadBalancer) (endpoint : String) (weight : Nat) : LoadBalancer :=
  { s with nodes := s.nodes ++ [⟨endpoint, weight, 0, 0, 0, 0, true⟩] }

/-- `random` is the random number that only the weighted strategy draws. -/
def selectNode (s : LoadBalancer) (random : UInt32) : Checked (LoadBalancer × Option String) :=
  match s.nodes.filter LoadBalancerNode.alive with
  | [] => .ok (s, none)
  | first :: rest =>
    let alive := first :: rest
    match s.strategy with
    | .roundRobin =>
      .ok ({ s with roundRobinCounter := (s.roundRobinCounter + 1) % 2 ^ 64 },
        (alive[s.roundRobinCounter % alive.length]?).map LoadBalancerNode.endpoint)
    | .leastConnections =>
      .ok (s, (alive.argmin LoadBalancerNode.currentConnections).map LoadBalancerNode.endpoint)
    | .latencyBased =>
      .ok (s, (alive.argmin LoadBalancerNode.avgLatencyMs).map LoadBalancerNode.endpoint)
    | .weightedRoundRobin => do
      let totalWeight ← alive.foldlM (fun sum node => checkedAdd 32 sum node.weight) 0
      if totalWeight = 0 then return (s, some first.endpoint)
      else
        let picked ← weightedPick (asI32 (random.toNat % totalWeight)) alive
        return (s, some (picked.getD first.endpoint))
    | .adaptive => do
      let connections ← alive.foldlM
        (fun sum node => checkedAdd 64 sum node.currentConnections) 0
      let key := if 100 < connections / alive.length then LoadBalancerNode.currentConnections
        else LoadBalancerNode.avgLatencyMs
      return (s, (alive.argmin key).map LoadBalancerNode.endpoint)

def movingAverage (node : LoadBalancerNode) (latencyMs : Nat) : Checked LoadBalancerNode := do
  let total ← checkedAdd 64 (node.avgLatencyMs * 9) latencyMs
  return { node with
    totalRequests := (node.totalRequests + 1) % 2 ^ 64
    avgLatencyMs := total / 10 }

def updateFirst (endpoint : String) (update : LoadBalancerNode → Checked LoadBalancerNode) :
    List LoadBalancerNode → Checked (List LoadBalancerNode)
  | [] => .ok []
  | node :: rest =>
    if node.endpoint = endpoint then do
      let node ← update node
      return node :: rest
    else do
      let rest ← updateFirst endpoint update rest
      return node :: rest

def recordSuccess (s : LoadBalancer) (endpoint : String) (latencyMs : Nat) :
    Checked LoadBalancer := do
  let nodes ← updateFirst endpoint (movingAverage · latencyMs) s.nodes
  return { s with nodes := nodes }

/-- Past ten errors the source logs that the node is disabled, and does no more. -/
def recordError (s : LoadBalancer) (endpoint : String) : Checked LoadBalancer := do
  let nodes ← updateFirst endpoint
    (fun node => .ok { node with errorCount := (node.errorCount + 1) % 2 ^ 64 }) s.nodes
  return { s with nodes := nodes }

/-- What a selection can do. -/
inductive Selects (s : LoadBalancer) (random : UInt32) : LoadBalancer → Option String → Prop where
  | noneAlive (alive : s.nodes.filter LoadBalancerNode.alive = []) : Selects s random s none
  | roundRobin {first : LoadBalancerNode} {rest : List LoadBalancerNode}
      (alive : s.nodes.filter LoadBalancerNode.alive = first :: rest)
      (strategy : s.strategy = .roundRobin) :
      Selects s random { s with roundRobinCounter := (s.roundRobinCounter + 1) % 2 ^ 64 }
        ((first :: rest)[s.roundRobinCounter % (first :: rest).length]?.map
          LoadBalancerNode.endpoint)
  | leastConnections {first : LoadBalancerNode} {rest : List LoadBalancerNode}
      (alive : s.nodes.filter LoadBalancerNode.alive = first :: rest)
      (strategy : s.strategy = .leastConnections) :
      Selects s random s
        (((first :: rest).argmin LoadBalancerNode.currentConnections).map
          LoadBalancerNode.endpoint)
  | latencyBased {first : LoadBalancerNode} {rest : List LoadBalancerNode}
      (alive : s.nodes.filter LoadBalancerNode.alive = first :: rest)
      (strategy : s.strategy = .latencyBased) :
      Selects s random s
        (((first :: rest).argmin LoadBalancerNode.avgLatencyMs).map LoadBalancerNode.endpoint)
  | weightless {first : LoadBalancerNode} {rest : List LoadBalancerNode}
      (alive : s.nodes.filter LoadBalancerNode.alive = first :: rest)
      (strategy : s.strategy = .weightedRoundRobin)
      (summed : (first :: rest).foldlM (fun sum node => checkedAdd 32 sum node.weight) 0 =
        .ok 0) :
      Selects s random s (some first.endpoint)
  | weighted {first : LoadBalancerNode} {rest : List LoadBalancerNode} {totalWeight : Nat}
      {picked : Option String}
      (alive : s.nodes.filter LoadBalancerNode.alive = first :: rest)
      (strategy : s.strategy = .weightedRoundRobin)
      (summed : (first :: rest).foldlM (fun sum node => checkedAdd 32 sum node.weight) 0 =
        .ok totalWeight)
      (positive : totalWeight ≠ 0)
      (walked : weightedPick (asI32 (random.toNat % totalWeight)) (first :: rest) = .ok picked) :
      Selects s random s (some (picked.getD first.endpoint))
  | adaptive {first : LoadBalancerNode} {rest : List LoadBalancerNode} {connections : Nat}
      (alive : s.nodes.filter LoadBalancerNode.alive = first :: rest)
      (strategy : s.strategy = .adaptive)
      (summed : (first :: rest).foldlM
        (fun sum node => checkedAdd 64 sum node.currentConnections) 0 = .ok connections) :
      Selects s random s
        (((first :: rest).argmin (if 100 < connections / (first :: rest).length then
          LoadBalancerNode.currentConnections else LoadBalancerNode.avgLatencyMs)).map
          LoadBalancerNode.endpoint)

theorem selectNode_selects {s s' : LoadBalancer} {random : UInt32} {selected : Option String}
    (ok : s.selectNode random = .ok (s', selected)) : s.Selects random s' selected := by
  unfold selectNode at ok
  split at ok
  · rename_i alive
    obtain ⟨rfl, rfl⟩ := Prod.mk.inj (Except.ok.inj ok)
    exact .noneAlive alive
  · rename_i first rest alive
    dsimp only at ok
    split at ok
    · rename_i strategy
      obtain ⟨rfl, rfl⟩ := Prod.mk.inj (Except.ok.inj ok)
      exact .roundRobin alive strategy
    · rename_i strategy
      obtain ⟨rfl, rfl⟩ := Prod.mk.inj (Except.ok.inj ok)
      exact .leastConnections alive strategy
    · rename_i strategy
      obtain ⟨rfl, rfl⟩ := Prod.mk.inj (Except.ok.inj ok)
      exact .latencyBased alive strategy
    · rename_i strategy
      obtain ⟨totalWeight, summed, ok⟩ := bind_ok_iff.mp ok
      split at ok
      · rename_i zero
        subst zero
        obtain ⟨rfl, rfl⟩ := Prod.mk.inj (Except.ok.inj ok)
        exact .weightless alive strategy summed
      · rename_i positive
        obtain ⟨picked, walked, ok⟩ := bind_ok_iff.mp ok
        obtain ⟨rfl, rfl⟩ := Prod.mk.inj (Except.ok.inj ok)
        exact .weighted alive strategy summed positive walked
    · rename_i strategy
      obtain ⟨connections, summed, ok⟩ := bind_ok_iff.mp ok
      obtain ⟨rfl, rfl⟩ := Prod.mk.inj (Except.ok.inj ok)
      exact .adaptive alive strategy summed

end LoadBalancer

structure CircuitBreaker where
  failures : Nat
  lastFailure : Nat
  threshold : Nat
  recoverySecs : Nat
  deriving DecidableEq, Repr

namespace CircuitBreaker

def new : CircuitBreaker := ⟨0, 0, 5, 30⟩

def isOpen (s : CircuitBreaker) (now : Nat) : Bool :=
  if s.failures < s.threshold then false else now - s.lastFailure < s.recoverySecs

def recordFailure (s : CircuitBreaker) (now : Nat) : CircuitBreaker :=
  { s with failures := (s.failures + 1) % 2 ^ 32, lastFailure := now }

def recordSuccess (s : CircuitBreaker) : CircuitBreaker := { s with failures := 0 }

end CircuitBreaker

structure WalletRewardTracker where
  pendingLamports : Nat
  confirmedBalance : Nat
  lastBalanceFetch : Nat
  lifetimeEarnings : Nat
  sessionRequests : Nat
  deriving DecidableEq, Repr

namespace WalletRewardTracker

def new : WalletRewardTracker := ⟨0, 0, 0, 0, 0⟩

def recordRequest (s : WalletRewardTracker) : Checked WalletRewardTracker := do
  let pending ← checkedAdd 64 s.pendingLamports 100
  return { s with
    sessionRequests := (s.sessionRequests + 1) % 2 ^ 64
    pendingLamports := pending }

/-- `fetched` is the balance that the node answers, if it answers one. -/
def getOnchainBalance (s : WalletRewardTracker) (now : Nat) (fetched : Option Nat) :
    Checked (WalletRewardTracker × Option Nat) := do
  let age ← checkedSub now s.lastBalanceFetch
  if age < 30 then return (s, some s.confirmedBalance)
  else
    match fetched with
    | none => return (s, none)
    | some balance =>
      return ({ s with confirmedBalance := balance, lastBalanceFetch := now }, some balance)

variable {s s' : WalletRewardTracker} {now : Nat} {fetched answer : Option Nat}

/-- The balance is stale, and the node answers a new one. -/
def refetches (s : WalletRewardTracker) (now : Nat) (fetched : Option Nat) : Bool :=
  30 ≤ now - s.lastBalanceFetch && fetched.isSome

theorem getOnchainBalance_ok (ok : s.getOnchainBalance now fetched = .ok (s', answer)) :
    s'.lastBalanceFetch = if s.refetches now fetched then now else s.lastBalanceFetch := by
  obtain ⟨age, subtracted, ok⟩ := bind_ok_iff.mp ok
  obtain ⟨_, rfl⟩ := subWithin_ok_iff.mp subtracted
  split at ok
  · rename_i young
    cases ok
    have kept : s.refetches now fetched = false := by
      simp only [refetches, Bool.and_eq_false_iff, decide_eq_false_iff_not]
      exact .inl (by omega)
    rw [kept]
    rfl
  · rename_i stale
    cases fetched with
    | none =>
      cases ok
      simp only [refetches, Option.isSome_none, Bool.and_false, Bool.false_eq_true, if_false]
    | some balance =>
      cases ok
      have anew : s.refetches now (some balance) = true := by
        simp only [refetches, Option.isSome_some, Bool.and_true, decide_eq_true_eq]
        omega
      rw [anew]
      rfl

theorem getOnchainBalance_underflows_iff :
    s.getOnchainBalance now fetched = .error .subOverflow ↔ now < s.lastBalanceFetch := by
  apply checkedSub_bind_underflows_iff
  intro age error
  split at error
  · cases error
  · split at error
    · cases error
    · cases error

end WalletRewardTracker

end Solnet.Daemon
