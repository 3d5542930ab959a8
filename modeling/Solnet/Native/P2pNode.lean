import Mathlib.Algebra.Ring.Nat
import Solnet.Native.RelayClient

/-! The mobile P2P node: the statics, and the swarms spawned so far. A swarm and its channel
have one number. -/
namespace Solnet.Native

inductive SwarmState where
  | starting
  | active
  | ended
  deriving DecidableEq, Repr

/-- A spawned swarm and the addresses that wait in its channel to be dialled. -/
structure Swarm where
  state : SwarmState
  commands : List String
  deriving DecidableEq, Repr

inductive SwarmEvent where
  | built
  | failed
  | dial
  | connected
  | disconnected
  | closed
  deriving DecidableEq, Repr

structure P2pNode where
  p2pRunning : Bool
  peerCount : Nat
  swarmTx : Option Nat
  swarms : List Swarm
  deriving DecidableEq, Repr

namespace P2pNode

def new : P2pNode := ⟨false, 0, none, []⟩

/-- `localPeerId` names the key pair drawn for the node. A sender that finds the cell taken is
dropped, and no one hears of it. -/
def initNode (s : P2pNode) (relayRt : Option Nat) (localPeerId : String) :
    P2pNode × Except String String :=
  if s.p2pRunning then (s, .ok "already_running")
  else
    match relayRt with
    | none => (s, .error "Relay runtime not initialized. Start relay first.")
    | some _ =>
      let swarmTx :=
        match setOnce s.swarmTx s.swarms.length with
        | .ok swarmTx => swarmTx
        | .error _ => s.swarmTx
      ({ s with swarmTx := swarmTx, swarms := s.swarms ++ [⟨.starting, []⟩] }, .ok localPeerId)

def dialPeer (isMultiaddr : String → Bool) (s : P2pNode) (multiaddr : String) : P2pNode × Bool :=
  match s.swarmTx with
  | none => (s, false)
  | some i =>
    match s.swarms[i]? with
    | none => (s, false)
    | some swarm =>
      if isMultiaddr multiaddr = false ∨ swarm.state = .ended ∨ swarm.commands.length = 32 then
        (s, false)
      else
        let swarm := { swarm with commands := swarm.commands ++ [multiaddr] }
        ({ s with swarms := s.swarms.set i swarm }, true)

/-- What a swarm does beside the calls. -/
def run (s : P2pNode) (i : Nat) : SwarmEvent → Option P2pNode
  | .built => do
    let swarm ← s.swarms[i]?
    if swarm.state = .starting then
      some { s with p2pRunning := true, swarms := s.swarms.set i { swarm with state := .active } }
    else none
  | .failed => do
    let swarm ← s.swarms[i]?
    if swarm.state = .starting then
      some { s with p2pRunning := false, swarms := s.swarms.set i ⟨.ended, []⟩ }
    else none
  | .dial => do
    let swarm ← s.swarms[i]?
    match swarm.state, swarm.commands with
    | .active, _ :: commands => some { s with swarms := s.swarms.set i ⟨.active, commands⟩ }
    | _, _ => none
  | .connected => do
    let swarm ← s.swarms[i]?
    if swarm.state = .active then some { s with peerCount := (s.peerCount + 1) % 2 ^ 64 } else none
  | .disconnected => do
    let swarm ← s.swarms[i]?
    if swarm.state = .active then
      some { s with peerCount := (s.peerCount + 2 ^ 64 - 1) % 2 ^ 64 }
    else none
  | .closed => do
    let swarm ← s.swarms[i]?
    if swarm.state = .active ∧ swarm.commands = [] ∧ s.swarmTx ≠ some i then
      some { s with p2pRunning := false, swarms := s.swarms.set i ⟨.ended, []⟩ }
    else none

end P2pNode

end Solnet.Native
