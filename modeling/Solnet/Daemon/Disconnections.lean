import Mathlib.Data.Multiset.AddSub
import Solnet.Daemon.PeerRegistry
import Solnet.Daemon.PeerScores

/-! The swarm loop of the daemon. A connection that closes with an error counts as a failed
handshake of its peer, although only established connections close. -/
namespace Solnet.Daemon
open Fallible Runs

inductive NatStatus where
  | publicAddress
  | privateNetwork
  | unknown
  deriving DecidableEq, Repr

def NatStatus.text : NatStatus → String
  | publicAddress => "PublicAddress"
  | privateNetwork => "Private"
  | unknown => "Unknown"

/-- The events that the loop gets, with the clock readings that the guard makes. An error of a
connection comes when an attempt fails. -/
inductive SwarmEvent where
  | newListenAddr (address : String)
  | connectionEstablished (peer : PeerId) (remoteAddress : String) (now : Nat)
  | connectionClosed (peer : PeerId) (cause : Option String) (defaultNow expiryNow banNow : Nat)
  | autonatStatusChanged (new : NatStatus)
  | dcutr
  | outgoingConnectionError (peer : Option PeerId)
  | incomingConnectionError (peer : Option PeerId)
  | other
  deriving DecidableEq

structure SwarmLoop where
  httpPort : Nat
  connectedPeers : Nat
  totalPeersSeen : Nat
  holePunchAttempts : Nat
  natStatus : String
  nodeMultiaddrs : List String
  peerRegistry : PeerRegistry
  peerGuard : PeerGuard PeerId

namespace SwarmLoop

def handle (s : SwarmLoop) : SwarmEvent → Checked SwarmLoop
  | .newListenAddr address => .ok { s with nodeMultiaddrs := s.nodeMultiaddrs ++ [address] }
  | .connectionEstablished peer remoteAddress now => do
    let peerGuard ← s.peerGuard.onConnected peer now
    return { s with
      connectedPeers := (s.connectedPeers + 1) % 2 ^ 64
      totalPeersSeen := (s.totalPeersSeen + 1) % 2 ^ 64
      peerRegistry := connectionEstablished s.httpPort s.peerRegistry peer remoteAddress
      peerGuard }
  | .connectionClosed peer cause defaultNow expiryNow banNow => do
    let peerGuard ←
      match cause with
      | some _ => s.peerGuard.onFailedHandshake peer defaultNow expiryNow banNow
      | none => .ok s.peerGuard
    return { s with connectedPeers := (s.connectedPeers + 2 ^ 64 - 1) % 2 ^ 64, peerGuard }
  | .autonatStatusChanged new => .ok { s with natStatus := new.text }
  | .dcutr => .ok { s with holePunchAttempts := (s.holePunchAttempts + 1) % 2 ^ 64 }
  | .outgoingConnectionError _ | .incomingConnectionError _ | .other => .ok s

end SwarmLoop

/-- The loop, and the established connections of the swarm that have not closed yet. -/
structure ServedSwarm where
  loop : SwarmLoop
  established : Multiset PeerId

namespace ServedSwarm

/-- Only an established connection closes. -/
def CanDeliver (s : ServedSwarm) : SwarmEvent → Prop
  | .connectionClosed peer _ _ _ _ => peer ∈ s.established
  | _ => True

def establishedAfter (s : ServedSwarm) : SwarmEvent → Multiset PeerId
  | .connectionEstablished peer _ _ => peer ::ₘ s.established
  | .connectionClosed peer _ _ _ _ => s.established.erase peer
  | _ => s.established

def Delivers (s : ServedSwarm) (event : SwarmEvent) (t : ServedSwarm) : Prop :=
  s.CanDeliver event ∧ s.loop.handle event = .ok t.loop ∧ t.established = s.establishedAfter event

def start (httpPort : Nat) (peerRegistry : PeerRegistry) : ServedSwarm :=
  ⟨⟨httpPort, 0, 0, 0, "Unknown", [], peerRegistry, .new⟩, 0⟩

def NotBanned (peer : PeerId) (s : ServedSwarm) : Prop :=
  s.loop.peerGuard.banned.lookup peer = none

end ServedSwarm

namespace SwarmEvent

/-- An attempt to connect to the peer, or one from it, has failed. -/
def FailsAttempt (peer : PeerId) (event : SwarmEvent) : Prop :=
  event = .outgoingConnectionError (some peer) ∨ event = .incomingConnectionError (some peer)

def closesWithError (peer : PeerId) : SwarmEvent → Bool
  | connectionClosed closed cause _ _ _ => closed = peer && cause.isSome
  | _ => false

end SwarmEvent

open ServedSwarm

namespace PeerGuard

variable {P : Type} [DecidableEq P] {s t : PeerGuard P} {peer actor : P} {now : Nat}

theorem connected_unbanned (ok : s.onConnected actor now = .ok t) :
    t.banned = s.banned ∧ t.failures peer = s.failures peer := by
  obtain ⟨record, connected, ok⟩ := bind_ok_iff.mp ok
  obtain rfl := Except.ok.inj ok
  refine ⟨rfl, ?_⟩
  rw [failures_setRecord]
  split
  · rename_i same
    rw [(PeerRecord.connected_ok connected).2, failures_eq, same]
  · rfl

/-- A failed handshake of another peer. -/
theorem failed_other {expiryNow banNow : Nat} (other : peer ≠ actor)
    (ok : s.onFailedHandshake actor now expiryNow banNow = .ok t) :
    t.banned.lookup peer = s.banned.lookup peer ∧ t.failures peer = s.failures peer := by
  obtain ⟨record, failed, ok⟩ := bind_ok_iff.mp ok
  have kept := failures_setRecord s actor peer record
  rw [if_neg other] at kept
  split at ok
  · obtain ⟨expiry, _, ok⟩ := bind_ok_iff.mp ok
    obtain rfl := Except.ok.inj ok
    constructor
    · exact (Table.lookup_insert _ _ _ _).trans (if_neg other)
    · rw [← kept]
      unfold failures ban
      rw [Table.lookup_erase, if_neg other]
  · obtain rfl := Except.ok.inj ok
    exact ⟨rfl, kept⟩

/-- A failed handshake of the peer itself. -/
theorem failed_own {expiryNow banNow : Nat}
    (ok : s.onFailedHandshake peer now expiryNow banNow = .ok t) :
    s.failures peer < 4 ∧ t.banned = s.banned ∧ t.failures peer = s.failures peer + 1 ∨
      4 ≤ s.failures peer ∧ t.banned.lookup peer ≠ none := by
  rcases onFailedHandshake_ok ok with ⟨few, same⟩ | ⟨many, _, reason, expiry, banned⟩
  · refine .inl ⟨few, same, ?_⟩
    obtain ⟨record, failed, ok⟩ := bind_ok_iff.mp ok
    have count : record.failedHandshakes = s.failures peer + 1 := by
      rw [failed_ok failed, failures_eq]
    rw [if_neg (by omega)] at ok
    obtain rfl := Except.ok.inj ok
    rw [failures_setRecord, if_pos rfl, count]
  · refine .inr ⟨many, ?_⟩
    rw [banned, Table.lookup_insert, if_pos rfl]
    exact Option.some_ne_none _

end PeerGuard

namespace SwarmLoop

variable {s t : SwarmLoop} {event : SwarmEvent} {peer : PeerId}

/-- An event that is not an error of a connection of the peer leaves its ban and its count. -/
theorem handle_other (other : event.closesWithError peer = false)
    (ok : s.handle event = .ok t) :
    t.peerGuard.banned.lookup peer = s.peerGuard.banned.lookup peer ∧
      t.peerGuard.failures peer = s.peerGuard.failures peer := by
  cases event with
  | connectionEstablished actor remoteAddress now =>
    obtain ⟨peerGuard, connected, ok⟩ := bind_ok_iff.mp ok
    obtain rfl := Except.ok.inj ok
    obtain ⟨banned, failures⟩ := PeerGuard.connected_unbanned connected
    exact ⟨by rw [banned], failures⟩
  | connectionClosed actor cause defaultNow expiryNow banNow =>
    cases cause with
    | none =>
      obtain rfl := Except.ok.inj ok
      exact ⟨rfl, rfl⟩
    | some error =>
      obtain ⟨peerGuard, failed, ok⟩ := bind_ok_iff.mp ok
      obtain rfl := Except.ok.inj ok
      refine PeerGuard.failed_other ?_ failed
      rintro rfl
      simp [SwarmEvent.closesWithError] at other
  | newListenAddr | autonatStatusChanged | dcutr | outgoingConnectionError
  | incomingConnectionError | other =>
    obtain rfl := Except.ok.inj ok
    exact ⟨rfl, rfl⟩

theorem handle_own (own : event.closesWithError peer = true) (ok : s.handle event = .ok t) :
    s.peerGuard.failures peer < 4 ∧ t.peerGuard.banned = s.peerGuard.banned ∧
        t.peerGuard.failures peer = s.peerGuard.failures peer + 1 ∨
      4 ≤ s.peerGuard.failures peer ∧ t.peerGuard.banned.lookup peer ≠ none := by
  cases event with
  | connectionClosed actor cause defaultNow expiryNow banNow =>
    cases cause with
    | none => simp [SwarmEvent.closesWithError] at own
    | some error =>
      obtain ⟨peerGuard, failed, ok⟩ := bind_ok_iff.mp ok
      obtain rfl := Except.ok.inj ok
      obtain rfl : actor = peer := by simpa [SwarmEvent.closesWithError] using own
      exact PeerGuard.failed_own failed
  | _ => cases own

end SwarmLoop

namespace ServedSwarm

variable {s t u : ServedSwarm} {event : SwarmEvent} {events : List SwarmEvent} {peer : PeerId}

theorem delivers_deterministic : Deterministic Delivers := by
  rintro s event ⟨loop, established⟩ ⟨loop', established'⟩ ⟨_, ok, after⟩ ⟨_, ok', after'⟩
  have same : loop = loop' := Except.ok.inj (ok.symm.trans ok')
  have left : established = established' := after.trans after'.symm
  rw [same, left]

/-- The failed handshakes that are counted and the errors to come are fewer than five exactly
when the peer is never banned. -/
theorem notBanned_iff_from (run : Run Delivers s events u) (free : NotBanned peer s)
    (few : s.loop.peerGuard.failures peer < 5) :
    Always Delivers (NotBanned peer) s events ↔
      s.loop.peerGuard.failures peer + events.countP (SwarmEvent.closesWithError peer) < 5 := by
  induction run with
  | nil s =>
    refine iff_of_true (fun pre t sub run => ?_) (by simpa using few)
    obtain rfl := List.prefix_nil.mp sub
    exact run_nil_iff.mp run ▸ free
  | @cons s t u event events step _ ih =>
    rw [always_cons_iff delivers_deterministic step, and_iff_right free, List.countP_cons]
    obtain ⟨_, ok, _⟩ := step
    cases own : event.closesWithError peer with
    | false =>
      obtain ⟨banned, failures⟩ := SwarmLoop.handle_other own ok
      rw [ih (banned.trans free) (failures ▸ few), failures]
      simp
    | true =>
      rw [if_pos rfl]
      rcases SwarmLoop.handle_own own ok with ⟨fewer, banned, failures⟩ | ⟨fifth, banned⟩
      · rw [ih ((congrArg _ banned).trans free) (by omega), failures]
        omega
      · constructor
        · intro always
          exact absurd (always [] t List.nil_prefix (.nil t)) banned
        · omega

/-- A peer is never banned in a run of the swarm loop exactly when fewer than five of its
connections close with an error. The run has the events of the swarm only: the cleanup of the
guard, every hour, is left out of it. -/
theorem never_banned_iff {httpPort : Nat} {peerRegistry : PeerRegistry}
    {events : List SwarmEvent} {s : ServedSwarm} (peer : PeerId)
    (run : Run Delivers (start httpPort peerRegistry) events s) :
    Always Delivers (NotBanned peer) (start httpPort peerRegistry) events ↔
      events.countP (SwarmEvent.closesWithError peer) < 5 := by
  have none_failed : (start httpPort peerRegistry).loop.peerGuard.failures peer = 0 := rfl
  have few : (start httpPort peerRegistry).loop.peerGuard.failures peer < 5 := by
    rw [none_failed]
    decide
  have from_start := notBanned_iff_from run rfl few
  rw [none_failed, Nat.zero_add] at from_start
  exact from_start

/-! A peer whose connections are reset. -/

/-- A connection that is established and then reset. -/
def connectionReset : List SwarmEvent :=
  [.connectionEstablished somePeer "/dns/a" 0, .connectionClosed somePeer (some "reset") 0 0 0]

def swarmOf (totalPeersSeen : Nat) (peerGuard : PeerGuard PeerId) : ServedSwarm :=
  ⟨⟨8899, 0, totalPeersSeen, 0, "Unknown", [], ∅, peerGuard⟩, 0⟩

def resetGuard (score : Int) (resets : Nat) : PeerGuard PeerId :=
  ⟨AList.insert somePeer ⟨score, resets, resets, 0, 0, 0, 0, 0⟩ ∅, ∅⟩

theorem connectionReset_run {n : Nat} {before connected after : PeerGuard PeerId}
    (connects : before.onConnected somePeer 0 = .ok connected)
    (fails : connected.onFailedHandshake somePeer 0 0 0 = .ok after) (few : n + 1 < 2 ^ 64) :
    Run Delivers (swarmOf n before) connectionReset (swarmOf (n + 1) after) := by
  let opened : ServedSwarm := ⟨⟨8899, 1, n + 1, 0, "Unknown", [], ∅, connected⟩, {somePeer}⟩
  have opens : Delivers (swarmOf n before) (.connectionEstablished somePeer "/dns/a" 0) opened := by
    have seen : (n + 1) % 2 ^ 64 = n + 1 := Nat.mod_eq_of_lt few
    refine ⟨trivial, ?_, rfl⟩
    simp only [SwarmLoop.handle, swarmOf, connects, bind_of_ok, seen]
    rfl
  have closes : Delivers opened (.connectionClosed somePeer (some "reset") 0 0 0)
      (swarmOf (n + 1) after) := by
    refine ⟨Multiset.mem_singleton_self somePeer, ?_, (Multiset.erase_singleton somePeer).symm⟩
    simp only [SwarmLoop.handle, opened, fails, bind_of_ok]
    rfl
  exact .cons opens (.cons closes (.nil _))

theorem first_reset : Run Delivers (start 8899 ∅) connectionReset (swarmOf 1 (resetGuard 41 1)) :=
  connectionReset_run rfl rfl (by decide)

theorem notBanned_after_reset :
    Always Delivers (NotBanned somePeer) (start 8899 ∅) connectionReset :=
  (never_banned_iff somePeer first_reset).mpr (by decide)

theorem reset_peer_banned : ¬ ∀ (httpPort : Nat) (peerRegistry : PeerRegistry) (peer : PeerId)
    (events : List SwarmEvent) (s : ServedSwarm),
      Run Delivers (start httpPort peerRegistry) events s →
        (∀ event ∈ events, ¬ event.FailsAttempt peer) →
          Always Delivers (NotBanned peer) (start httpPort peerRegistry) events := by
  intro all
  let events := connectionReset ++ (connectionReset ++ (connectionReset ++
    (connectionReset ++ connectionReset)))
  have run : ∃ s, Run Delivers (start 8899 ∅) events s ∧
      s.loop.peerGuard.banned.lookup somePeer ≠ none := by
    have second : Run Delivers (swarmOf 1 (resetGuard 41 1)) connectionReset
        (swarmOf 2 (resetGuard 32 2)) := connectionReset_run rfl rfl (by decide)
    have third : Run Delivers (swarmOf 2 (resetGuard 32 2)) connectionReset
        (swarmOf 3 (resetGuard 23 3)) := connectionReset_run rfl rfl (by decide)
    have fourth : Run Delivers (swarmOf 3 (resetGuard 23 3)) connectionReset
        (swarmOf 4 (resetGuard 14 4)) := connectionReset_run rfl rfl (by decide)
    have fifth : Run Delivers (swarmOf 4 (resetGuard 14 4)) connectionReset (swarmOf 5
        ⟨∅, AList.insert somePeer ⟨"5 failed handshakes", 0, some 3600⟩ ∅⟩) :=
      connectionReset_run rfl rfl (by decide)
    exact ⟨_, run_append_iff.mpr ⟨_, first_reset, run_append_iff.mpr ⟨_, second,
      run_append_iff.mpr ⟨_, third, run_append_iff.mpr ⟨_, fourth, fifth⟩⟩⟩⟩, nofun⟩
  obtain ⟨s, run, banned⟩ := run
  have attempts : ∀ event ∈ events, ¬ event.FailsAttempt somePeer := by
    unfold SwarmEvent.FailsAttempt
    decide
  exact banned (all 8899 ∅ somePeer events s run attempts events s (List.prefix_refl _) run)

end ServedSwarm

end Solnet.Daemon
