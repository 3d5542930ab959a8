import Solnet.Daemon.Disconnections
import Solnet.Lib.Outcomes

/-! What `/mesh/status` tells of the swarm, over runs of the swarm loop with the rounds of the
task that cleans the peer guard. The loop gets through every run, and its counters are exact. -/
namespace Solnet.Daemon
open Fallible Runs

/-- The fields of the configuration that the answer repeats. -/
structure MeshConfig where
  isRelay : Bool
  bootstrapNodes : List String
  enableDcutr : Bool
  deriving DecidableEq, Repr

structure MeshStatusResponse where
  peerId : String
  multiaddrs : List String
  natStatus : String
  isRelay : Bool
  relayReservations : Nat
  connectedPeers : Nat
  bootstrapPeers : List String
  dcutrEnabled : Bool
  transport : String
  holePunchingAttempts : Nat
  holePunchingSuccesses : Nat
  meshVersion : String
  deriving DecidableEq, Repr

/-- The last part of a split, which is cut at most as often as it has characters. -/
def lastPart (pattern : List Char) : Nat → List Char → List Char
  | 0, chars => chars
  | n + 1, chars =>
    match afterFirst pattern chars with
    | none => chars
    | some rest => lastPart pattern n rest

def listenedPeerId (multiaddrs : List String) : String :=
  match multiaddrs.find? fun addr => (afterFirst "/p2p/".toList addr.toList).isSome with
  | some addr => String.ofList (lastPart "/p2p/".toList addr.length addr.toList)
  | none => "Unknown"

def meshStatusHandler (config : MeshConfig) (s : SwarmLoop) : MeshStatusResponse where
  peerId := listenedPeerId s.nodeMultiaddrs
  multiaddrs := s.nodeMultiaddrs
  natStatus := s.natStatus
  isRelay := config.isRelay
  relayReservations := s.connectedPeers
  connectedPeers := s.connectedPeers
  bootstrapPeers := config.bootstrapNodes
  dcutrEnabled := config.enableDcutr
  transport := "TCP+QUIC"
  holePunchingAttempts := s.holePunchAttempts
  -- Nothing writes the counter of the successes.
  holePunchingSuccesses := 0
  meshVersion := "libp2p-v0.53"

inductive MeshEvent where
  | swarm (event : SwarmEvent)
  | guardCleanup (now : Nat)
  deriving DecidableEq

namespace MeshEvent

/-- The readings of the clock. A connection that closes without an error makes none. -/
def readings : MeshEvent → List Nat
  | .swarm (.connectionEstablished _ _ now) => [now]
  | .swarm (.connectionClosed _ (some _) defaultNow expiryNow banNow) =>
    [defaultNow, expiryNow, banNow]
  | .guardCleanup now => [now]
  | _ => []

def opens : MeshEvent → Bool
  | .swarm (.connectionEstablished _ _ _) => true
  | _ => false

def closes : MeshEvent → Bool
  | .swarm (.connectionClosed _ _ _ _ _) => true
  | _ => false

def punches : MeshEvent → Bool
  | .swarm .dcutr => true
  | _ => false

def listens : MeshEvent → Option String
  | .swarm (.newListenAddr address) => some address
  | _ => none

def natStatus : MeshEvent → Option NatStatus
  | .swarm (.autonatStatusChanged new) => some new
  | _ => none

/-- The connections that are open after the event. -/
def openAfter (connections : Multiset PeerId) : MeshEvent → Multiset PeerId
  | .swarm (.connectionEstablished peer _ _) => peer ::ₘ connections
  | .swarm (.connectionClosed peer _ _ _ _) => connections.erase peer
  | _ => connections

def closed : MeshEvent → Option PeerId
  | .swarm (.connectionClosed peer _ _ _ _) => some peer
  | _ => none

/-- Only open connections close. -/
def Deliverable : Multiset PeerId → List MeshEvent → Prop
  | _, [] => True
  | connections, event :: events =>
    (∀ peer ∈ event.closed, peer ∈ connections) ∧
      Deliverable (event.openAfter connections) events

end MeshEvent

namespace ServedSwarm

def cleaned (s : ServedSwarm) (peerGuard : PeerGuard PeerId) : ServedSwarm :=
  { s with loop := { s.loop with peerGuard } }

def Advances (s : ServedSwarm) : MeshEvent → ServedSwarm → Prop
  | .swarm event, t => s.Delivers event t
  | .guardCleanup now, t => ∃ peerGuard, s.loop.peerGuard.cleanup now = .ok peerGuard ∧
    t = s.cleaned peerGuard

end ServedSwarm

/-- A record that the loop has kept for so many events: each failure took ten points. -/
structure PeerRecord.Regular (clock events : Nat) (record : PeerRecord) : Prop where
  seen : record.lastSeen ≤ clock
  connections : record.connections ≤ events
  failures : record.failedHandshakes < 5
  above : 50 ≤ record.score + 10 * record.failedHandshakes
  atMost : record.score ≤ 100

namespace PeerGuard

variable {s : PeerGuard PeerId} {peer : PeerId} {clock events now : Nat}

def Regular (clock events : Nat) (s : PeerGuard PeerId) : Prop :=
  Table.Holds (fun _ record => record.Regular clock events) s.scores

theorem Regular.later {clock' events' : Nat} (regular : s.Regular clock events)
    (later : clock ≤ clock') (more : events ≤ events') : s.Regular clock' events' := by
  intro peer record stored
  have kept := regular peer record stored
  exact ⟨kept.seen.trans later, kept.connections.trans more, kept.failures, kept.above,
    kept.atMost⟩

theorem Regular.recordOf (regular : s.Regular clock events) (later : clock ≤ now)
    (peer : PeerId) : (s.recordOf peer now).Regular now events := by
  unfold PeerGuard.recordOf
  cases stored : s.scores.lookup peer with
  | none => exact ⟨Nat.le_refl now, Nat.zero_le events, by simp [PeerRecord.default],
      by simp [PeerRecord.default], by simp [PeerRecord.default]⟩
  | some record => exact regular.later later (Nat.le_refl events) peer record stored

theorem Regular.onConnected (regular : s.Regular clock events) (later : clock ≤ now)
    (few : events + 1 < 2 ^ 32) (peer : PeerId) :
    Answers (fun t : PeerGuard PeerId => t.Regular now (events + 1))
      (s.onConnected peer now) := by
  have kept := regular.recordOf later peer
  obtain ⟨seen, connections, failures, above, atMost⟩ := kept
  refine Answers.bind (P := fun record => record.Regular now (events + 1)) ?_ fun record kept' => ?_
  · refine (answers_addWithin (by omega)).bind ?_
    rintro _ rfl
    refine Answers.bind (P := (· = (s.recordOf peer now).score + 1))
      ⟨_, if_pos (by constructor <;> omega), rfl⟩ ?_
    rintro _ rfl
    exact .pure ⟨Nat.le_refl now, by simpa using connections, failures,
      by simp only; omega, by simp only; omega⟩
  · exact .pure ((regular.later later (Nat.le_succ events)).insert kept')

theorem Regular.onFailedHandshake {expiryNow banNow : Nat} (regular : s.Regular clock events)
    (later : clock ≤ now) (expires : now ≤ expiryNow) (bans : expiryNow ≤ banNow)
    (fits : expiryNow + 3600 < 2 ^ 64) (peer : PeerId) :
    Answers (fun t : PeerGuard PeerId => t.Regular banNow events)
      (s.onFailedHandshake peer now expiryNow banNow) := by
  obtain ⟨seen, connections, failures, above, atMost⟩ := regular.recordOf later peer
  have others := regular.later (later.trans (expires.trans bans)) (Nat.le_refl events)
  refine Answers.bind (P := fun record : PeerRecord => record.lastSeen ≤ banNow ∧
    record.connections ≤ events ∧ 50 ≤ record.score + 10 * record.failedHandshakes ∧
    record.score ≤ 100) ?_ ?_
  · refine (answers_addWithin (by omega)).bind ?_
    rintro _ rfl
    refine Answers.bind (P := (· = (s.recordOf peer now).score - 10))
      ⟨_, if_pos (by constructor <;> omega), rfl⟩ ?_
    rintro _ rfl
    exact .pure ⟨seen.trans (expires.trans bans), connections, by push_cast; omega, by
      simp only; omega⟩
  · rintro record ⟨seen, connections, above, atMost⟩
    by_cases fifth : 5 ≤ record.failedHandshakes
    · simp only [if_pos fifth]
      refine (answers_addWithin fits).bind ?_
      rintro _ rfl
      refine .pure fun other stored found => ?_
      -- The ban forgets the record.
      have found' : ((s.scores.insert peer record).erase peer).lookup other = some stored := found
      rw [Table.lookup_erase] at found'
      split at found'
      · cases found'
      · rename_i different
        rw [Table.lookup_insert, if_neg different] at found'
        exact others other stored found'
    · simp only [if_neg fifth]
      exact .pure (others.insert ⟨seen, connections, Nat.not_le.mp fifth, above, atMost⟩)

theorem Regular.cleanup (regular : s.Regular clock events) (later : clock ≤ now) :
    Answers (fun t : PeerGuard PeerId => t.Regular now events) (s.cleanup now) := by
  let stands (_ : PeerId) (ban : BanRecord) : Checked Bool := .ok (ban.stands now)
  have expires : ∃ banned, s.banned.retain stands = .ok banned :=
    Table.retain_answers fun _ ban _ => ⟨ban.stands now, rfl⟩
  have forgets : ∃ scores, s.scores.retain (fun _ record => record.recent now) = .ok scores := by
    refine Table.retain_answers fun peer record stored => ?_
    have seen := (regular peer record stored).seen.trans later
    exact ⟨_, bind_ok_iff.mpr ⟨_, if_pos seen, rfl⟩⟩
  obtain ⟨banned, retained⟩ := expires
  obtain ⟨scores, kept⟩ := forgets
  refine ⟨⟨scores, banned⟩, ?_, (regular.later later (Nat.le_refl events)).retain kept⟩
  exact bind_ok_iff.mpr ⟨banned, retained, bind_ok_iff.mpr ⟨scores, kept, rfl⟩⟩

end PeerGuard

namespace SwarmLoop

variable {s : SwarmLoop} {peer : PeerId} {guard : PeerGuard PeerId}

theorem handle_established {remoteAddress : String} {now : Nat}
    (connected : s.peerGuard.onConnected peer now = .ok guard) :
    ∃ t, s.handle (.connectionEstablished peer remoteAddress now) = .ok t ∧
      t.peerGuard = guard := by
  rw [handle, connected]
  exact ⟨_, rfl, rfl⟩

theorem handle_closed (s : SwarmLoop) (peer : PeerId) (defaultNow expiryNow banNow : Nat) :
    ∃ t, s.handle (.connectionClosed peer none defaultNow expiryNow banNow) = .ok t ∧
      t.peerGuard = s.peerGuard :=
  ⟨_, rfl, rfl⟩

theorem handle_failed {error : String} {defaultNow expiryNow banNow : Nat}
    (failed : s.peerGuard.onFailedHandshake peer defaultNow expiryNow banNow = .ok guard) :
    ∃ t, s.handle (.connectionClosed peer (some error) defaultNow expiryNow banNow) = .ok t ∧
      t.peerGuard = guard := by
  simp only [handle, failed]
  exact ⟨_, rfl, rfl⟩

theorem closed_of_handle {t : SwarmLoop} {cause : Option String}
    {defaultNow expiryNow banNow : Nat}
    (ok : s.handle (.connectionClosed peer cause defaultNow expiryNow banNow) = .ok t) :
    ∃ guard peers, peers = (s.connectedPeers + 2 ^ 64 - 1) % 2 ^ 64 ∧
      t = { s with connectedPeers := peers, peerGuard := guard } := by
  cases cause with
  | none => exact ⟨s.peerGuard, _, rfl, (Except.ok.inj ok).symm⟩
  | some error =>
    obtain ⟨guard, _, ok⟩ := bind_ok_iff.mp ok
    exact ⟨guard, _, rfl, (Except.ok.inj ok).symm⟩

end SwarmLoop

/-- What the loop has counted and kept of the events so far. -/
structure ServedSwarm.Tallies (done : List MeshEvent) (s : ServedSwarm) : Prop where
  gauge : s.loop.connectedPeers = s.established.card
  balance : s.established.card + done.countP MeshEvent.closes = done.countP MeshEvent.opens
  seen : s.loop.totalPeersSeen = done.countP MeshEvent.opens
  punches : s.loop.holePunchAttempts = done.countP MeshEvent.punches
  multiaddrs : s.loop.nodeMultiaddrs = done.filterMap MeshEvent.listens
  natStatus : s.loop.natStatus = (done.filterMap MeshEvent.natStatus).getLast?.elim "Unknown"
    NatStatus.text

namespace ServedSwarm

variable {s t : ServedSwarm} {event : MeshEvent} {clock n : Nat}

/-- The loop gets through each event that comes in order. -/
theorem advances_of_regular (regular : s.loop.peerGuard.Regular clock n)
    (opened : ∀ peer ∈ event.closed, peer ∈ s.established) (few : n + 1 < 2 ^ 32)
    (ordered : (clock :: event.readings).Pairwise (· ≤ ·))
    (fits : ∀ now ∈ event.readings, now + 3600 < 2 ^ 64) :
    ∃ t, s.Advances event t ∧ t.established = event.openAfter s.established ∧
      t.loop.peerGuard.Regular (event.readings.getLast?.getD clock) (n + 1) := by
  have more := regular.later (Nat.le_refl clock) (Nat.le_succ n)
  cases event with
  | guardCleanup now =>
    have later : clock ≤ now := by simpa [MeshEvent.readings] using ordered
    obtain ⟨guard, cleaned, regular'⟩ := more.cleanup later
    exact ⟨s.cleaned guard, ⟨guard, cleaned, rfl⟩, rfl, regular'⟩
  | swarm event =>
    cases event with
    | connectionEstablished peer remoteAddress now =>
      have later : clock ≤ now := by simpa [MeshEvent.readings] using ordered
      obtain ⟨guard, connected, regular'⟩ := regular.onConnected later few peer
      obtain ⟨loop, handled, rfl⟩ := SwarmLoop.handle_established connected
      exact ⟨⟨loop, peer ::ₘ s.established⟩, ⟨trivial, handled, rfl⟩, rfl, regular'⟩
    | connectionClosed peer cause defaultNow expiryNow banNow =>
      have member : peer ∈ s.established := opened peer rfl
      cases cause with
      | none =>
        obtain ⟨loop, handled, same⟩ := s.loop.handle_closed peer defaultNow expiryNow banNow
        exact ⟨⟨loop, s.established.erase peer⟩, ⟨member, handled, rfl⟩, rfl, same ▸ more⟩
      | some error =>
        simp only [MeshEvent.readings, List.pairwise_cons, List.mem_cons, List.not_mem_nil,
          or_false, forall_eq_or_imp, forall_eq] at ordered fits
        obtain ⟨⟨later, _⟩, ⟨expires, _⟩, bans, _⟩ := ordered
        obtain ⟨guard, failed, regular'⟩ :=
          more.onFailedHandshake later expires bans fits.2.1 peer
        obtain ⟨loop, handled, rfl⟩ := SwarmLoop.handle_failed failed
        exact ⟨⟨loop, s.established.erase peer⟩, ⟨member, handled, rfl⟩, rfl, regular'⟩
    | newListenAddr address => exact ⟨⟨_, s.established⟩, ⟨trivial, rfl, rfl⟩, rfl, more⟩
    | autonatStatusChanged new => exact ⟨⟨_, s.established⟩, ⟨trivial, rfl, rfl⟩, rfl, more⟩
    | dcutr => exact ⟨⟨_, s.established⟩, ⟨trivial, rfl, rfl⟩, rfl, more⟩
    | outgoingConnectionError | incomingConnectionError | other =>
      exact ⟨s, ⟨trivial, rfl, rfl⟩, rfl, more⟩

theorem runs_of_regular {events : List MeshEvent} (regular : s.loop.peerGuard.Regular clock n)
    (deliverable : MeshEvent.Deliverable s.established events) (few : n + events.length < 2 ^ 32)
    (ordered : (clock :: events.flatMap MeshEvent.readings).Pairwise (· ≤ ·))
    (fits : ∀ now ∈ events.flatMap MeshEvent.readings, now + 3600 < 2 ^ 64) :
    ∃ t, Run Advances s events t := by
  induction events generalizing s clock n with
  | nil => exact ⟨s, .nil s⟩
  | cons event events ih =>
    rw [List.length_cons] at few
    rw [List.flatMap_cons] at ordered fits
    rw [← List.cons_append, List.pairwise_append] at ordered
    obtain ⟨first, rest, across⟩ := ordered
    obtain ⟨t, step, opened, regular'⟩ := advances_of_regular regular deliverable.1 (by omega)
      first fun now member => fits now (List.mem_append_left _ member)
    have last : event.readings.getLast?.getD clock ∈ clock :: event.readings := by
      cases reading : event.readings.getLast? with
      | none => exact List.mem_cons_self
      | some now => exact List.mem_cons_of_mem _ (List.mem_of_getLast? reading)
    obtain ⟨u, run⟩ := ih regular' (opened ▸ deliverable.2) (by omega)
      (List.pairwise_cons.mpr ⟨across _ last, rest⟩)
      fun now member => fits now (List.mem_append_right _ member)
    exact ⟨u, .cons step run⟩

theorem Tallies.card_lt {done : List MeshEvent} (tallies : s.Tallies done)
    (few : done.length < 2 ^ 32) : s.established.card < 2 ^ 32 := by
  have opened : done.countP MeshEvent.opens ≤ done.length := List.countP_le_length
  have balance := tallies.balance
  omega

theorem Tallies.step {done : List MeshEvent} (tallies : s.Tallies done)
    (gauge : t.loop.connectedPeers = t.established.card)
    (balance : t.established.card + (if event.closes then 1 else 0) =
      s.established.card + if event.opens then 1 else 0)
    (seen : t.loop.totalPeersSeen = s.loop.totalPeersSeen + if event.opens then 1 else 0)
    (punches : t.loop.holePunchAttempts =
      s.loop.holePunchAttempts + if event.punches then 1 else 0)
    (multiaddrs : t.loop.nodeMultiaddrs = s.loop.nodeMultiaddrs ++ event.listens.toList)
    (natStatus : t.loop.natStatus = event.natStatus.elim s.loop.natStatus NatStatus.text) :
    t.Tallies (done ++ [event]) where
  gauge := gauge
  balance := by
    have before := tallies.balance
    simp only [List.countP_append, List.countP_singleton]
    omega
  seen := by
    rw [seen, tallies.seen, List.countP_append, List.countP_singleton]
  punches := by
    rw [punches, tallies.punches, List.countP_append, List.countP_singleton]
  multiaddrs := by
    rw [multiaddrs, tallies.multiaddrs, List.filterMap_append]
    cases listened : event.listens <;> simp [listened]
  natStatus := by
    rw [natStatus, tallies.natStatus, List.filterMap_append]
    cases changed : event.natStatus <;> simp [changed]

/-- An event that neither opens nor closes a connection. -/
theorem Tallies.stays {done : List MeshEvent} (tallies : s.Tallies done)
    (opens : event.opens = false) (closes : event.closes = false)
    (established : t.established = s.established)
    (gauge : t.loop.connectedPeers = s.loop.connectedPeers)
    (seen : t.loop.totalPeersSeen = s.loop.totalPeersSeen)
    (punches : t.loop.holePunchAttempts =
      s.loop.holePunchAttempts + if event.punches then 1 else 0)
    (multiaddrs : t.loop.nodeMultiaddrs = s.loop.nodeMultiaddrs ++ event.listens.toList)
    (natStatus : t.loop.natStatus = event.natStatus.elim s.loop.natStatus NatStatus.text) :
    t.Tallies (done ++ [event]) :=
  tallies.step (by rw [gauge, tallies.gauge, established]) (by simp [opens, closes, established])
    (by simp [opens, seen]) punches multiaddrs natStatus

theorem Tallies.advances {done : List MeshEvent} (tallies : s.Tallies done)
    (few : done.length < 2 ^ 32) (step : s.Advances event t) : t.Tallies (done ++ [event]) := by
  have small := tallies.card_lt few
  have gauge := tallies.gauge
  have seen := tallies.seen
  have punches := tallies.punches
  have seen_few : done.countP MeshEvent.opens ≤ done.length := List.countP_le_length
  have punched_few : done.countP MeshEvent.punches ≤ done.length := List.countP_le_length
  cases event with
  | guardCleanup now =>
    obtain ⟨guard, _, rfl⟩ := step
    exact tallies.stays rfl rfl rfl rfl rfl rfl (List.append_nil _).symm rfl
  | swarm event =>
    obtain ⟨loop, established⟩ := t
    obtain ⟨delivers, ok, opened⟩ := step
    simp only at ok opened
    cases event with
    | connectionEstablished peer remoteAddress now =>
      obtain ⟨guard, _, ok⟩ := bind_ok_iff.mp ok
      obtain rfl := Except.ok.inj ok
      obtain rfl := opened
      refine tallies.step ?_ ?_ ?_ rfl (List.append_nil _).symm rfl
      · rw [establishedAfter, Multiset.card_cons, ← gauge]
        simp only
        omega
      · rw [establishedAfter, Multiset.card_cons]
        rfl
      · simp only [MeshEvent.opens, if_true]
        omega
    | connectionClosed peer cause defaultNow expiryNow banNow =>
      obtain ⟨guard, peers, fewer, rfl⟩ := SwarmLoop.closed_of_handle ok
      obtain rfl := opened
      have left := Multiset.card_erase_add_one delivers
      refine tallies.step ?_ left rfl rfl (List.append_nil _).symm rfl
      show peers = (s.established.erase peer).card
      omega
    | newListenAddr address =>
      obtain rfl := Except.ok.inj ok
      exact tallies.stays rfl rfl opened rfl rfl rfl rfl rfl
    | autonatStatusChanged new =>
      obtain rfl := Except.ok.inj ok
      exact tallies.stays rfl rfl opened rfl rfl rfl (List.append_nil _).symm rfl
    | dcutr =>
      obtain rfl := Except.ok.inj ok
      refine tallies.stays rfl rfl opened rfl rfl ?_ (List.append_nil _).symm rfl
      simp only [MeshEvent.punches, if_true]
      omega
    | outgoingConnectionError | incomingConnectionError | other =>
      obtain rfl := Except.ok.inj ok
      exact tallies.stays rfl rfl opened rfl rfl rfl (List.append_nil _).symm rfl

theorem start_tallies (httpPort : Nat) (peerRegistry : PeerRegistry) :
    (start httpPort peerRegistry).Tallies [] :=
  ⟨rfl, rfl, rfl, rfl, rfl, rfl⟩

theorem run_tallies {events : List MeshEvent} {httpPort : Nat} {peerRegistry : PeerRegistry}
    (run : Run Advances (start httpPort peerRegistry) events t) (few : events.length < 2 ^ 32) :
    t.Tallies events := by
  have keeps : ∀ (done : List MeshEvent) (s : ServedSwarm) (event : MeshEvent) (t : ServedSwarm),
      (done.length < 2 ^ 32 → s.Tallies done) → s.Advances event t →
        ((done ++ [event]).length < 2 ^ 32 → t.Tallies (done ++ [event])) := by
    intro done s event t kept step few
    rw [List.length_append, List.length_singleton] at few
    exact (kept (by omega)).advances (by omega) step
  have started : ([] : List MeshEvent).length < 2 ^ 32 →
      (start httpPort peerRegistry).Tallies [] := fun _ => start_tallies httpPort peerRegistry
  exact run.history keeps started few

/-- The loop panics in no run, and the status is exact: as many peers as connections that opened
and have not closed, the latest NAT status, and each address in its order. -/
theorem mesh_status_exact (httpPort : Nat) (peerRegistry : PeerRegistry) (config : MeshConfig)
    (events : List MeshEvent) (deliverable : MeshEvent.Deliverable 0 events)
    (few : events.length < 2 ^ 32)
    (ordered : (events.flatMap MeshEvent.readings).Pairwise (· ≤ ·))
    (fits : ∀ now ∈ events.flatMap MeshEvent.readings, now + 3600 < 2 ^ 64) :
    ∃ s, Run Advances (start httpPort peerRegistry) events s ∧
      s.loop.totalPeersSeen = events.countP MeshEvent.opens ∧
      meshStatusHandler config s.loop =
        { peerId := listenedPeerId (events.filterMap MeshEvent.listens)
          multiaddrs := events.filterMap MeshEvent.listens
          natStatus := (events.filterMap MeshEvent.natStatus).getLast?.elim "Unknown"
            NatStatus.text
          isRelay := config.isRelay
          relayReservations := events.countP MeshEvent.opens - events.countP MeshEvent.closes
          connectedPeers := events.countP MeshEvent.opens - events.countP MeshEvent.closes
          bootstrapPeers := config.bootstrapNodes
          dcutrEnabled := config.enableDcutr
          transport := "TCP+QUIC"
          holePunchingAttempts := events.countP MeshEvent.punches
          holePunchingSuccesses := 0
          meshVersion := "libp2p-v0.53" } := by
  have regular : (start httpPort peerRegistry).loop.peerGuard.Regular 0 0 := by
    intro peer record stored
    cases stored
  obtain ⟨s, run⟩ := runs_of_regular regular deliverable (by omega)
    (List.pairwise_cons.mpr ⟨fun _ _ => Nat.zero_le _, ordered⟩) fits
  have tallies := run_tallies run few
  have peers : s.loop.connectedPeers =
      events.countP MeshEvent.opens - events.countP MeshEvent.closes := by
    have balance := tallies.balance
    rw [tallies.gauge]
    omega
  refine ⟨s, run, tallies.seen, ?_⟩
  rw [meshStatusHandler, tallies.multiaddrs, tallies.natStatus, tallies.punches, peers]

/-- A peer that connects, and one whose connection is reset after the cleanup. -/
def twoPeers : List MeshEvent :=
  [.swarm (.newListenAddr "/ip4/127.0.0.1/tcp/9001"),
    .swarm (.connectionEstablished somePeer "/ip4/10.0.0.2/tcp/9001" 100),
    .swarm (.connectionEstablished somePeer "/ip4/10.0.0.2/tcp/9001" 101), .guardCleanup 110,
    .swarm (.connectionClosed somePeer (some "reset") 120 120 121)]

theorem mesh_status_exact_reset : ∃ s, Run Advances (start 8899 ∅) twoPeers s ∧
    s.loop.totalPeersSeen = 2 ∧
    (meshStatusHandler ⟨false, [], true⟩ s.loop).connectedPeers = 1 := by
  obtain ⟨s, run, seen, status⟩ := mesh_status_exact 8899 ∅ ⟨false, [], true⟩ twoPeers
    (by simp [twoPeers, MeshEvent.Deliverable, MeshEvent.closed, MeshEvent.openAfter])
    (by decide) (by decide) (by decide)
  refine ⟨s, run, seen, ?_⟩
  rw [status]
  rfl

end ServedSwarm

end Solnet.Daemon
