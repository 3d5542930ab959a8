import Mathlib.Logic.Function.Basic
import Solnet.Daemon.AttackPrevention
import Solnet.Daemon.PeerGuard
import Solnet.Daemon.Upstream
import Solnet.Lib.Runs

/-! Calls that run at the same time on the shared guards and the reward tracker. A clock
reading and each access under a lock are atomic steps of a call, and a cleanup visits
entries one by one, in any order. -/
namespace Solnet.Daemon
open Fallible

inductive Call (P : Type) where
  | isBanned (ip : String)
  | banIp (ip : String) (durationSecs : Nat)
  | checkRateLimit (ip : String)
  | cleanupIps
  | isAllowed (peer : P)
  | ban (peer : P) (reason : String) (expiresAt : Option Nat)
  | onConnected (peer : P)
  | onSuccessfulRelay (peer : P) (bytes : Nat)
  | cleanupPeers
  | getOnchainBalance
  deriving DecidableEq, Repr

/-- Where a call stands before its next step. -/
inductive Point (P : Type) where
  | start (call : Call P)
  | removesBan (ip : String)
  | insertsBan (ip : String) (expiry : Nat)
  | countsRequest (ip : String) (now : Nat)
  | sweepsIps (now : Nat)
  | removesPeerBan (peer : P)
  | checksScore (peer : P)
  | insertsPeerBan (peer : P) (ban : BanRecord)
  | removesScore (peer : P)
  | recordsConnection (peer : P) (now : Nat)
  | sweepsPeers (now : Nat)
  | readsBalance (now : Nat)
  | returned (answer : Option Bool)
  deriving DecidableEq, Repr

inductive Entry (P : Type) where
  | ip (ip : String)
  | bannedIp (ip : String)
  | peer (peer : P)
  | bannedPeer (peer : P)
  deriving DecidableEq, Repr

structure Shared (P : Type) where
  attackPrevention : AttackPrevention
  peerGuard : PeerGuard P
  walletTracker : WalletRewardTracker

namespace Shared

variable {P : Type} [DecidableEq P]

def new : Shared P := ⟨.new, .new, .new⟩

def withBannedIps (s : Shared P) (banned : Table String Nat) : Shared P :=
  { s with attackPrevention := { s.attackPrevention with bannedIps := banned } }

def withBannedPeers (s : Shared P) (banned : Table P BanRecord) : Shared P :=
  { s with peerGuard := { s.peerGuard with banned := banned } }

def withScores (s : Shared P) (scores : Table P PeerRecord) : Shared P :=
  { s with peerGuard := { s.peerGuard with scores := scores } }

/-- The next step of a call, at the clock it finds. The record of a relayed peer is stamped
under its lock. -/
def advance (s : Shared P) (clock : Nat) (fetched : Option Nat) :
    Point P → Checked (Shared P × Point P)
  | .start (.isBanned ip) =>
    match s.attackPrevention.bannedIps.lookup ip with
    | some expiry => .ok (s, if clock < expiry then .returned (some true) else .removesBan ip)
    | none => .ok (s, .returned (some false))
  | .removesBan ip =>
    .ok (s.withBannedIps (s.attackPrevention.bannedIps.erase ip), .returned (some false))
  | .start (.banIp ip durationSecs) => do
    let expiry ← checkedAdd 64 clock durationSecs
    return (s, .insertsBan ip expiry)
  | .insertsBan ip expiry =>
    .ok (s.withBannedIps (s.attackPrevention.bannedIps.insert ip expiry), .returned none)
  | .start (.checkRateLimit ip) => .ok (s, .countsRequest ip clock)
  | .countsRequest ip now => do
    let (prevention, verdict) ← s.attackPrevention.countRequest ip now
    let s := { s with attackPrevention := prevention }
    match verdict with
    | none => return (s, .start (.banIp ip 86400))
    | some _ => return (s, .returned none)
  | .start .cleanupIps => .ok (s, .sweepsIps clock)
  | .sweepsIps _ => .ok (s, .returned none)
  | .start (.isAllowed peer) =>
    match s.peerGuard.banned.lookup peer with
    | some ban =>
      .ok (s, if ban.stands clock then .returned (some false) else .removesPeerBan peer)
    | none => .ok (s, .checksScore peer)
  | .removesPeerBan peer =>
    .ok (s.withBannedPeers (s.peerGuard.banned.erase peer), .checksScore peer)
  | .checksScore peer => .ok (s, .returned (some (s.peerGuard.scoreAllows peer)))
  | .start (.ban peer reason expiresAt) => .ok (s, .insertsPeerBan peer ⟨reason, clock, expiresAt⟩)
  | .insertsPeerBan peer ban =>
    .ok (s.withBannedPeers (s.peerGuard.banned.insert peer ban), .removesScore peer)
  | .removesScore peer => .ok (s.withScores (s.peerGuard.scores.erase peer), .returned none)
  | .start (.onConnected peer) => .ok (s, .recordsConnection peer clock)
  | .recordsConnection peer now => do
    let guard ← s.peerGuard.onConnected peer now
    return ({ s with peerGuard := guard }, .returned none)
  | .start (.onSuccessfulRelay peer bytes) => do
    let guard ← s.peerGuard.onSuccessfulRelay peer bytes clock clock
    return ({ s with peerGuard := guard }, .returned none)
  | .start .cleanupPeers => .ok (s, .sweepsPeers clock)
  | .sweepsPeers _ => .ok (s, .returned none)
  | .start .getOnchainBalance => .ok (s, .readsBalance clock)
  | .readsBalance now => do
    let (tracker, _) ← s.walletTracker.getOnchainBalance now fetched
    return ({ s with walletTracker := tracker }, .returned none)
  | .returned answer => .ok (s, .returned answer)

/-- A visit of a cleanup, which read the clock when it began. -/
def visit (s : Shared P) (now : Nat) : Entry P → Checked (Shared P)
  | .ip ip => do
    let requests ← Table.visit (fun _ record => AttackPrevention.recent now record)
      s.attackPrevention.ipRequests ip
    return { s with attackPrevention := { s.attackPrevention with ipRequests := requests } }
  | .bannedIp ip => do
    let banned ← Table.visit (fun _ expiry => .ok (now < expiry)) s.attackPrevention.bannedIps ip
    return s.withBannedIps banned
  | .peer peer => do
    let scores ← Table.visit (fun _ record => record.recent now) s.peerGuard.scores peer
    return s.withScores scores
  | .bannedPeer peer => do
    let banned ← Table.visit (fun _ ban => .ok (ban.stands now)) s.peerGuard.banned peer
    return s.withBannedPeers banned

end Shared

def Call.reads {P : Type} : Call P → Bool
  | .checkRateLimit _ | .cleanupIps | .onConnected _ | .onSuccessfulRelay _ _ | .cleanupPeers
  | .getOnchainBalance => true
  | _ => false

def Point.reads {P : Type} : Point P → Bool
  | .start call => call.reads
  | _ => false

def Point.reading {P : Type} : Point P → Option Nat
  | .countsRequest _ now | .sweepsIps now | .recordsConnection _ now | .sweepsPeers now
  | .readsBalance now => some now
  | _ => none

/-- The cleanup that visits an entry, by its clock reading. -/
def Point.sweeps {P : Type} : Point P → Entry P → Option Nat
  | .sweepsIps now, .ip _ => some now
  | .sweepsIps now, .bannedIp _ => some now
  | .sweepsPeers now, .peer _ => some now
  | .sweepsPeers now, .bannedPeer _ => some now
  | _, _ => none

theorem Point.reading_of_sweeps {P : Type} {point : Point P} {entry : Entry P} {now : Nat}
    (sweeps : point.sweeps entry = some now) : point.reading = some now := by
  unfold Point.sweeps at sweeps
  split at sweeps
  · exact sweeps
  · exact sweeps
  · exact sweeps
  · exact sweeps
  · cases sweeps

/-- What a step of a call that does not panic can be. -/
inductive Shared.Advanced {P : Type} [DecidableEq P] (s : Shared P) (clock : Nat)
    (fetched : Option Nat) : Point P → Shared P → Point P → Prop where
  | isBanned {ip : String} {next : Point P}
      (goes : next = .removesBan ip ∨ ∃ answer, next = .returned (some answer)) :
      Advanced s clock fetched (.start (.isBanned ip)) s next
  | removesBan {ip : String} :
      Advanced s clock fetched (.removesBan ip)
        (s.withBannedIps (s.attackPrevention.bannedIps.erase ip)) (.returned (some false))
  | banIp {ip : String} {durationSecs expiry : Nat} :
      Advanced s clock fetched (.start (.banIp ip durationSecs)) s (.insertsBan ip expiry)
  | insertsBan {ip : String} {expiry : Nat} :
      Advanced s clock fetched (.insertsBan ip expiry)
        (s.withBannedIps (s.attackPrevention.bannedIps.insert ip expiry)) (.returned none)
  | checkRateLimit {ip : String} :
      Advanced s clock fetched (.start (.checkRateLimit ip)) s (.countsRequest ip clock)
  | countsRequest {ip : String} {now : Nat} {record : IpRecord} {next : Point P}
      (touched : AttackPrevention.touch (s.attackPrevention.ipRequests.lookup ip) now = .ok record)
      (goes : next = .start (.banIp ip 86400) ∨ next = .returned none) :
      Advanced s clock fetched (.countsRequest ip now)
        { s with attackPrevention := { s.attackPrevention with
          ipRequests := s.attackPrevention.ipRequests.insert ip record } } next
  | cleanupIps : Advanced s clock fetched (.start .cleanupIps) s (.sweepsIps clock)
  | sweepsIps {now : Nat} : Advanced s clock fetched (.sweepsIps now) s (.returned none)
  | isAllowed {peer : P} {next : Point P}
      (goes : next = .removesPeerBan peer ∨ next = .checksScore peer ∨
        next = .returned (some false)) :
      Advanced s clock fetched (.start (.isAllowed peer)) s next
  | removesPeerBan {peer : P} :
      Advanced s clock fetched (.removesPeerBan peer)
        (s.withBannedPeers (s.peerGuard.banned.erase peer)) (.checksScore peer)
  | checksScore {peer : P} {answer : Bool} :
      Advanced s clock fetched (.checksScore peer) s (.returned (some answer))
  | ban {peer : P} {reason : String} {expiresAt : Option Nat} {ban : BanRecord} :
      Advanced s clock fetched (.start (.ban peer reason expiresAt)) s (.insertsPeerBan peer ban)
  | insertsPeerBan {peer : P} {ban : BanRecord} :
      Advanced s clock fetched (.insertsPeerBan peer ban)
        (s.withBannedPeers (s.peerGuard.banned.insert peer ban)) (.removesScore peer)
  | removesScore {peer : P} :
      Advanced s clock fetched (.removesScore peer)
        (s.withScores (s.peerGuard.scores.erase peer)) (.returned none)
  | onConnected {peer : P} :
      Advanced s clock fetched (.start (.onConnected peer)) s (.recordsConnection peer clock)
  | recordsConnection {peer : P} {now : Nat} {record : PeerRecord} (seen : record.lastSeen = now) :
      Advanced s clock fetched (.recordsConnection peer now)
        { s with peerGuard := s.peerGuard.setRecord peer record } (.returned none)
  | onSuccessfulRelay {peer : P} {bytes : Nat} {record : PeerRecord}
      (seen : record.lastSeen = clock) :
      Advanced s clock fetched (.start (.onSuccessfulRelay peer bytes))
        { s with peerGuard := s.peerGuard.setRecord peer record } (.returned none)
  | cleanupPeers : Advanced s clock fetched (.start .cleanupPeers) s (.sweepsPeers clock)
  | sweepsPeers {now : Nat} : Advanced s clock fetched (.sweepsPeers now) s (.returned none)
  | getOnchainBalance :
      Advanced s clock fetched (.start .getOnchainBalance) s (.readsBalance clock)
  | readsBalance {now : Nat} {tracker : WalletRewardTracker} {answer : Option Nat}
      (balance : s.walletTracker.getOnchainBalance now fetched = .ok (tracker, answer)) :
      Advanced s clock fetched (.readsBalance now) { s with walletTracker := tracker }
        (.returned none)
  | returned {answer : Option Bool} :
      Advanced s clock fetched (.returned answer) s (.returned answer)

theorem Shared.advanced {P : Type} [DecidableEq P] {s s' : Shared P} {clock : Nat}
    {fetched : Option Nat} {point next : Point P}
    (ok : s.advance clock fetched point = .ok (s', next)) :
    s.Advanced clock fetched point s' next := by
  cases point with
  | countsRequest ip now =>
    obtain ⟨⟨prevention, verdict⟩, counted, ok⟩ := bind_ok_iff.mp ok
    obtain ⟨record, touched, rfl⟩ := AttackPrevention.countRequest_ok counted
    cases verdict with
    | none => cases ok; exact .countsRequest touched (.inl rfl)
    | some result => cases ok; exact .countsRequest touched (.inr rfl)
  | recordsConnection peer now =>
    obtain ⟨guard, connected, ok⟩ := bind_ok_iff.mp ok
    obtain ⟨record, seen, rfl⟩ := PeerGuard.onConnected_ok connected
    cases ok
    exact .recordsConnection seen
  | readsBalance now =>
    obtain ⟨⟨tracker, answer⟩, balance, ok⟩ := bind_ok_iff.mp ok
    cases ok
    exact .readsBalance balance
  | removesBan ip => cases ok; exact .removesBan
  | insertsBan ip expiry => cases ok; exact .insertsBan
  | sweepsIps now => cases ok; exact .sweepsIps
  | removesPeerBan peer => cases ok; exact .removesPeerBan
  | checksScore peer => cases ok; exact .checksScore
  | insertsPeerBan peer ban => cases ok; exact .insertsPeerBan
  | removesScore peer => cases ok; exact .removesScore
  | sweepsPeers now => cases ok; exact .sweepsPeers
  | returned answer => cases ok; exact .returned
  | start call =>
    cases call with
    | isBanned ip =>
      dsimp only [Shared.advance] at ok
      split at ok
      · cases ok
        split
        · exact .isBanned (.inr ⟨true, rfl⟩)
        · exact .isBanned (.inl rfl)
      · cases ok
        exact .isBanned (.inr ⟨false, rfl⟩)
    | isAllowed peer =>
      dsimp only [Shared.advance] at ok
      split at ok
      · cases ok
        split
        · exact .isAllowed (.inr (.inr rfl))
        · exact .isAllowed (.inl rfl)
      · cases ok
        exact .isAllowed (.inr (.inl rfl))
    | banIp ip durationSecs =>
      obtain ⟨expiry, _, ok⟩ := bind_ok_iff.mp ok
      cases ok
      exact .banIp
    | onSuccessfulRelay peer bytes =>
      obtain ⟨guard, relayed, ok⟩ := bind_ok_iff.mp ok
      obtain ⟨record, seen, rfl⟩ := PeerGuard.onSuccessfulRelay_ok relayed
      cases ok
      exact .onSuccessfulRelay seen
    | checkRateLimit ip => cases ok; exact .checkRateLimit
    | cleanupIps => cases ok; exact .cleanupIps
    | ban peer reason expiresAt => cases ok; exact .ban
    | onConnected peer => cases ok; exact .onConnected
    | cleanupPeers => cases ok; exact .cleanupPeers
    | getOnchainBalance => cases ok; exact .getOnchainBalance

theorem Shared.advance_next {P : Type} [DecidableEq P] {s s' : Shared P} {clock : Nat}
    {fetched : Option Nat} {point next : Point P}
    (ok : s.advance clock fetched point = .ok (s', next)) :
    next.reads = false ∧ ∀ now, next.reading = some now → point.reads = true ∧ now = clock := by
  cases Shared.advanced ok with
  | isBanned goes => rcases goes with rfl | ⟨answer, rfl⟩ <;> exact ⟨rfl, nofun⟩
  | countsRequest _ goes => rcases goes with rfl | rfl <;> exact ⟨rfl, nofun⟩
  | isAllowed goes => rcases goes with rfl | rfl | rfl <;> exact ⟨rfl, nofun⟩
  | checkRateLimit | cleanupIps | onConnected | cleanupPeers | getOnchainBalance =>
    exact ⟨rfl, fun now reads => ⟨rfl, (Option.some.inj reads).symm⟩⟩
  | _ => exact ⟨rfl, nofun⟩

/-- The steps of a check with nothing between them make up `is_banned`. -/
theorem Shared.isBanned_steps {P : Type} [DecidableEq P] (s : Shared P) (ip : String)
    (clock : Nat) (fetched : Option Nat) :
    (∃ answer, s.advance clock fetched (.start (.isBanned ip)) =
        .ok (s, .returned (some answer)) ∧
      s.attackPrevention.isBanned ip clock = (s.attackPrevention, answer)) ∨
    s.advance clock fetched (.start (.isBanned ip)) = .ok (s, .removesBan ip) ∧
      ∃ s', s.advance clock fetched (.removesBan ip) = .ok (s', .returned (some false)) ∧
        s.attackPrevention.isBanned ip clock = (s'.attackPrevention, false) := by
  cases stored : s.attackPrevention.bannedIps.lookup ip with
  | none =>
    refine .inl ⟨false, ?_, ?_⟩
    · simp only [Shared.advance, stored]
    · simp only [AttackPrevention.isBanned, stored]
  | some expiry =>
    by_cases standing : clock < expiry
    · refine .inl ⟨true, ?_, ?_⟩
      · simp only [Shared.advance, stored, if_pos standing]
      · simp only [AttackPrevention.isBanned, stored, if_pos standing]
    · refine .inr ⟨?_, _, rfl, ?_⟩
      · simp only [Shared.advance, stored, if_neg standing]
      · simp only [AttackPrevention.isBanned, stored, if_neg standing]
        rfl

theorem Shared.isAllowed_steps {P : Type} [DecidableEq P] (s : Shared P) (peer : P)
    (clock : Nat) (fetched : Option Nat) :
    s.advance clock fetched (.start (.isAllowed peer)) = .ok (s, .returned (some false)) ∧
        s.peerGuard.isAllowed peer clock = (s.peerGuard, false) ∨
    ∃ s', (s.advance clock fetched (.start (.isAllowed peer)) = .ok (s', .checksScore peer) ∨
        s.advance clock fetched (.start (.isAllowed peer)) = .ok (s, .removesPeerBan peer) ∧
        s.advance clock fetched (.removesPeerBan peer) = .ok (s', .checksScore peer)) ∧
      s.peerGuard.isAllowed peer clock = (s'.peerGuard, s'.peerGuard.scoreAllows peer) := by
  cases stored : s.peerGuard.banned.lookup peer with
  | none =>
    refine .inr ⟨s, .inl ?_, ?_⟩
    · simp only [Shared.advance, stored]
    · simp only [PeerGuard.isAllowed, stored]
  | some ban =>
    by_cases standing : ban.stands clock = true
    · refine .inl ⟨?_, ?_⟩
      · simp only [Shared.advance, stored, if_pos standing]
      · simp only [PeerGuard.isAllowed, stored, if_pos standing]
    · refine .inr ⟨_, .inr ⟨?_, rfl⟩, ?_⟩
      · simp only [Shared.advance, stored, if_neg standing]
      · simp only [PeerGuard.isAllowed, stored, if_neg standing]
        rfl

/-- The clock, what the calls share, where each call stands, and the panic that ended the
daemon, if one did. -/
structure World (C P : Type) where
  clock : Nat
  shared : Shared P
  points : C → Option (Point P)
  halted : Option Halt

inductive Event (C P : Type) where
  | tick (now : Nat)
  | start (c : C) (call : Call P)
  | advance (c : C) (fetched : Option Nat)
  | visit (c : C) (entry : Entry P)

namespace World

variable {C P : Type} [DecidableEq C] [DecidableEq P]

def new (clock : Nat) : World C P := ⟨clock, .new, fun _ => none, none⟩

def moveTo (w : World C P) (c : C) (point : Point P) : World C P :=
  { w with points := Function.update w.points c (some point) }

omit [DecidableEq P] in
theorem points_moveTo (w : World C P) (c c' : C) (point : Point P) :
    (w.moveTo c point).points c' = if c' = c then some point else w.points c' :=
  Function.update_apply _ _ _ _

def step (w : World C P) (event : Event C P) : Option (World C P) :=
  if w.halted.isSome then none
  else
    match event with
    | .tick now => if w.clock ≤ now then some { w with clock := now } else none
    | .start c call => if (w.points c).isSome then none else some (w.moveTo c (.start call))
    | .advance c fetched =>
      (w.points c).map fun point =>
        match w.shared.advance w.clock fetched point with
        | .error halt => { w with halted := some halt }
        | .ok (shared, point) => { w.moveTo c point with shared := shared }
    | .visit c entry =>
      ((w.points c).bind fun point => point.sweeps entry).map fun now =>
        match w.shared.visit now entry with
        | .error halt => { w with halted := some halt }
        | .ok shared => { w with shared := shared }

def Steps (w : World C P) (event : Event C P) (w' : World C P) : Prop := w.step event = some w'

inductive Took (w : World C P) : Event C P → World C P → Prop where
  | tick {now : Nat} (later : w.clock ≤ now) : Took w (.tick now) { w with clock := now }
  | start {c : C} {call : Call P} (fresh : w.points c = none) :
      Took w (.start c call) (w.moveTo c (.start call))
  | advance {c : C} {fetched : Option Nat} {point next : Point P} {shared : Shared P}
      (stands : w.points c = some point)
      (ok : w.shared.advance w.clock fetched point = .ok (shared, next)) :
      Took w (.advance c fetched) { w.moveTo c next with shared := shared }
  | advancePanic {c : C} {fetched : Option Nat} {point : Point P} {halt : Halt}
      (stands : w.points c = some point)
      (error : w.shared.advance w.clock fetched point = .error halt) :
      Took w (.advance c fetched) { w with halted := some halt }
  | visit {c : C} {entry : Entry P} {point : Point P} {now : Nat} {shared : Shared P}
      (stands : w.points c = some point) (sweeps : point.sweeps entry = some now)
      (ok : w.shared.visit now entry = .ok shared) :
      Took w (.visit c entry) { w with shared := shared }
  | visitPanic {c : C} {entry : Entry P} {point : Point P} {now : Nat} {halt : Halt}
      (stands : w.points c = some point) (sweeps : point.sweeps entry = some now)
      (error : w.shared.visit now entry = .error halt) :
      Took w (.visit c entry) { w with halted := some halt }

variable {w w' w'' : World C P} {event : Event C P}

theorem Steps.took (step : w.Steps event w') : w.halted = none ∧ w.Took event w' := by
  unfold Steps World.step at step
  split at step
  · cases step
  · rename_i running
    refine ⟨by simpa only [Option.isSome_iff_ne_none, not_not] using running, ?_⟩
    cases event with
    | tick now =>
      dsimp only at step
      split at step
      · rename_i later
        cases step
        exact .tick later
      · cases step
    | start c call =>
      dsimp only at step
      split at step
      · cases step
      · rename_i fresh
        cases step
        exact .start (by simpa only [Option.isSome_iff_ne_none, not_not] using fresh)
    | advance c fetched =>
      obtain ⟨point, stands, step⟩ := Option.map_eq_some_iff.mp step
      cases outcome : w.shared.advance w.clock fetched point with
      | error halt =>
        rw [outcome] at step
        cases step
        exact .advancePanic stands outcome
      | ok result =>
        rw [outcome] at step
        cases step
        exact .advance stands outcome
    | visit c entry =>
      obtain ⟨now, found, step⟩ := Option.map_eq_some_iff.mp step
      obtain ⟨point, stands, sweeps⟩ := Option.bind_eq_some_iff.mp found
      cases outcome : w.shared.visit now entry with
      | error halt =>
        rw [outcome] at step
        cases step
        exact .visitPanic stands sweeps outcome
      | ok shared =>
        rw [outcome] at step
        cases step
        exact .visit stands sweeps outcome

theorem steps_deterministic : Runs.Deterministic (Steps (C := C) (P := P)) :=
  Runs.deterministic_of_option step

end World

end Solnet.Daemon
