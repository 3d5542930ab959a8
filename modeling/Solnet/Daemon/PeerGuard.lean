import Solnet.Daemon.Checked
import Solnet.Lib.Table

/-! Peer reputation. Peers are any type of ids, and each operation gets the clock
readings it makes, in seconds. -/
namespace Solnet.Daemon
open Fallible

structure PeerRecord where
  score : Int
  connections : Nat
  failedHandshakes : Nat
  spamAttempts : Nat
  bytesSent : Nat
  bytesReceived : Nat
  firstSeen : Nat
  lastSeen : Nat
  deriving DecidableEq, Repr

structure BanRecord where
  reason : String
  bannedAt : Nat
  expiresAt : Option Nat
  deriving DecidableEq, Repr

namespace PeerRecord

def default (now : Nat) : PeerRecord := ⟨50, 0, 0, 0, 0, 0, now, now⟩

def connected (record : PeerRecord) (now : Nat) : Checked PeerRecord := do
  let connections ← checkedAdd 32 record.connections 1
  let score ← withinI32 .addOverflow (record.score + 1)
  return { record with connections := connections, lastSeen := now, score := min score 100 }

def failed (record : PeerRecord) : Checked PeerRecord := do
  let failedHandshakes ← checkedAdd 32 record.failedHandshakes 1
  let score ← withinI32 .subOverflow (record.score - 10)
  return { record with failedHandshakes := failedHandshakes, score := score }

def violated (record : PeerRecord) : Checked PeerRecord := do
  let score ← withinI32 .subOverflow (record.score - 25)
  let spamAttempts ← checkedAdd 32 record.spamAttempts 1
  return { record with score := score, spamAttempts := spamAttempts }

def relayed (record : PeerRecord) (bytes now : Nat) : Checked PeerRecord := do
  let bytesReceived ← checkedAdd 64 record.bytesReceived bytes
  let score ← withinI32 .addOverflow (record.score + 2)
  return { record with bytesReceived := bytesReceived, lastSeen := now, score := min score 100 }

def recent (now : Nat) (record : PeerRecord) : Checked Bool := do
  let age ← checkedSub now record.lastSeen
  return age < 86400

end PeerRecord

def BanRecord.stands (ban : BanRecord) (now : Nat) : Bool :=
  match ban.expiresAt with
  | some expires => now < expires
  | none => true

structure PeerGuard (P : Type) where
  scores : Table P PeerRecord
  banned : Table P BanRecord

namespace PeerGuard

variable {P : Type} [DecidableEq P]

def new : PeerGuard P := ⟨∅, ∅⟩

/-- The second part of `is_allowed`, for a peer without a standing ban. -/
def scoreAllows (s : PeerGuard P) (peer : P) : Bool :=
  match s.scores.lookup peer with
  | some record => 0 < record.score
  | none => true

def isAllowed (s : PeerGuard P) (peer : P) (now : Nat) : PeerGuard P × Bool :=
  match s.banned.lookup peer with
  | some ban =>
    if ban.stands now then (s, false)
    else ({ s with banned := s.banned.erase peer }, s.scoreAllows peer)
  | none => (s, s.scoreAllows peer)

def ban (s : PeerGuard P) (peer : P) (reason : String) (expiresAt : Option Nat) (now : Nat) :
    PeerGuard P :=
  ⟨s.scores.erase peer, s.banned.insert peer ⟨reason, now, expiresAt⟩⟩

def recordOf (s : PeerGuard P) (peer : P) (now : Nat) : PeerRecord :=
  (s.scores.lookup peer).getD (.default now)

def setRecord (s : PeerGuard P) (peer : P) (record : PeerRecord) : PeerGuard P :=
  { s with scores := s.scores.insert peer record }

def onConnected (s : PeerGuard P) (peer : P) (now : Nat) : Checked (PeerGuard P) := do
  let record ← (s.recordOf peer now).connected now
  return s.setRecord peer record

def onFailedHandshake (s : PeerGuard P) (peer : P) (defaultNow expiryNow banNow : Nat) :
    Checked (PeerGuard P) := do
  let record ← (s.recordOf peer defaultNow).failed
  let s := s.setRecord peer record
  if 5 ≤ record.failedHandshakes then
    let expiry ← checkedAdd 64 expiryNow 3600
    return s.ban peer "5 failed handshakes" (some expiry) banNow
  else return s

def onProtocolViolation (s : PeerGuard P) (peer : P) (defaultNow banNow : Nat) :
    Checked (PeerGuard P) := do
  let record ← (s.recordOf peer defaultNow).violated
  let s := s.setRecord peer record
  if record.score ≤ 0 then return s.ban peer "protocol violation" none banNow
  else return s

def onSuccessfulRelay (s : PeerGuard P) (peer : P) (bytes defaultNow seenNow : Nat) :
    Checked (PeerGuard P) := do
  let record ← (s.recordOf peer defaultNow).relayed bytes seenNow
  return s.setRecord peer record

def cleanup (s : PeerGuard P) (now : Nat) : Checked (PeerGuard P) := do
  let banned ← s.banned.retain fun _ ban => .ok (ban.stands now)
  let scores ← s.scores.retain fun _ record => record.recent now
  return ⟨scores, banned⟩

variable {s t : PeerGuard P} {peer : P} {now : Nat}

theorem onConnected_ok (ok : s.onConnected peer now = .ok t) :
    ∃ record, record.lastSeen = now ∧ t = s.setRecord peer record := by
  obtain ⟨record, connected, stored⟩ := bind_ok_iff.mp ok
  obtain ⟨connections, _, connected⟩ := bind_ok_iff.mp connected
  obtain ⟨score, _, connected⟩ := bind_ok_iff.mp connected
  cases connected
  cases stored
  exact ⟨_, rfl, rfl⟩

theorem onSuccessfulRelay_ok {bytes seenNow : Nat}
    (ok : s.onSuccessfulRelay peer bytes now seenNow = .ok t) :
    ∃ record, record.lastSeen = seenNow ∧ t = s.setRecord peer record := by
  obtain ⟨record, relayed, stored⟩ := bind_ok_iff.mp ok
  obtain ⟨bytesReceived, _, relayed⟩ := bind_ok_iff.mp relayed
  obtain ⟨score, _, relayed⟩ := bind_ok_iff.mp relayed
  cases relayed
  cases stored
  exact ⟨_, rfl, rfl⟩

/-- A record is updated by additions only. -/
theorem counted_ne_underflow {width a b : Nat} {score : Int} {f : Nat → Int → PeerRecord} :
    (do
      let count ← checkedAdd width a b
      let score ← withinI32 .addOverflow score
      return f count score) ≠ .error .subOverflow := by
  intro error
  rcases bind_error_iff.mp error with error | ⟨count, _, error⟩
  · exact checkedAdd_ne_underflow error
  · rcases bind_error_iff.mp error with error | ⟨score, _, error⟩
    · cases withinI32_error error
    · cases error

theorem onConnected_ne_underflow : s.onConnected peer now ≠ .error .subOverflow := by
  intro error
  rcases bind_error_iff.mp error with error | ⟨record, _, error⟩
  · exact counted_ne_underflow error
  · cases error

theorem onSuccessfulRelay_ne_underflow {bytes seenNow : Nat} :
    s.onSuccessfulRelay peer bytes now seenNow ≠ .error .subOverflow := by
  intro error
  rcases bind_error_iff.mp error with error | ⟨record, _, error⟩
  · exact counted_ne_underflow error
  · cases error

end PeerGuard

theorem PeerRecord.recent_underflows_iff {record : PeerRecord} {now : Nat} :
    record.recent now = .error .subOverflow ↔ now < record.lastSeen := by
  exact checkedSub_bind_underflows_iff fun age => nofun

/-- An operation with the clock readings it can make, in order. -/
inductive PeerEvent (P : Type) where
  | connected (peer : P) (now : Nat)
  | failedHandshake (peer : P) (defaultNow expiryNow banNow : Nat)
  | protocolViolation (peer : P) (defaultNow banNow : Nat)
  | successfulRelay (peer : P) (bytes defaultNow seenNow : Nat)
  | allowed (peer : P) (now : Nat)
  | cleanup (now : Nat)
  deriving DecidableEq, Repr

namespace PeerEvent

variable {P : Type} [DecidableEq P]

def readings : PeerEvent P → List Nat
  | connected _ now => [now]
  | failedHandshake _ defaultNow expiryNow banNow => [defaultNow, expiryNow, banNow]
  | protocolViolation _ defaultNow banNow => [defaultNow, banNow]
  | successfulRelay _ _ defaultNow seenNow => [defaultNow, seenNow]
  | allowed _ now => [now]
  | cleanup now => [now]

def apply (s : PeerGuard P) : PeerEvent P → Checked (PeerGuard P)
  | connected peer now => s.onConnected peer now
  | failedHandshake peer defaultNow expiryNow banNow =>
    s.onFailedHandshake peer defaultNow expiryNow banNow
  | protocolViolation peer defaultNow banNow => s.onProtocolViolation peer defaultNow banNow
  | successfulRelay peer bytes defaultNow seenNow =>
    s.onSuccessfulRelay peer bytes defaultNow seenNow
  | allowed peer now => .ok (s.isAllowed peer now).1
  | cleanup now => s.cleanup now

end PeerEvent

end Solnet.Daemon
