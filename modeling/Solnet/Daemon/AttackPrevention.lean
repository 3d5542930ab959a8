import Mathlib.Data.List.Infix
import Solnet.Daemon.Checked
import Solnet.Lib.Table

/-! Bans, the per-address rate limit and the payload scan. Each operation gets the
clock readings it makes, in seconds, as arguments. -/
namespace Solnet.Daemon
open Fallible

structure IpRecord where
  count : Nat
  windowStart : Nat
  lastSeen : Nat
  deriving DecidableEq, Repr

structure AttackPrevention where
  ipRequests : Table String IpRecord
  bannedIps : Table String Nat
  totalRequests : Nat

def attackPatterns : List String :=
  ["' OR '1'='1", "DROP TABLE", "<script>", "javascript:", "../", "..\\", "\x00"]

inductive RateResult where
  | allowed
  | limited (retryAfter : Nat)
  | banned
  deriving DecidableEq, Repr

inductive ScanResult where
  | clean
  | blocked (reason : String)
  deriving DecidableEq, Repr

/-- `to_lowercase` of a character, as far as a match with ASCII text can see it: the
Kelvin sign and the dotted capital I are the characters beyond ASCII whose lower case
has ASCII in it. -/
def lowercase (c : Char) : List Char :=
  if c.val = 0x212A then ['k']
  else if c.val = 0x130 then ['i', Char.ofNat 0x307]
  else [c.toLower]

def toLowercase (text : String) : List Char := text.toList.flatMap lowercase

namespace AttackPrevention

def new : AttackPrevention := ⟨∅, ∅, 0⟩

def isBanned (s : AttackPrevention) (ip : String) (now : Nat) : AttackPrevention × Bool :=
  match s.bannedIps.lookup ip with
  | some expiry =>
    if now < expiry then (s, true) else ({ s with bannedIps := s.bannedIps.erase ip }, false)
  | none => (s, false)

def banIp (s : AttackPrevention) (ip : String) (durationSecs now : Nat) :
    Checked AttackPrevention := do
  let expiry ← checkedAdd 64 now durationSecs
  return { s with bannedIps := s.bannedIps.insert ip expiry }

def touch (stored : Option IpRecord) (now : Nat) : Checked IpRecord := do
  let record := stored.getD ⟨0, now, now⟩
  let age ← checkedSub now record.windowStart
  let record := if 60 < age then { record with count := 0, windowStart := now } else record
  let count ← checkedAdd 64 record.count 1
  return { record with count := count, lastSeen := now }

/-- The part of the rate limit under the lock of the address: no verdict means that the
address is to be banned. -/
def countRequest (s : AttackPrevention) (ip : String) (now : Nat) :
    Checked (AttackPrevention × Option RateResult) := do
  let record ← touch (s.ipRequests.lookup ip) now
  let s := { s with ipRequests := s.ipRequests.insert ip record }
  if 1000 < record.count then return (s, none)
  else if 100 < record.count then
    let age ← checkedSub now record.windowStart
    let retryAfter ← checkedSub 60 age
    return (s, some (.limited retryAfter))
  else return (s, some .allowed)

/-- `banNow` is the clock reading of the ban, made only when one is due. -/
def checkRateLimit (s : AttackPrevention) (ip : String) (now banNow : Nat) :
    Checked (AttackPrevention × RateResult) := do
  match ← s.countRequest ip now with
  | (s, some result) => return (s, result)
  | (s, none) =>
    let s ← s.banIp ip 86400 banNow
    return (s, .banned)

def recent (now : Nat) (record : IpRecord) : Checked Bool := do
  let age ← checkedSub now record.lastSeen
  return age < 300

def cleanup (s : AttackPrevention) (now : Nat) : Checked AttackPrevention := do
  let ipRequests ← s.ipRequests.retain fun _ record => recent now record
  let bannedIps ← s.bannedIps.retain fun _ expiry => .ok (now < expiry)
  return { s with ipRequests := ipRequests, bannedIps := bannedIps }

def scanPayload (payload : String) : ScanResult :=
  if 102400 < payload.utf8ByteSize then .blocked "payload too large"
  else if attackPatterns.any fun p => decide (toLowercase p <:+: toLowercase payload) then
    .blocked "attack pattern detected"
  else if 20 < payload.toList.countP fun c => c = '\x7b' || c = '[' then
    .blocked "too deeply nested"
  else .clean

def incrementTotal (s : AttackPrevention) : AttackPrevention :=
  { s with totalRequests := (s.totalRequests + 1) % 2 ^ 64 }

variable {s s' : AttackPrevention} {ip : String} {now : Nat} {stored : Option IpRecord}
  {record : IpRecord}

def restarts (stored : Option IpRecord) (now : Nat) : Bool :=
  stored.all fun record => 60 < now - record.windowStart

theorem touch_ok (ok : touch stored now = .ok record) :
    record.lastSeen = now ∧ record.windowStart ≤ now ∧ now - record.windowStart ≤ 60 ∧
      record.windowStart = if restarts stored now then now
        else (stored.map IpRecord.windowStart).getD now := by
  obtain ⟨age, subtracted, ok⟩ := bind_ok_iff.mp ok
  obtain ⟨count, _, ok⟩ := bind_ok_iff.mp ok
  obtain ⟨ordered, rfl⟩ := subWithin_ok_iff.mp subtracted
  cases ok
  refine ⟨rfl, ?_⟩
  cases stored with
  | none => simp [restarts]
  | some old =>
    simp only [Option.getD_some] at ordered
    by_cases late : 60 < now - old.windowStart
    · simp [restarts, late]
    · simp only [Option.getD_some, restarts, Option.all_some, late, if_false, decide_false,
        Bool.false_eq_true, Option.map_some]
      exact ⟨ordered, by omega, trivial⟩

theorem retryAfter_of_touch (touched : touch stored now = .ok record) :
    checkedSub now record.windowStart = .ok (now - record.windowStart) ∧
      checkedSub 60 (now - record.windowStart) = .ok (60 - (now - record.windowStart)) := by
  obtain ⟨_, started, within, _⟩ := touch_ok touched
  exact ⟨if_pos started, if_pos within⟩

theorem touch_underflows_iff :
    touch stored now = .error .subOverflow ↔
      ∃ record, stored = some record ∧ now < record.windowStart := by
  -- after the subtraction only the count can overflow
  have first : touch stored now = .error .subOverflow ↔
      now < (stored.getD ⟨0, now, now⟩).windowStart := by
    apply checkedSub_bind_underflows_iff
    intro age error
    rcases bind_error_iff.mp error with counted | ⟨count, _, error⟩
    · exact checkedAdd_ne_underflow counted
    · cases error
  rw [first]
  cases stored with
  | none => simp
  | some old => simp

theorem countRequest_ok {verdict : Option RateResult}
    (ok : s.countRequest ip now = .ok (s', verdict)) :
    ∃ record, touch (s.ipRequests.lookup ip) now = .ok record ∧
      s' = { s with ipRequests := s.ipRequests.insert ip record } := by
  obtain ⟨record, touched, ok⟩ := bind_ok_iff.mp ok
  refine ⟨record, touched, ?_⟩
  split at ok
  · cases ok
    rfl
  · split at ok
    · obtain ⟨age, _, ok⟩ := bind_ok_iff.mp ok
      obtain ⟨retryAfter, _, ok⟩ := bind_ok_iff.mp ok
      cases ok
      rfl
    · cases ok
      rfl

theorem countRequest_underflows_iff :
    s.countRequest ip now = .error .subOverflow ↔
      ∃ record, s.ipRequests.lookup ip = some record ∧ now < record.windowStart := by
  rw [← touch_underflows_iff]
  apply bind_error_left_iff
  intro record touched error
  obtain ⟨ages, waits⟩ := retryAfter_of_touch touched
  dsimp only at error
  split at error
  · cases error
  · split at error
    · rw [ages, bind_of_ok, waits] at error
      cases error
    · cases error

theorem recent_underflows_iff :
    recent now record = .error .subOverflow ↔ now < record.lastSeen := by
  exact checkedSub_bind_underflows_iff fun age => nofun

end AttackPrevention

end Solnet.Daemon
